import FootballIQ.Frames

/-!
# Every entry is paid for

An entry is paid for when its fee journal moved the fee of its contest from its
user's wallet into the contest's escrow, and belongs to no other entry. A replay
of a used key breaks this, and so does a publication that replaces an escrow;
along every run nothing else does.
-/

namespace FootballIQ
namespace FeePayment

open Transaction Relational Interleaving WalletAccounts Contests Entries Platform

/-- `j` moved the fee from the wallet of the entry's user into the escrow of its contest. -/
def PaidBy (db : Db) (e : Entry) (j : JournalEntry) : Prop :=
  j.type = .entryFee ∧ ∃ c wallet escrow, db.contests.find e.contestId = some c ∧
    ofUser db.ledger.accounts e.userId .userAvailable "NGN" = some wallet ∧
    ofContest db.ledger.accounts e.contestId = some escrow ∧
    j.lines = [⟨wallet.id, -c.entryFeeMinor⟩, ⟨escrow.id, c.entryFeeMinor⟩]

/-- Every entry is paid for, and by a journal entry of its own. -/
structure Paid (db : Db) : Prop where
  paid : ∀ e ∈ db.entries.rows, ∃ j, db.ledger.journal.find e.feeJournalId = some j ∧ PaidBy db e j
  own : ∀ e ∈ db.entries.rows, ∀ e' ∈ db.entries.rows,
    e.feeJournalId = e'.feeJournalId → e = e'

/-- The submission stops before its posting or uses a key that no journal entry has;
the publication hits a contest without entries. -/
def FreshKey (_tick : Tick) (t : Task) (db : Db) : Prop :=
  match t with
  | .submitTx slip =>
    ofUser db.ledger.accounts slip.userId .userAvailable "NGN" = none ∨
      ofContest db.ledger.accounts slip.contest.id = none ∨
      hasEntered db slip.contest.id slip.userId ∨
      db.ledger.entryByKey (entryKey slip.dto.idempotencyKey) = none
  | .publishTx contest _ => ∀ e ∈ db.entries.rows, e.contestId ≠ contest.id
  | _ => True

/-- The keys of fee journals are taken by the entries that they paid for. -/
def Claimed (db : Db) : Prop :=
  ∀ j ∈ db.ledger.journal.rows, ∀ key, j.idempotencyKey = entryKey key →
    ∃ e ∈ db.entries.rows, e.feeJournalId = j.id

/-- A prepared slip carries the fee of its contest. -/
def KnowsFee (db : Db) (t : Task) : Prop :=
  match t with
  | .submitTx slip => ∃ c, db.contests.find slip.contest.id = some c ∧
      c.entryFeeMinor = slip.contest.entryFeeMinor
  | _ => True

section Preserving
variable {P : JournalEntry → Prop} {db db' : Db}

/-- A payment stays one while the owners find the same accounts and the fees are kept. -/
theorem PaidBy.transfer {e e' : Entry} {j : JournalEntry} (h : PaidBy db e j)
    (hc : Table.Keeps Contest.entryFeeMinor db.contests db'.contests)
    (hcontest : e'.contestId = e.contestId) (huser : e'.userId = e.userId)
    (hw : (ofUser db'.ledger.accounts e.userId .userAvailable "NGN").map (·.id) =
      (ofUser db.ledger.accounts e.userId .userAvailable "NGN").map (·.id))
    (he : (ofContest db'.ledger.accounts e.contestId).map (·.id) =
      (ofContest db.ledger.accounts e.contestId).map (·.id)) : PaidBy db' e' j := by
  obtain ⟨htype, c, wallet, escrow, hfind, hwallet, hescrow, hlines⟩ := h
  obtain ⟨c', hfind', hfee⟩ := hc.find hfind
  rw [hwallet, Option.map_some, Option.map_eq_some_iff] at hw
  rw [hescrow, Option.map_some, Option.map_eq_some_iff] at he
  obtain ⟨wallet', hw', hwid⟩ := hw
  obtain ⟨escrow', he', heid⟩ := he
  refine ⟨htype, c', wallet', escrow', hcontest ▸ hfind', ?_, hcontest ▸ he', ?_⟩
  · rw [huser]
    exact hw'
  · rw [hlines, hwid, heid, hfee]

theorem PaidBy.extends {e e' : Entry} {j : JournalEntry} (h : PaidBy db e j)
    (hl : Ledger.Extends P db.ledger db'.ledger)
    (hc : Table.Keeps Contest.entryFeeMinor db.contests db'.contests)
    (hcontest : e'.contestId = e.contestId) (huser : e'.userId = e.userId) : PaidBy db' e' j :=
  h.transfer hc hcontest huser (Ledger.map_id_of_owner (hl.ofUser _ _ _))
    (Ledger.map_id_of_owner (hl.ofContest _))

theorem Paid.frame {watched : ℕ → Bool} (h : Paid db) (hf : Frame P watched db db') : Paid db' := by
  obtain ⟨js, hjs, _⟩ := hf.ledger.journal
  have hold : ∀ e' ∈ db'.entries.rows, ∃ e ∈ db.entries.rows, e.id = e'.id ∧
      e.contestId = e'.contestId ∧ e.userId = e'.userId ∧ e.feeJournalId = e'.feeJournalId := by
    intro e' he'
    obtain ⟨e, he, hcols⟩ := hf.entries.mem he'
    simp only [feeColumns, Prod.mk.injEq] at hcols
    exact ⟨e, he, hcols.1, hcols.2.1, hcols.2.2.1, hcols.2.2.2.1⟩
  constructor
  · intro e' he'
    obtain ⟨e, he, _, hcontest, huser, hfee⟩ := hold e' he'
    obtain ⟨j, hj, hpaid⟩ := h.paid e he
    exact ⟨j, hfee ▸ Table.find_of_append _ hjs hj,
      hpaid.extends hf.ledger hf.contests hcontest.symm huser.symm⟩
  · intro e₁' h₁' e₂' h₂' heq
    obtain ⟨e₁, h₁, hid₁, _, _, hfee₁⟩ := hold e₁' h₁'
    obtain ⟨e₂, h₂, hid₂, _, _, hfee₂⟩ := hold e₂' h₂'
    have hsame : e₁ = e₂ := h.own e₁ h₁ e₂ h₂ (hfee₁.trans (heq.trans hfee₂.symm))
    exact db'.entries.eq_of_id_eq h₁' h₂' (hid₁.symm.trans ((congrArg Entry.id hsame).trans hid₂))

theorem Claimed.frame {watched : ℕ → Bool} (h : Claimed db)
    (hf : Frame NotFee watched db db') : Claimed db' := by
  obtain ⟨js, hjs, hnot⟩ := hf.ledger.journal
  intro j hj key hkey
  rw [hjs] at hj
  rcases List.mem_append.1 hj with hj | hj
  · obtain ⟨e, he, hfee⟩ := h j hj key hkey
    obtain ⟨e', he', hcols⟩ := hf.entries.mem_of he
    simp only [feeColumns, Prod.mk.injEq] at hcols
    exact ⟨e', he', hcols.2.2.2.1.trans hfee⟩
  · exact absurd hkey ((hnot j hj).2 key)

end Preserving

section Submission
variable {now : DateTime} {slip : PreparedSlip} {db db' : Db}

/-- Under a fresh key a submission that commits pays for its entry. -/
theorem Paid.submit {res : SubmitSlipResult} (h : Paid db) (hk : KnowsFee db (.submitTx slip))
    (hfresh : db.ledger.entryByKey (entryKey slip.dto.idempotencyKey) = none)
    (hok : submitTx now slip db = .ok (res, db')) : Paid db' := by
  obtain ⟨wallet, escrow, journalId, l, hw, he, hpost, _, rfl, _⟩ :=
    (submitTx_ok_iff now slip db db' res).1 hok
  obtain ⟨c, hc, hfee⟩ := hk
  obtain ⟨_, ⟨j, hj, _⟩ | ⟨_, rfl, rfl, _, hcov⟩⟩ := Ledger.post_ok_cases hpost
  · rw [show db.ledger.entryByKey (feeInput slip wallet escrow).idempotencyKey = none from hfresh] at hj
    cases hj
  have hext : Ledger.Extends (fun _ => True) db.ledger
      (Ledger.posted db.ledger (feeInput slip wallet escrow)) :=
    Ledger.extends_posted hcov (fun _ => trivial)
  have hold : ∀ e ∈ db.entries.rows, ∃ j, db.ledger.journal.find e.feeJournalId = some j ∧
      j.id ≠ db.ledger.journal.fresh ∧ PaidBy db e j := by
    intro e he
    obtain ⟨j, hj, hpaid⟩ := h.paid e he
    exact ⟨j, hj, db.ledger.journal.fresh_ne ((Table.find_eq_some_iff _ _ _).1 hj).1, hpaid⟩
  have hnew : PaidBy (entered db now slip db.ledger.journal.fresh
      (Ledger.posted db.ledger (feeInput slip wallet escrow)))
      (paidEntry slip now db.ledger.journal.fresh db.entries.fresh)
      (Ledger.entryOf (feeInput slip wallet escrow) db.ledger.journal.fresh) := by
    have hpaid : PaidBy db (paidEntry slip now db.ledger.journal.fresh db.entries.fresh)
        (Ledger.entryOf (feeInput slip wallet escrow) db.ledger.journal.fresh) :=
      ⟨rfl, c, wallet, escrow, hc, hw, he, by rw [hfee]; rfl⟩
    exact hpaid.extends hext (Table.Keeps.refl _ _) rfl rfl
  constructor
  · intro e he
    rcases (mem_entered _ _ _ _ _ e).1 he with he | rfl
    · obtain ⟨j, hj, _, hpaid⟩ := hold e he
      exact ⟨j, Table.find_insert_of_some _ _ (Ledger.id_entryOf _) hj,
        hpaid.extends hext (Table.Keeps.refl _ _) rfl rfl⟩
    · exact ⟨_, Table.find_insert_fresh _ _ (Ledger.id_entryOf _), hnew⟩
  · have hapart : ∀ e ∈ db.entries.rows, e.feeJournalId ≠ db.ledger.journal.fresh := by
      intro e he heq
      obtain ⟨j, hj, hne, _⟩ := hold e he
      exact hne (((Table.find_eq_some_iff _ _ _).1 hj).2.trans heq)
    intro e he e' he' heq
    rcases (mem_entered _ _ _ _ _ e).1 he with he | rfl
    · rcases (mem_entered _ _ _ _ _ e').1 he' with he' | rfl
      · exact h.own e he e' he' heq
      · exact absurd heq (hapart e he)
    · rcases (mem_entered _ _ _ _ _ e').1 he' with he' | rfl
      · exact absurd heq.symm (hapart e' he')
      · rfl

/-- A used key is replayed: the new entry names a journal entry that has an owner. -/
theorem submit_replays {tick : Tick} (hcl : Claimed db) (hnot : ¬ FreshKey tick (.submitTx slip) db) :
    ∃ res db', submitTx tick.now slip db = .ok (res, db') ∧ ¬ Paid db' := by
  simp only [FreshKey, not_or] at hnot
  obtain ⟨hw, he, hentered, hkey⟩ := hnot
  obtain ⟨wallet, hw⟩ := Option.ne_none_iff_exists'.1 hw
  obtain ⟨escrow, he⟩ := Option.ne_none_iff_exists'.1 he
  obtain ⟨j, hj⟩ := Option.ne_none_iff_exists'.1 hkey
  obtain ⟨hjmem, hjkey⟩ := Table.findFirst_eq_some _ hj
  have hpost : Ledger.post (feeInput slip wallet escrow) db.ledger = .ok (j.id, db.ledger) :=
    Ledger.post_replay (feeInput_valid slip wallet escrow) hj
  refine ⟨_, _, (submitTx_ok_iff tick.now slip db _ _).2
    ⟨wallet, escrow, j.id, db.ledger, hw, he, hpost, hentered, rfl, rfl⟩, ?_⟩
  intro hpaid
  obtain ⟨e, hmem, hfee⟩ := hcl j hjmem _ hjkey
  have heq := hpaid.own e ((mem_entered _ _ _ _ _ e).2 (Or.inl hmem))
    (paidEntry slip tick.now j.id db.entries.fresh) ((mem_entered _ _ _ _ _ _).2 (Or.inr rfl)) hfee
  exact db.entries.fresh_ne hmem (congrArg Entry.id heq)

theorem Claimed.submit {res : SubmitSlipResult} (h : Claimed db)
    (hok : submitTx now slip db = .ok (res, db')) : Claimed db' := by
  obtain ⟨wallet, escrow, journalId, l, _, _, hpost, _, rfl, _⟩ :=
    (submitTx_ok_iff now slip db db' res).1 hok
  have hold : ∀ j ∈ db.ledger.journal.rows, ∀ key, j.idempotencyKey = entryKey key →
      ∃ e ∈ (entered db now slip journalId l).entries.rows, e.feeJournalId = j.id := by
    intro j hj key hkey
    obtain ⟨e, he, hfee⟩ := h j hj key hkey
    exact ⟨e, (mem_entered _ _ _ _ _ e).2 (Or.inl he), hfee⟩
  intro j hj key hkey
  obtain ⟨_, ⟨_, _, _, rfl⟩ | ⟨_, rfl, rfl, _, _⟩⟩ := Ledger.post_ok_cases hpost
  · exact hold j hj key hkey
  · rcases (Ledger.mem_posted_journal _ _ j).1 hj with hj | rfl
    · exact hold j hj key hkey
    · exact ⟨_, (mem_entered _ _ _ _ _ _).2 (Or.inr rfl), rfl⟩

end Submission

section Publication
variable {db db' : Db} (accounts : Table LedgerAccount) (contestId : ℕ) (currency : String)

/-- The accounts after a publication: the contest's old escrow is cut off from it. -/
def republished : Table LedgerAccount :=
  (disconnect accounts contestId).insert (escrowAccount contestId currency)
    (id_escrowAccount contestId currency)

theorem ofUser_republished (userId : ℕ) :
    (ofUser (republished accounts contestId currency) userId .userAvailable "NGN").map (·.id) =
      (ofUser accounts userId .userAvailable "NGN").map (·.id) := by
  have hinsert : ofUser (republished accounts contestId currency) userId .userAvailable "NGN" =
      ofUser (disconnect accounts contestId) userId .userAvailable "NGN" :=
    Table.findFirst_insert _ _ _ (by simp [escrowAccount])
  have hsame : Table.Same (fun a => (a.id, a.userId, a.type, a.currency)) accounts
      (disconnect accounts contestId) :=
    Table.same_updateWhere (by intro r; rfl) (fun _ _ _ => rfl)
  have hfind := hsame.findFirst
    (fun a => a.userId = some userId ∧ a.type = .userAvailable ∧ a.currency = "NGN") (by
      rintro r r' hr
      simp only [Prod.mk.injEq] at hr
      rw [hr.2.1, hr.2.2.1, hr.2.2.2])
  rw [hinsert]
  have hid := congrArg (Option.map Prod.fst) hfind
  rwa [Option.map_map, Option.map_map] at hid

theorem ofContest_republished {k : ℕ} (hk : k ≠ contestId) :
    (ofContest (republished accounts contestId currency) k).map (·.id) =
      (ofContest accounts k).map (·.id) := by
  have hinsert : ofContest (republished accounts contestId currency) k =
      ofContest (disconnect accounts contestId) k :=
    Table.findFirst_insert _ _ _ (by simp [escrowAccount, hk.symm])
  have hsame : Table.Same (fun a => (a.id, decide (a.contestId = some k))) accounts
      (disconnect accounts contestId) := by
    refine Table.same_updateWhere (by intro r; rfl) (fun a _ ha => ?_)
    have hne : some contestId ≠ some k := fun h => hk (Option.some.inj h).symm
    simp [ha, hk.symm]
  have hfind := hsame.findFirst (fun a => a.contestId = some k) (by
    rintro r r' hr
    simp only [Prod.mk.injEq, decide_eq_decide] at hr
    exact hr.2)
  rw [hinsert]
  have hid := congrArg (Option.map Prod.fst) hfind
  rwa [Option.map_map, Option.map_map] at hid

/-- The escrow found after a publication is a new account. -/
theorem ofContest_republished_self {escrow escrow' : LedgerAccount}
    (h : ofContest accounts contestId = some escrow)
    (h' : ofContest (republished accounts contestId currency) contestId = some escrow') :
    escrow'.id ≠ escrow.id := by
  obtain ⟨hmem, _⟩ := ofContest_some h
  obtain ⟨hmem', hcontest'⟩ := ofContest_some h'
  have hold : ∀ a ∈ (disconnect accounts contestId).rows, a.contestId ≠ some contestId := by
    intro a ha
    obtain ⟨b, _, rfl⟩ := (Table.mem_updateWhere _ _ _ (by intro r; rfl) a).1 ha
    by_cases hb : b.contestId = some contestId <;> simp [hb]
  obtain ⟨a, ha, hid⟩ : ∃ a ∈ (disconnect accounts contestId).rows, a.id = escrow.id := by
    refine ⟨_, (Table.mem_updateWhere _ _ _ (by intro r; rfl) _).2 ⟨escrow, hmem, rfl⟩, ?_⟩
    split_ifs
    rfl
  rcases (Table.mem_insert _ _ (id_escrowAccount contestId currency) escrow').1 hmem' with
    hin | rfl
  · exact absurd hcontest' (hold escrow' hin)
  · intro heq
    exact (disconnect accounts contestId).fresh_ne ha (hid.trans heq.symm)

theorem paid_publish_iff {now : DateTime} {contest : Contest} {lockAt : DateTime} {r : PUnit × Db}
    (h : Paid db) (hok : publishTx now contest lockAt db = .ok r) :
    Paid r.2 ↔ ∀ e ∈ db.entries.rows, e.contestId ≠ contest.id := by
  obtain ⟨_, hr⟩ := (publishTx_ok_iff now contest lockAt db r).1 hok
  constructor
  · intro h' e he heq
    obtain ⟨j, hj, _, c, wallet, escrow, _, _, hescrow, hlines⟩ := h.paid e he
    rw [hr] at h'
    obtain ⟨j', hj', _, c', wallet', escrow', _, _, hescrow', hlines'⟩ := h'.paid e he
    have hjj : j' = j := Option.some.inj (hj'.symm.trans hj)
    rw [hjj, hlines] at hlines'
    simp only [List.cons.injEq, JournalLine.mk.injEq, and_true] at hlines'
    rw [heq] at hescrow hescrow'
    exact ofContest_republished_self _ _ _ hescrow hescrow' hlines'.2.1.symm
  · intro hno
    have hfees : Table.Keeps Contest.entryFeeMinor db.contests r.2.contests := by
      rw [hr]
      exact keeps_update (by intro c; rfl) (by intro c; rfl)
    constructor
    · intro e he
      have hmem : e ∈ db.entries.rows := by rwa [hr] at he
      obtain ⟨j, hj, hpaid⟩ := h.paid e hmem
      refine ⟨j, by rwa [hr], hpaid.transfer hfees rfl rfl ?_ ?_⟩
      · rw [hr]
        exact ofUser_republished _ _ _ _
      · rw [hr]
        exact ofContest_republished _ _ _ (hno e hmem)
    · intro e he e' he'
      rw [hr] at he he'
      exact h.own e he e' he'

end Publication

section Runs
variable (drawHash : ℕ → ℕ → String)

/-- One step keeps every entry paid for exactly when its key is fresh and its
publication hits no entries. -/
theorem step_paid_iff (tick : Tick) (t : Task) (db : Db) (hcl : Claimed db) (hk : KnowsFee db t)
    (h : Paid db) : Paid (step drawHash tick t db).1 ↔ FreshKey tick t db := by
  by_cases hsubmit : ∃ slip, t = .submitTx slip
  · obtain ⟨slip, rfl⟩ := hsubmit
    rw [step_of_action drawHash (submitTx tick.now slip) rfl rfl]
    constructor
    · intro h'
      by_contra hnot
      obtain ⟨res, db', hok, hbroken⟩ := submit_replays hcl hnot
      exact hbroken (commit_of_ok hok ▸ h')
    · intro hfresh
      rcases commit_cases (submitTx tick.now slip) db with ⟨res, db', hok, hc⟩ | ⟨_, _, hc⟩
      · obtain ⟨wallet, escrow, _, _, hw, he, _, hentered, _, _⟩ :=
          (submitTx_ok_iff tick.now slip db db' res).1 hok
        rw [hc]
        rcases hfresh with hnone | hnone | hin | hkey
        · exact absurd (hw.symm.trans hnone) (Option.some_ne_none wallet)
        · exact absurd (he.symm.trans hnone) (Option.some_ne_none escrow)
        · exact absurd hin hentered
        · exact h.submit hk hkey hok
      · rwa [hc]
  · by_cases hpublish : ∃ contest lockAt, t = .publishTx contest lockAt
    · obtain ⟨contest, lockAt, rfl⟩ := hpublish
      rw [step_of_action drawHash (publishTx tick.now contest lockAt) rfl rfl]
      rcases commit_cases (publishTx tick.now contest lockAt) db with
        ⟨u, db', hok, hc⟩ | ⟨e, herr, hc⟩
      · rw [hc]
        exact paid_publish_iff h hok
      · rw [hc]
        refine iff_of_true h (fun e he heq => ?_)
        obtain ⟨_, _, _, c, _, _, hfind, _⟩ := h.paid e he
        have hok := (publishTx_ok_iff tick.now contest lockAt db ⟨⟨⟩, _⟩).2
          ⟨by rw [← heq, hfind]; exact Option.some_ne_none c, rfl⟩
        rw [herr] at hok
        cases hok
    · have hframe := frame_notFee drawHash tick t db (fun slip ht => hsubmit ⟨slip, ht⟩)
        (fun contest lockAt ht => hpublish ⟨contest, lockAt, ht⟩)
      refine iff_of_true (h.frame hframe) ?_
      cases t with
      | submitTx slip => exact absurd ⟨slip, rfl⟩ hsubmit
      | publishTx contest lockAt => exact absurd ⟨contest, lockAt, rfl⟩ hpublish
      | _ => trivial

theorem fees_step (tick : Tick) (t : Task) (db : Db) :
    Table.Keeps Contest.entryFeeMinor db.contests (step drawHash tick t db).1.contests := by
  obtain ⟨slip, res, db', rfl, hok, hs⟩ | ⟨contest, lockAt, db', rfl, hok, hs⟩ | hframe :=
    step_writes drawHash tick t db
  · obtain ⟨_, _, _, _, _, _, _, _, rfl, _⟩ := (submitTx_ok_iff tick.now slip db db' res).1 hok
    rw [hs]
    exact Table.Keeps.refl _ _
  · obtain ⟨_, hr⟩ := (publishTx_ok_iff tick.now contest lockAt db (⟨⟩, db')).1 hok
    rw [hs, show db' = _ from hr]
    exact keeps_update (by intro c; rfl) (by intro c; rfl)
  · exact hframe.contests

theorem claimed_step {tick : Tick} {t : Task} {db : Db} (h : Claimed db) :
    Claimed (step drawHash tick t db).1 := by
  obtain ⟨slip, res, db', rfl, hok, hs⟩ | ⟨contest, lockAt, db', rfl, hok, hs⟩ | hframe :=
    step_writes drawHash tick t db
  · rw [hs]
    exact h.submit hok
  · obtain ⟨_, hr⟩ := (publishTx_ok_iff tick.now contest lockAt db (⟨⟩, db')).1 hok
    rw [hs, show db' = _ from hr]
    exact h
  · exact h.frame hframe

theorem KnowsFee.of_keeps {db db' : Db} {t : Task} (h : KnowsFee db t)
    (hc : Table.Keeps Contest.entryFeeMinor db.contests db'.contests) : KnowsFee db' t := by
  cases t with
  | submitTx slip =>
    obtain ⟨c, hfind, hfee⟩ := h
    obtain ⟨c', hfind', hfee'⟩ := hc.find hfind
    exact ⟨c', hfind', hfee'.trans hfee⟩
  | _ => trivial

theorem claimed_inductive :
    (protocol drawHash).Inductive FreshKey Claimed KnowsFee where
  init _ _ _ := trivial
  shared _ _ _ h _ _ := claimed_step drawHash h
  cont tick t db t' _ _ _ hnext := by
    rcases step_next drawHash hnext with ⟨call, rfl, hdb, hprep⟩ | ⟨job, job', rfl, rfl⟩ |
      ⟨job, rfl, rfl⟩
    · refine KnowsFee.of_keeps ?_ (fees_step drawHash tick (.ready call) db)
      cases hprep with
      | submitTx slip userId dto hread =>
        obtain ⟨_, _, hfind, _, _, _⟩ := submitRead_ok hread
        exact ⟨slip.contest, hfind, rfl⟩
      | _ => trivial
    · trivial
    · trivial
  stable tick t db _ _ _ _ hu := hu.of_keeps (fees_step drawHash tick t db)

/-- From a platform without entries and journal, in every run every reachable state has
all its entries paid for exactly when every submission that reaches its posting uses
a fresh key and no publication runs over a contest with entries. -/
theorem paid_throughout_iff (db : Db) (hentries : db.entries.rows = [])
    (hjournal : db.ledger.journal.rows = []) (as : List (Act Call Tick)) :
    (protocol drawHash).Throughout Paid ⟨db, []⟩ as ↔
      (protocol drawHash).Along FreshKey ⟨db, []⟩ as := by
  have hclaimed : Claimed db := by
    intro j hj
    rw [hjournal] at hj
    cases hj
  have hpaid : Paid db := by
    constructor
    · intro e he
      rw [hentries] at he
      cases he
    · intro e he
      rw [hentries] at he
      cases he
  refine (claimed_inductive drawHash).throughout_iff ?_ ⟨hclaimed, by simp⟩ hpaid as
  exact fun tick t db hcl hk hq => step_paid_iff drawHash tick t db hcl hk hq

end Runs

section Reuse

/-- A user enters the first contest and then the second one under the same key. -/
def keyReused : List (Act Call Tick) :=
  [.start (.submitSlip 7 (sampleSlip 1 "3f6c")), .resume 0 ⟨10, false, false⟩,
    .resume 0 ⟨11, false, false⟩, .start (.submitSlip 7 (sampleSlip 2 "3f6c")),
    .resume 0 ⟨12, false, false⟩, .resume 0 ⟨13, false, false⟩]

theorem paid_throughout_iff_reused :
    (protocol (fun _ _ => "")).Throughout Paid ⟨openDb, []⟩ keyReused ↔
      (protocol (fun _ _ => "")).Along FreshKey ⟨openDb, []⟩ keyReused :=
  paid_throughout_iff _ openDb rfl rfl keyReused

/-- The second entry is not paid for: it names the fee journal of the first. -/
theorem reused_key_enters_free :
    ¬ (protocol (fun _ _ => "")).Throughout Paid ⟨openDb, []⟩ keyReused := by
  intro h
  have hend := ((protocol (fun _ _ => "")).throughout_iff_prefixes Paid _ keyReused).1 h keyReused
    List.prefix_rfl
  have hshared : ((protocol (fun _ _ => "")).run ⟨openDb, []⟩ keyReused).shared.entries.rows.map
      (fun e => (e.contestId, e.feeJournalId)) = [(1, 0), (2, 0)] := by decide +kernel
  obtain ⟨e₁, e₂, rest, hrows⟩ : ∃ e₁ e₂ rest,
      ((protocol (fun _ _ => "")).run ⟨openDb, []⟩ keyReused).shared.entries.rows =
        e₁ :: e₂ :: rest := by
    obtain ⟨e₁, rest, hr, _, hrest⟩ := List.map_eq_cons_iff.1 hshared
    obtain ⟨e₂, rest', hr', _, _⟩ := List.map_eq_cons_iff.1 hrest
    exact ⟨e₁, e₂, rest', by rw [hr, hr']⟩
  rw [hrows] at hshared
  simp only [List.map_cons, List.cons.injEq, Prod.mk.injEq] at hshared
  obtain ⟨⟨h₁, hf₁⟩, ⟨h₂, hf₂⟩, _⟩ := hshared
  have hsame := hend.own e₁ (by simp [hrows]) e₂ (by simp [hrows]) (hf₁.trans hf₂.symm)
  rw [hsame, h₂] at h₁
  cases h₁

end Reuse

end FeePayment
end FootballIQ
