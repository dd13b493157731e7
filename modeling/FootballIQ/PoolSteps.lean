import FootballIQ.ContestTerms
import FootballIQ.FeePayment
import FootballIQ.FinalRanks

/-!
# What other calls leave of a contest's pool

The money in the escrow of a contest, the statuses and prizes of its entries and the
templates: apart from the cancellations and settlements of the contest itself, no call
that starts once the contest is locked touches them.
-/

namespace FootballIQ
namespace PrizePool

open Transaction Relational WalletAccounts Contests Settlement Ranking Platform

/-- The ids of the active ones among entries given by id, status and prize. -/
def activeIn (entries : List (ℕ × EntryStatus × ℤ)) : List ℕ :=
  (entries.filter (fun e => e.2.1 = .active)).map Prod.fst

/-- A contest when it is locked, with the id, the status and the prize of each of its entries:
the escrow holds the fee of every active one, and the template pays the first position. -/
structure Pool where
  contest : Contest
  escrow : LedgerAccount
  template : List PayoutRow
  entries : List (ℕ × EntryStatus × ℤ)
  locked : contest.status = .locked
  escrow_type : escrow.type = .contestEscrow
  unpaid : ∀ e ∈ entries, e.2.1 ≠ .settled ∧ e.2.2 = 0
  entered : activeIn entries ≠ []
  held : escrow.balanceMinor = contest.entryFeeMinor * (activeIn entries).length
  pays_first : ∃ share, 0 < share ∧ (perPosition template)[0]? = some (some share)

/-- Apart from locks and scoring, the task writes to another contest or to none. -/
def Pool.Elsewhere (pool : Pool) : Task → Prop
  | .submitTx slip => slip.contest.id ≠ pool.contest.id
  | .publishTx contest _ => contest.id ≠ pool.contest.id
  | .cancelTx snap _ => snap.contest.id ≠ pool.contest.id
  | .distributeTx snap => snap.contest.id ≠ pool.contest.id
  | _ => True

section Reads
variable {db db' : Db}

/-- The id is that of an entry of the contest. -/
def Belongs (db : Db) (contestId id : ℕ) : Prop :=
  ∃ x ∈ db.entries.rows, x.id = id ∧ x.contestId = contestId

/-- The id is that of an account of no other contest. -/
def Serves (db : Db) (contestId id : ℕ) : Prop :=
  ∃ a ∈ db.ledger.accounts.rows, a.id = id ∧ ∀ k, a.contestId = some k → k = contestId

/-- What a pending call has read of entries and escrows is still so. -/
def Truthful (db : Db) : Task → Prop
  | .cancelTx snap _ => (∀ a, snap.escrow = some a → Serves db snap.contest.id a.id) ∧
      ∀ e ∈ snap.entries, Belongs db snap.contest.id e.id
  | .distributeTx snap => ∀ q ∈ snap.ranked, Belongs db snap.contest.id q.entryId
  | _ => True

theorem belongs_of_same {watched : ℕ → Bool} {contestId id : ℕ} (h : Belongs db contestId id)
    (hs : Table.Same (feeColumns watched) db.entries db'.entries) : Belongs db' contestId id := by
  obtain ⟨x, hx, rfl, rfl⟩ := h
  exact later_entry hs hx

theorem serves_of_extends {P : JournalEntry → Prop} {contestId id : ℕ} (h : Serves db contestId id)
    (hx : Ledger.Extends P db.ledger db'.ledger) : Serves db' contestId id := by
  obtain ⟨a, ha, hid, honly⟩ := h
  obtain ⟨a', ha', howner⟩ := hx.accounts.mem_of ha
  refine ⟨a', ha', (Ledger.id_of_owner howner).trans hid, ?_⟩
  rwa [Ledger.contestId_of_owner howner]

/-- A publication cuts an account off from a contest at most. -/
theorem serves_published {contestId id k : ℕ} {currency : String} (h : Serves db contestId id)
    (hdb : db'.ledger.accounts = FeePayment.republished db.ledger.accounts k currency) :
    Serves db' contestId id := by
  obtain ⟨a, ha, hid, honly⟩ := h
  refine ⟨if a.contestId = some k then { a with contestId := none } else a, ?_, ?_, ?_⟩
  · rw [hdb]
    exact (Table.mem_insert _ _ (id_escrowAccount _ _) _).2
      (Or.inl ((Table.mem_updateWhere _ _ _ (by intro r; rfl) _).2 ⟨a, ha, rfl⟩))
  · split_ifs
    · exact hid
    · exact hid
  · split_ifs
    · rintro _ ⟨⟩
    · exact honly

theorem reads_step (drawHash : ℕ → ℕ → String) (tick : Tick) (t : Task) {contestId id : ℕ} :
    (Belongs db contestId id → Belongs (step drawHash tick t db).1 contestId id) ∧
      (Serves db contestId id → Serves (step drawHash tick t db).1 contestId id) := by
  rcases step_writes drawHash tick t db with ⟨slip, res, db', _, hsubmit, hs⟩ |
    ⟨contest, lockAt, db', _, hpublish, hs⟩ | hframe
  · rw [hs]
    obtain ⟨_, _, _, _, _, _, hpost, _, rfl, _⟩ :=
      (Entries.submitTx_ok_iff tick.now slip db db' res).1 hsubmit
    constructor
    · rintro ⟨x, hx, hid⟩
      exact ⟨x, (Entries.mem_entered _ _ _ _ _ _).2 (Or.inl hx), hid⟩
    · intro h
      exact serves_of_extends h (Ledger.extends_of_post hpost)
  · rw [hs]
    obtain ⟨_, hr⟩ := (publishTx_ok_iff tick.now contest lockAt db (⟨⟩, db')).1 hpublish
    constructor
    · rintro ⟨x, hx, hid⟩
      exact ⟨x, by rwa [show db' = _ from hr], hid⟩
    · intro h
      exact serves_published h (by rw [show db' = _ from hr]; rfl)
  · exact ⟨fun h => belongs_of_same h hframe.entries, fun h => serves_of_extends h hframe.ledger⟩

theorem truthful_step (drawHash : ℕ → ℕ → String) (tick : Tick) (t : Task) {u : Task}
    (h : Truthful db u) : Truthful (step drawHash tick t db).1 u := by
  cases u with
  | cancelTx snap reason =>
    exact ⟨fun a ha => (reads_step drawHash tick t).2 (h.1 a ha),
      fun e he => (reads_step drawHash tick t).1 (h.2 e he)⟩
  | distributeTx snap => exact fun q hq => (reads_step drawHash tick t).1 (h q hq)
  | _ => trivial

theorem belongs_of_active {contestId : ℕ} {e : Entry} (he : e ∈ activeEntries db contestId) :
    Belongs db contestId e.id := by
  obtain ⟨hmem, hcontest, _⟩ := mem_activeEntries.1 he
  exact ⟨e, hmem, rfl, hcontest⟩

theorem truthful_of_prepared {drawHash : ℕ → ℕ → String} {now : DateTime} {t : Task}
    (h : Prepared drawHash now db t) : Truthful db t := by
  cases h with
  | cancelTx snap reason contestId hread =>
    obtain ⟨_, rfl, _, hents, hesc, _⟩ := cancelRead_ok hread
    constructor
    · intro a ha
      obtain ⟨hmem, hcontest⟩ := ofContest_some (hesc.symm.trans ha)
      exact ⟨a, hmem, rfl, fun k hk => Option.some.inj (hk.symm.trans hcontest)⟩
    · intro e he
      exact belongs_of_active (hents ▸ he)
  | distributeTx snap contestId hread =>
    obtain ⟨_, rfl, _, hperm⟩ := distributeRead_some hread
    intro q hq
    obtain ⟨e, he, rfl⟩ := List.mem_map.1 (hperm.mem_iff.1 hq)
    exact belongs_of_active he
  | _ => trivial

/-- Whatever is in flight has read truly, in every run. -/
theorem inductive_truthful (drawHash : ℕ → ℕ → String) :
    (protocol drawHash).Inductive (fun _ _ _ => True) (fun _ => True) Truthful where
  init _ _ _ := trivial
  shared _ _ _ _ _ _ := trivial
  cont tick t db t' _ _ _ ht' := by
    rcases step_next drawHash ht' with ⟨call, rfl, hdb, hprep⟩ | ⟨_, _, _, rfl⟩ | ⟨_, _, rfl⟩
    · have hdb' : ((protocol drawHash).step tick (.ready call) db).1 = db := hdb
      rw [hdb']
      exact truthful_of_prepared hprep
    · trivial
    · trivial
  stable tick t _ _ _ _ _ hu := truthful_step drawHash tick t hu

end Reads

section Escrow
variable {pool : Pool} {db db' : Db}

/-- The account is the escrow of the contest. -/
structure HasEscrow (pool : Pool) (db : Db) (a : LedgerAccount) : Prop where
  found : ofContest db.ledger.accounts pool.contest.id = some a
  id_eq : a.id = pool.escrow.id
  type : a.type = .contestEscrow

/-- A journal entry without a line on the escrow. -/
def Off (pool : Pool) (j : JournalEntry) : Prop := ∀ line ∈ j.lines, line.accountId ≠ pool.escrow.id

variable {a : LedgerAccount}

theorem HasEscrow.id_ne (h : HasEscrow pool db a) {b : LedgerAccount}
    (hb : b ∈ db.ledger.accounts.rows) (hne : b.contestId ≠ some pool.contest.id) :
    b.id ≠ pool.escrow.id := by
  rw [← h.id_eq]
  exact Ledger.id_ne_ofContest h.found hb hne

theorem HasEscrow.wallet_ne (h : HasEscrow pool db a) {id : ℕ}
    (hw : Ledger.IsWallet db.ledger.accounts id) : id ≠ pool.escrow.id := by
  rw [← h.id_eq]
  exact Ledger.wallet_ne_ofContest h.found h.type hw

/-- Postings off the escrow leave it as it is. -/
theorem HasEscrow.extends (h : HasEscrow pool db a)
    (hx : Ledger.Extends (Off pool) db.ledger db'.ledger) : HasEscrow pool db' a := by
  obtain ⟨a', ha', _, hfind'⟩ := Ledger.ofContest_of_same hx.accounts h.found
  have hfind : db.ledger.accounts.find a.id = some a :=
    db.ledger.accounts.find_id (ofContest_some h.found).1
  rw [h.id_eq] at hfind hfind'
  rw [hx.untouched pool.escrow.id (fun j hj => hj), hfind, Option.some.injEq] at hfind'
  exact ⟨ha'.trans (congrArg some hfind'.symm), h.id_eq, h.type⟩

/-- So does the publication of another contest. -/
theorem ofContest_published {accounts : Table LedgerAccount} {contestId k : ℕ} {currency : String}
    (hk : k ≠ contestId) (h : ofContest accounts k = some a) :
    ofContest (FeePayment.republished accounts contestId currency) k = some a := by
  have hmap := FeePayment.ofContest_republished accounts contestId currency hk
  rw [h, Option.map_some, Option.map_eq_some_iff] at hmap
  obtain ⟨a', ha', hid⟩ := hmap
  obtain ⟨hmem', hcontest'⟩ := ofContest_some ha'
  rw [ha']
  rcases (Table.mem_insert _ _ (id_escrowAccount _ _) a').1 hmem' with hin | rfl
  · obtain ⟨b, hb, rfl⟩ := (Table.mem_updateWhere _ _ _ (by intro r; rfl) a').1 hin
    split_ifs at hid hcontest' ⊢ with hown
    rw [accounts.eq_of_id_eq hb (ofContest_some h).1 hid]
  · exact absurd (Option.some.inj hcontest').symm hk

/-- What a task elsewhere posts is off the escrow, if it is neither a submission nor a
publication. -/
theorem inFrame_off (h : HasEscrow pool db a) {t : Task} (hk : Truthful db t)
    (helse : pool.Elsewhere t) (hsubmit : ∀ slip, t ≠ .submitTx slip)
    (hpublish : ∀ contest lockAt, t ≠ .publishTx contest lockAt) :
    InFrame (Off pool) unwatched db t := by
  cases t with
  | submitTx slip => exact absurd rfl (hsubmit slip)
  | publishTx contest lockAt => exact absurd rfl (hpublish contest lockAt)
  | settle intent verification =>
    intro provider amountMinor channel clearing userAccount id hc hu line hline
    obtain ⟨hmem, _, _, hcontest, _⟩ := ofSystem_some hc
    simp only [Ledger.entryOf, Deposits.depositInput, List.mem_cons, List.not_mem_nil,
      or_false] at hline
    rcases hline with rfl | rfl
    · exact h.id_ne hmem (by simp [hcontest])
    · exact h.wallet_ne hu
  | cancelTx snap reason =>
    refine ⟨?_, fun _ _ _ _ _ => rfl⟩
    intro e _ escrow wallet id hescrow hw line hline
    simp only [Ledger.entryOf, refundInput, List.mem_cons, List.not_mem_nil, or_false] at hline
    rcases hline with rfl | rfl
    · obtain ⟨b, hb, hid, honly⟩ := hk.1 escrow hescrow
      rw [← hid]
      exact h.id_ne hb (fun heq => helse (honly _ heq).symm)
    · exact h.wallet_ne hw
  | distributeTx snap =>
    refine ⟨?_, fun _ _ _ => rfl⟩
    intro escrow platform commission winners id hescrow hplatform hw line hline
    obtain ⟨hemem, hecontest⟩ := ofContest_some hescrow
    obtain ⟨hpmem, _, _, hpcontest, _⟩ := ofSystem_some hplatform
    rcases List.mem_cons.1 hline with rfl | hline
    · exact h.id_ne hemem (fun heq => helse (Option.some.inj (hecontest.symm.trans heq)))
    · rcases List.mem_cons.1 hline with rfl | hline
      · exact h.id_ne hpmem (by simp [hpcontest])
      · obtain ⟨w, hwin, rfl⟩ := List.mem_map.1 hline
        exact h.wallet_ne (hw w (List.mem_filter.1 hwin).1)
  | ready _ | finalizeTx _ _ | scoring _ => trivial

/-- No step elsewhere touches the escrow. -/
theorem escrow_step (drawHash : ℕ → ℕ → String) (tick : Tick) {t : Task}
    (h : HasEscrow pool db a) (hk : Truthful db t) (helse : pool.Elsewhere t) :
    HasEscrow pool (step drawHash tick t db).1 a := by
  rcases step_cases drawHash tick t db with ⟨next, db', hok, hs⟩ | ⟨_, hs⟩
  · rw [hs]
    cases t with
    | submitTx slip =>
      obtain ⟨_, res, hsubmit⟩ := action_ok drawHash hok
      obtain ⟨wallet, escrow, journalId, l, hw, he, hpost, _, rfl, _⟩ :=
        (Entries.submitTx_ok_iff tick.now slip db db' res).1 hsubmit
      refine h.extends (Ledger.extends_post hpost (fun id line hline => ?_))
      simp only [Ledger.entryOf, Entries.feeInput, List.mem_cons, List.not_mem_nil,
        or_false] at hline
      rcases hline with rfl | rfl
      · exact h.wallet_ne (Ledger.isWallet_ofUser hw)
      · obtain ⟨hmem, hcontest⟩ := ofContest_some he
        exact h.id_ne hmem (fun heq => helse (Option.some.inj (hcontest.symm.trans heq)))
    | publishTx contest lockAt =>
      obtain ⟨_, u, hpublish⟩ := action_ok drawHash hok
      obtain ⟨_, hr⟩ := (publishTx_ok_iff tick.now contest lockAt db (u, db')).1 hpublish
      rw [show db' = _ from hr]
      exact ⟨ofContest_published (Ne.symm helse) h.found, h.id_eq, h.type⟩
    | ready _ | settle _ _ | cancelTx _ _ | finalizeTx _ _ | scoring _ | distributeTx _ =>
      exact h.extends (frame_action drawHash hok
        (inFrame_off h hk helse (by rintro _ ⟨⟩) (by rintro _ _ ⟨⟩))).ledger
  · rwa [hs]

end Escrow

section Entries
variable {k : ℕ} {t t' : Table Entry}

/-- The ids, statuses and prizes of the entries of a contest. -/
def columnsIn (t : Table Entry) (k : ℕ) : List (ℕ × EntryStatus × ℤ) :=
  (t.findMany (fun e => e.contestId = k)).map (fun e => (e.id, e.status, e.prizeMinor))

/-- The columns of an entry that the pool of contest `k` depends on; of the entries of other
contests only where they belong. -/
def poolColumns (k : ℕ) (e : Entry) : ℕ × ℕ × Option (EntryStatus × ℤ) :=
  (e.id, e.contestId, if e.contestId = k then some (e.status, e.prizeMinor) else none)

theorem columnsIn_of_same (h : Table.Same (poolColumns k) t t') :
    columnsIn t' k = columnsIn t k := by
  have hsame := h.findMany (fun e => e.contestId = k) (by
    intro e e' heq
    simp only [poolColumns, Prod.mk.injEq] at heq
    rw [heq.2.1])
  have hread : ∀ u : Table Entry, columnsIn u k = ((u.findMany (fun e => e.contestId = k)).map
      (poolColumns k)).map (fun x => (x.1, x.2.2.getD (.active, 0))) := by
    intro u
    rw [List.map_map]
    apply List.map_congr_left
    intro e he
    have hcontest := ((u.mem_findMany _ e).1 he).2
    simp [poolColumns, hcontest]
  rw [hread, hread, hsame]

theorem poolColumns_elsewhere {e e' : Entry} (h : e.contestId ≠ k) (hid : e'.id = e.id)
    (hcontest : e'.contestId = e.contestId) : poolColumns k e' = poolColumns k e := by
  simp [poolColumns, hid, hcontest, h]

/-- An id that belongs elsewhere still does. -/
theorem elsewhere_of_same (h : Table.Same (poolColumns k) t t') {id : ℕ}
    (hother : ∀ x ∈ t.rows, x.id = id → x.contestId ≠ k) :
    ∀ x ∈ t'.rows, x.id = id → x.contestId ≠ k := by
  intro x' hx' hid
  obtain ⟨x, hx, hcols⟩ := h.mem hx'
  simp only [poolColumns, Prod.mk.injEq] at hcols
  rw [← hcols.2.1]
  exact hother x hx (hcols.1.trans hid)

theorem same_refunds {snap : CancelSnapshot} {reason : String} (es : List Entry) {db : Db}
    {r : PUnit × Db} (h : (forM es (refundEntry snap reason) : Tx Failure Db PUnit) db = .ok r)
    (hother : ∀ e ∈ es, ∀ x ∈ db.entries.rows, x.id = e.id → x.contestId ≠ k) :
    Table.Same (poolColumns k) db.entries r.2.entries := by
  induction es generalizing db with
  | nil =>
    rw [forM_nil_ok_iff] at h
    rw [h]
    exact Table.Same.refl _ _
  | cons e es ih =>
    obtain ⟨db₁, hone, hrest⟩ := (forM_cons_ok_iff _ _ _ _ _).1 h
    obtain ⟨_, _, _, _, _, _, _, hdb⟩ := refundEntry_ok hone
    have hfirst : Table.Same (poolColumns k) db.entries db₁.entries := by
      rw [show db₁ = _ from hdb]
      exact Table.same_update (by intro r; rfl) (fun x hx hid =>
        poolColumns_elsewhere (hother e List.mem_cons_self x hx hid) rfl rfl)
    exact hfirst.trans (ih hrest (fun e' he' =>
      elsewhere_of_same hfirst (hother e' (List.mem_cons_of_mem _ he'))))

theorem same_award {lines : List WinnerLine}
    (hother : ∀ line ∈ lines, ∀ x ∈ t.rows, x.id = line.winner.entryId → x.contestId ≠ k) :
    Table.Same (poolColumns k) t (awardPrizes t lines) := by
  induction lines generalizing t with
  | nil => exact Table.Same.refl _ t
  | cons line lines ih =>
    have hfirst : Table.Same (poolColumns k) t (t.update line.winner.entryId
        (fun e => { e with prizeMinor := line.prizeMinor }) (fun _ => rfl)) :=
      Table.same_update (by intro r; rfl) (fun x hx hid =>
        poolColumns_elsewhere (hother line List.mem_cons_self x hx hid) rfl rfl)
    exact hfirst.trans (ih (fun line' hline' =>
      elsewhere_of_same hfirst (hother line' (List.mem_cons_of_mem _ hline'))))

theorem same_settle (batches : List (List (ℕ × ℕ)))
    (hother : ∀ rows ∈ batches, ∀ id, (rows.lookup id).isSome →
      ∀ x ∈ t.rows, x.id = id → x.contestId ≠ k) :
    Table.Same (poolColumns k) t (batches.foldl settleEntries t) := by
  induction batches generalizing t with
  | nil => exact Table.Same.refl _ t
  | cons rows batches ih =>
    have hfirst : Table.Same (poolColumns k) t (settleEntries t rows) :=
      Table.same_updateWhere (by intro r; rfl) (fun x hx hin =>
        poolColumns_elsewhere (hother rows List.mem_cons_self x.id hin x hx rfl) rfl rfl)
    exact hfirst.trans (ih (fun rows' hrows' id hin =>
      elsewhere_of_same hfirst (hother rows' (List.mem_cons_of_mem _ hrows') id hin)))

end Entries

section Sparing
variable {k : ℕ} {db db' : Db} {now : DateTime}

/-- The statuses of a contest from its lock on, unless it is cancelled. -/
def running : List ContestStatus := [.locked, .scoring, .scored, .settled]

/-- The templates are as they were, and so are the statuses and prizes of the entries of contest
`k`; from its lock on it neither leaves these statuses nor is settled. -/
structure Spares (k : ℕ) (db db' : Db) : Prop where
  templates : db'.payoutTemplates = db.payoutTemplates
  columns : columnsIn db'.entries k = columnsIn db.entries k
  status : ∀ c, db.contests.find k = some c → c.status ∈ running →
    ∃ c', db'.contests.find k = some c' ∧ c'.status ∈ running ∧
      (c'.status = .settled ↔ c.status = .settled)

theorem spares_of_find (ht : db'.payoutTemplates = db.payoutTemplates)
    (he : columnsIn db'.entries k = columnsIn db.entries k)
    (hc : ∀ c, db.contests.find k = some c → c.status ∈ running →
      db'.contests.find k = some c) : Spares k db db' :=
  ⟨ht, he, fun c hfind hrun => ⟨c, hc c hfind hrun, hrun, Iff.rfl⟩⟩

theorem spares_of_eq (ht : db'.payoutTemplates = db.payoutTemplates)
    (he : db'.entries = db.entries) (hc : db'.contests = db.contests) : Spares k db db' :=
  spares_of_find ht (by rw [he]) (fun c hfind _ => by rwa [hc])

theorem Spares.refl (db : Db) : Spares k db db := spares_of_eq rfl rfl rfl

theorem spares_create {adminId id : ℕ} {dto : CreateContestRequest}
    (h : create now adminId dto db = .ok (id, db')) : Spares k db db' := by
  obtain ⟨_, _, _, _, rfl⟩ := create_ok h
  exact spares_of_find rfl rfl
    (fun c hfind _ => Table.find_insert_of_some _ _ (by intro k; rfl) hfind)

theorem spares_lock {contestId : ℕ} {r : PUnit × Db} (h : lock now contestId db = .ok r) :
    Spares k db r.2 := by
  rcases lock_cases now contestId db with ⟨c₁, hc₁, hpublished, hlock⟩ | ⟨_, hlock⟩
  · rw [hlock, Except.ok.injEq] at h
    subst h
    refine spares_of_find rfl rfl (fun c hfind hrun => ?_)
    have hne : k ≠ contestId := by
      rintro rfl
      rw [Option.some.inj (hfind.symm.trans hc₁), hpublished] at hrun
      revert hrun
      decide
    exact (Table.find_update_of_ne _ _ (by intro c; rfl) hne).trans hfind
  · rw [hlock, Except.ok.injEq] at h
    exact h ▸ Spares.refl db

theorem spares_publishTx {contest : Contest} {lockAt : DateTime} {r : PUnit × Db}
    (h : publishTx now contest lockAt db = .ok r) (hne : contest.id ≠ k) : Spares k db r.2 := by
  obtain ⟨_, hr⟩ := (publishTx_ok_iff now contest lockAt db r).1 h
  rw [hr]
  exact spares_of_find rfl rfl
    (fun c hfind _ => (Table.find_update_of_ne _ _ (by intro c; rfl) hne.symm).trans hfind)

theorem spares_submitTx {slip : Entries.PreparedSlip} {res : Entries.SubmitSlipResult}
    (h : Entries.submitTx now slip db = .ok (res, db')) (hne : slip.contest.id ≠ k) :
    Spares k db db' := by
  obtain ⟨_, _, journalId, _, _, _, _, _, rfl, _⟩ := (Entries.submitTx_ok_iff _ _ _ _ _).1 h
  have hother : (Entries.paidEntry slip now journalId db.entries.fresh).contestId ≠ k := hne
  refine spares_of_find rfl ?_ (fun c hfind _ => hfind)
  simp [columnsIn, Entries.entered, Table.findMany, hother]

/-- An id of an entry of another contest is no id of this one's. -/
theorem elsewhere_of_belongs {id contestId : ℕ} (h : Belongs db contestId id)
    (hne : contestId ≠ k) : ∀ x ∈ db.entries.rows, x.id = id → x.contestId ≠ k := by
  obtain ⟨y, hy, hyid, hycontest⟩ := h
  intro x hx hid
  rw [db.entries.eq_of_id_eq hx hy (hid.trans hyid.symm), hycontest]
  exact hne

theorem spares_cancelTx {snap : CancelSnapshot} {reason : String} {r : PUnit × Db}
    (h : cancelTx now snap reason db = .ok r) (hne : snap.contest.id ≠ k)
    (hents : ∀ e ∈ snap.entries, Belongs db snap.contest.id e.id) : Spares k db r.2 := by
  obtain ⟨db₁, hloop, _, hr⟩ := cancelTx_ok h
  obtain ⟨_, _, _, hdb⟩ := refunds_writes snap.entries hloop
  have hsame := same_refunds (k := k) snap.entries hloop
    (fun e he => elsewhere_of_belongs (hents e he) hne)
  rw [hr]
  refine spares_of_find ?_ (columnsIn_of_same hsame) (fun c hfind _ => ?_)
  · rw [show db₁ = _ from hdb]
  · rw [show db₁ = _ from hdb]
    exact (Table.find_update_of_ne _ _ (by intro c; rfl) hne.symm).trans hfind

theorem spares_scoreContestMatch {contestId contestMatchId : ℕ} {result : Scoring.FinalResult}
    {r : PUnit × Db} (h : Scoring.scoreContestMatch now contestId contestMatchId result db = .ok r) :
    Spares k db r.2 := by
  obtain ⟨_, _, _, _, hr⟩ :=
    (Scoring.scoreContestMatch_ok_iff now contestId contestMatchId result db r).1 h
  rw [hr]
  refine ⟨rfl, ?_, fun c hc hrun => ?_⟩
  · exact columnsIn_of_same (Table.same_updateWhere (by intro r; rfl) (fun _ _ _ => rfl))
  · refine ⟨_, (Table.find_updateWhere _ _ _ Scoring.id_scoring _).trans
      (by rw [hc, Option.map_some]), ?_⟩
    split_ifs with hlocked
    · exact ⟨by simp [running], by simp [hlocked.2]⟩
    · exact ⟨hrun, Iff.rfl⟩

theorem spares_markScored {contestId : ℕ} {r : PUnit × Db}
    (h : Scoring.markScored now contestId db = .ok r) : Spares k db r.2 := by
  rw [← commit_of_ok (show Scoring.markScored now contestId db = .ok (r.1, r.2) from h)]
  rcases Scoring.markScored_cases now contestId db with ⟨c₁, hc₁, hscoring, hdone⟩ | ⟨_, hdone⟩
  · rw [hdone]
    refine ⟨rfl, rfl, fun c hc hrun => ?_⟩
    by_cases hk : k = contestId
    · subst hk
      rw [Option.some.inj (hc₁.symm.trans hc)] at hscoring
      refine ⟨_, (Table.find_update _ _ (by intro c; rfl) _ _).trans
        (by rw [hc, Option.map_some, if_pos rfl]), by simp [running], ?_⟩
      simp [hscoring]
    · exact ⟨c, (Table.find_update_of_ne _ _ (by intro c; rfl) hk).trans hc, hrun, Iff.rfl⟩
  · rw [hdone]
    exact Spares.refl db

theorem spares_job {tick : Tick} {job : ScoringJob} {next : Option Task}
    (h : job.action tick db = .ok (next, db')) : Spares k db db' := by
  have hjob := ScoringJob.action_ok h
  cases hstage : job.stage with
  | readMatches | count | countOther =>
    rw [hstage] at hjob
    exact hjob.1 ▸ Spares.refl db'
  | scoreMatch cm rest =>
    rw [hstage] at hjob
    exact spares_scoreContestMatch hjob.1
  | complete cm rest =>
    rw [hstage] at hjob
    exact spares_markScored hjob.1

theorem templates_distributed {snap : SettlementSnapshot} {r : PUnit × Db}
    (h : distributeTx now snap db = .ok r) : r.2.payoutTemplates = db.payoutTemplates := by
  obtain ⟨_, _, db₁, _, _, hpay, _, hr⟩ := (distributeTx_ok_iff now snap db r).1 h
  rw [hr]
  rcases hpay with ⟨_, _, hpay⟩ | ⟨_, rfl⟩
  · obtain ⟨_, _, _, _, _, _, _, _, _, hdb⟩ := payOut_ok hpay
    rw [show db₁ = _ from hdb]
  · rfl

theorem columns_distributed {snap : SettlementSnapshot} {r : PUnit × Db}
    (h : distributeTx now snap db = .ok r) (hne : snap.contest.id ≠ k)
    (hranked : ∀ q ∈ snap.ranked, Belongs db snap.contest.id q.entryId) :
    columnsIn r.2.entries k = columnsIn db.entries k := by
  have hother : ∀ id ∈ snap.ranked.map (·.entryId), ∀ x ∈ db.entries.rows, x.id = id →
      x.contestId ≠ k := by
    intro id hid
    obtain ⟨q, hq, rfl⟩ := List.mem_map.1 hid
    exact elsewhere_of_belongs (hranked q hq) hne
  obtain ⟨lines, hlines, hentries⟩ := entries_distributed h
  have haward : Table.Same (poolColumns k) db.entries (awardPrizes db.entries lines) :=
    same_award (fun line hline => hother _ (List.mem_map_of_mem (hlines line hline)))
  rw [hentries]
  exact columnsIn_of_same (haward.trans (same_settle _ (fun rows hrows id hin =>
    elsewhere_of_same haward (hother id (ranked_of_lookup hrows hin)))))

theorem spares_distributeTx {snap : SettlementSnapshot} {r : PUnit × Db}
    (h : distributeTx now snap db = .ok r) (hne : snap.contest.id ≠ k)
    (hranked : ∀ q ∈ snap.ranked, Belongs db snap.contest.id q.entryId) : Spares k db r.2 := by
  refine spares_of_find (templates_distributed h) (columns_distributed h hne hranked)
    (fun c hfind _ => ?_)
  rw [contests_distributed h]
  exact (Table.find_update_of_ne _ _ (by intro c; rfl) hne.symm).trans hfind

/-- Every step elsewhere spares the contest. -/
theorem spares_step (drawHash : ℕ → ℕ → String) (tick : Tick) {pool : Pool} {t : Task}
    (hk : Truthful db t) (helse : pool.Elsewhere t) :
    Spares pool.contest.id db (step drawHash tick t db).1 := by
  apply step_within drawHash Spares.refl
  intro next db' h
  have hdone := action_ok drawHash h
  cases t with
  | ready call =>
    rcases begin_ok drawHash hdone with ⟨_, _, _, _, hc, _⟩ | ⟨_, _, hl, _⟩ | ⟨rfl, _⟩
    · exact spares_create hc
    · exact spares_lock hl
    · exact Spares.refl db'
  | scoring job => exact spares_job hdone
  | settle intent verification =>
    obtain ⟨_, _, hs⟩ := hdone
    obtain ⟨_, _, _, rfl, _⟩ := Deposits.settleTx_ok hs
    exact spares_of_eq rfl rfl rfl
  | publishTx contest lockAt =>
    obtain ⟨_, _, hp⟩ := hdone
    exact spares_publishTx hp helse
  | submitTx slip =>
    obtain ⟨_, _, hs⟩ := hdone
    exact spares_submitTx hs helse
  | cancelTx snap reason =>
    obtain ⟨_, _, hc⟩ := hdone
    exact spares_cancelTx hc helse hk.2
  | finalizeTx fixtureId result =>
    obtain ⟨_, u, hf⟩ := hdone
    obtain ⟨_, rfl⟩ := (Results.finalizeTx_ok_iff _ _ _ _ (u, db')).1 hf
    exact spares_of_eq rfl rfl rfl
  | distributeTx snap =>
    obtain ⟨_, _, hd⟩ := hdone
    exact spares_distributeTx hd helse hk

end Sparing

end PrizePool
end FootballIQ
