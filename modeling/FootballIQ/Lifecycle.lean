import FootballIQ.EntryGate

/-!
# The contest lifecycle as a diagram

Locking and scoring move a contest by an update that names the status it comes
from. Publication and cancellation check the status in their read and write the
new one whatever the contest has become since. A run stays on the diagram exactly
as long as these two still find the contest in a status that they may leave.
-/

namespace FootballIQ
namespace Lifecycle

open Transaction Relational Interleaving WalletAccounts Contests Scoring Platform

def edges : List (ContestStatus × ContestStatus) :=
  [(.draft, .published), (.published, .locked), (.locked, .scoring), (.scoring, .scored),
    (.scored, .settled), (.draft, .cancelled), (.published, .cancelled), (.locked, .cancelled)]

def Edge (s s' : ContestStatus) : Prop := (s, s') ∈ edges

instance : DecidableRel Edge := fun s s' => inferInstanceAs (Decidable ((s, s') ∈ edges))

/-- Every contest keeps its status or moves along an edge. -/
def OnDiagram (contests contests' : Table Contest) : Prop :=
  ∀ c ∈ contests.rows, ∃ c', contests'.find c.id = some c' ∧
    (c'.status = c.status ∨ Edge c.status c'.status)

/-- Whatever happens, closed contests stay as they are, and none is cancelled after
its scoring has begun. -/
def StaysFinal (contests contests' : Table Contest) : Prop :=
  ∀ c ∈ contests.rows, ∃ c', contests'.find c.id = some c' ∧
    (c.status = .cancelled → c'.status = .cancelled) ∧
    (c.status = .settled → c'.status = .settled) ∧
    (c.status ∈ [.scoring, .scored, .settled] → c'.status ∈ [.scoring, .scored, .settled])

/-- The rows that the refund of an entry needs. -/
def Present (db : Db) (snap : CancelSnapshot) (e : Entry) : Prop :=
  db.entries.find e.id ≠ none ∧
    ofUser db.ledger.accounts e.userId .userAvailable snap.contest.currency ≠ none

/-- The number of entries that have no refund yet. -/
def unrefunded (db : Db) (es : List Entry) : ℕ :=
  es.countP (fun e => (db.ledger.entryByKey (refundKey e.id)).isNone)

/-- The refunds of a cancellation go through and leave its escrow empty: every entry
and wallet is there, and the escrow holds a fee for each entry not refunded yet. -/
def Refundable (db : Db) (snap : CancelSnapshot) : Prop :=
  (∀ e ∈ snap.entries, Present db snap e) ∧
    (snap.escrow = none → snap.entries = []) ∧
    ∀ escrow, snap.escrow = some escrow → ∀ a, db.ledger.accounts.find escrow.id = some a →
      a.balanceMinor = snap.contest.entryFeeMinor * unrefunded db snap.entries

/-- A publication still finds a draft, and a cancellation that goes through a contest
that it may cancel; a repeated one finds its own result. -/
def Current (_tick : Tick) (t : Task) (db : Db) : Prop :=
  match t with
  | .publishTx contest _ => ∀ c, db.contests.find contest.id = some c →
      c.status ∈ [.draft, .published]
  | .cancelTx snap _ => Refundable db snap → ∀ c, db.contests.find snap.contest.id = some c →
      c.status ∈ [.draft, .published, .locked, .cancelled]
  | _ => True

section Diagram
variable {contests contests' contests'' : Table Contest}

theorem OnDiagram.refl (contests : Table Contest) : OnDiagram contests contests :=
  fun _ hc => ⟨_, contests.find_id hc, Or.inl rfl⟩

theorem onDiagram_insert (mk : ℕ → Contest) (hmk : ∀ k, Row.id (mk k) = k) :
    OnDiagram contests (contests.insert mk hmk) :=
  fun _ hc => ⟨_, Table.find_insert_of_some _ _ _ (contests.find_id hc), Or.inl rfl⟩

theorem onDiagram_updateWhere {p : Contest → Prop} [DecidablePred p] {f : Contest → Contest}
    (hf : ∀ c, Row.id (f c) = Row.id c)
    (hstep : ∀ c ∈ contests.rows, p c → Edge c.status (f c).status) :
    OnDiagram contests (contests.updateWhere p f hf) := by
  intro c hc
  refine ⟨if p c then f c else c, ?_, ?_⟩
  · have hfind : contests.find c.id = some c := contests.find_id hc
    rw [Table.find_updateWhere, hfind, Option.map_some]
  · split_ifs with hp
    · exact Or.inr (hstep c hc hp)
    · exact Or.inl rfl

/-- Writing one status over a contest stays on the diagram when the contest was one
edge before it, or there already. -/
theorem onDiagram_update_iff {k : ℕ} {f : Contest → Contest} (hf : ∀ c, Row.id (f c) = Row.id c) :
    OnDiagram contests (contests.update k f hf) ↔ ∀ c, contests.find k = some c →
      (f c).status = c.status ∨ Edge c.status (f c).status := by
  constructor
  · intro h c hc
    obtain ⟨hmem, hid⟩ := (Table.find_eq_some_iff _ _ _).1 hc
    obtain ⟨c', hc', hs⟩ := h c hmem
    rw [show c.id = k from hid, Table.find_update_self _ _ _ hc, Option.some.injEq] at hc'
    rwa [← hc'] at hs
  · intro h c hc
    refine ⟨if c.id = k then f c else c, ?_, ?_⟩
    · have hfind : contests.find c.id = some c := contests.find_id hc
      rw [Table.find_update, hfind, Option.map_some]
    · split_ifs with hk
      · exact h c ((Table.find_eq_some_iff _ _ _).2 ⟨hc, hk⟩)
      · exact Or.inl rfl

theorem StaysFinal.refl (contests : Table Contest) : StaysFinal contests contests :=
  fun _ hc => ⟨_, contests.find_id hc, id, id, id⟩

theorem StaysFinal.trans (h : StaysFinal contests contests') (h' : StaysFinal contests' contests'') :
    StaysFinal contests contests'' := by
  intro c hc
  obtain ⟨c', hc', hcancelled, hsettled, hscoring⟩ := h c hc
  obtain ⟨hmem, hid⟩ := (Table.find_eq_some_iff _ _ _).1 hc'
  obtain ⟨c'', hc'', hcancelled', hsettled', hscoring'⟩ := h' c' hmem
  exact ⟨c'', (show c'.id = c.id from hid) ▸ hc'', hcancelled' ∘ hcancelled, hsettled' ∘ hsettled,
    hscoring' ∘ hscoring⟩

theorem OnDiagram.staysFinal (h : OnDiagram contests contests') : StaysFinal contests contests' := by
  have key : ∀ s s' : ContestStatus, Edge s s' → s ≠ .cancelled ∧ s ≠ .settled ∧
      (s ∈ [ContestStatus.scoring, .scored, .settled] →
        s' ∈ [ContestStatus.scoring, .scored, .settled]) := by
    intro s s' hedge
    simp only [Edge, edges, List.mem_cons, Prod.mk.injEq, List.not_mem_nil, or_false] at hedge
    rcases hedge with ⟨rfl, rfl⟩ | ⟨rfl, rfl⟩ | ⟨rfl, rfl⟩ | ⟨rfl, rfl⟩ | ⟨rfl, rfl⟩ | ⟨rfl, rfl⟩ |
      ⟨rfl, rfl⟩ | ⟨rfl, rfl⟩ <;> decide
  intro c hc
  obtain ⟨c', hc', hs | hedge⟩ := h c hc
  · exact ⟨c', hc', hs ▸ id, hs ▸ id, hs ▸ id⟩
  · obtain ⟨hcancelled, hsettled, hscoring⟩ := key c.status c'.status hedge
    exact ⟨c', hc', fun h => absurd h hcancelled, fun h => absurd h hsettled, hscoring⟩

end Diagram

section Refunds
variable {snap : CancelSnapshot} {reason : String}

theorem id_refunded (e : Entry) : Row.id { e with status := .refunded } = Row.id e := rfl

def refunded (db : Db) (l : Ledger) (snap : CancelSnapshot) (reason : String) (e : Entry) : Db :=
  { db with
    ledger := l
    entries := db.entries.update e.id (fun e => { e with status := .refunded }) id_refunded
    notifications := db.notifications ++ [refundNotice snap.contest reason e] }

theorem refundEntry_ok_iff (e : Entry) (db : Db) (r : PUnit × Db) :
    refundEntry snap reason e db = .ok r ↔ ∃ wallet escrow id l,
      ofUser db.ledger.accounts e.userId .userAvailable snap.contest.currency = some wallet ∧
      snap.escrow = some escrow ∧
      Ledger.post (refundInput snap.contest reason e escrow wallet) db.ledger = .ok (id, l) ∧
      db.entries.find e.id ≠ none ∧ r.2 = refunded db l snap reason e := by
  simp only [refundEntry, bind_ok_iff, get_ok_iff, orThrow_ok_iff, Db.post_ok_iff,
    Db.updateEntry_ok_iff, Db.notify_ok_iff]
  constructor
  · rintro ⟨_, _, ⟨rfl, rfl⟩, wallet, _, ⟨hw, rfl⟩, escrow, _, ⟨he, rfl⟩, id, _, ⟨l, hpost, rfl⟩,
      _, _, ⟨hex, rfl⟩, hr⟩
    exact ⟨wallet, escrow, id, l, hw, he, hpost, hex, hr.symm⟩
  · rintro ⟨wallet, escrow, id, l, hw, he, hpost, hex, hr⟩
    exact ⟨db, db, ⟨rfl, rfl⟩, wallet, db, ⟨hw, rfl⟩, escrow, db, ⟨he, rfl⟩, id, _, ⟨l, hpost, rfl⟩,
      ⟨⟩, _, ⟨hex, rfl⟩, hr.symm⟩

theorem present_refunded {db : Db} {l : Ledger} {e : Entry}
    (hsame : Table.Same Ledger.owner db.ledger.accounts l.accounts) (x : Entry) :
    Present (refunded db l snap reason e) snap x ↔ Present db snap x := by
  have huser : ofUser l.accounts x.userId .userAvailable snap.contest.currency = none ↔
      ofUser db.ledger.accounts x.userId .userAvailable snap.contest.currency = none := by
    have hmap := Ledger.ofUser_of_same hsame x.userId .userAvailable snap.contest.currency
    rw [← Option.map_eq_none_iff (f := Ledger.owner), hmap, Option.map_eq_none_iff]
  unfold Present refunded
  simp only [Table.find_update, ne_eq, Option.map_eq_none_iff, huser]

theorem refundInput_valid (c : Contest) (e : Entry) (escrow wallet : LedgerAccount) :
    Ledger.validateLines (refundInput c reason e escrow wallet).lines = .ok () := by
  rw [Ledger.validateLines_ok_iff]
  have hfee := c.fee_pos.ne'
  simp [refundInput, Ledger.lineTotal, hfee]

section Turn
variable {db : Db} {e : Entry} {escrow wallet a : LedgerAccount}

theorem refundEntry_replays (hpresent : db.entries.find e.id ≠ none)
    (hw : ofUser db.ledger.accounts e.userId .userAvailable snap.contest.currency = some wallet)
    (hesc : snap.escrow = some escrow) {j : JournalEntry}
    (hk : db.ledger.entryByKey (refundKey e.id) = some j) :
    refundEntry snap reason e db = .ok (⟨⟩, refunded db db.ledger snap reason e) :=
  (refundEntry_ok_iff e db _).2 ⟨wallet, escrow, j.id, db.ledger, hw, hesc,
    Ledger.post_replay (refundInput_valid snap.contest e escrow wallet) hk, hpresent, rfl⟩

/-- A first refund is posted exactly when the escrow can pay the fee. -/
theorem refund_posts_iff (ha : db.ledger.accounts.find escrow.id = some a)
    (htype : a.type = .contestEscrow)
    (hbal : wallet.type ∈ Ledger.nonNegativeAccountTypes → 0 ≤ wallet.balanceMinor)
    (hw : ofUser db.ledger.accounts e.userId .userAvailable snap.contest.currency = some wallet)
    (hk : db.ledger.entryByKey (refundKey e.id) = none) :
    (∃ r, Ledger.post (refundInput snap.contest reason e escrow wallet) db.ledger = .ok r) ↔
      snap.contest.entryFeeMinor ≤ a.balanceMinor := by
  obtain ⟨hamem, haid⟩ := (Table.find_eq_some_iff _ _ _).1 ha
  obtain ⟨hwmem, _⟩ := ofUser_some hw
  have hlines : (refundInput snap.contest reason e escrow wallet).lines =
      [⟨a.id, -snap.contest.entryFeeMinor⟩, ⟨wallet.id, snap.contest.entryFeeMinor⟩] := by
    rw [show a.id = escrow.id from haid]
    rfl
  exact Ledger.post_transfer_ok_iff hlines snap.contest.fee_pos hamem hwmem
    (by rw [htype]; decide) hbal hk

theorem find_escrow_posted (ha : db.ledger.accounts.find escrow.id = some a)
    (htype : a.type = .contestEscrow)
    (hw : ofUser db.ledger.accounts e.userId .userAvailable snap.contest.currency = some wallet) :
    (Ledger.posted db.ledger (refundInput snap.contest reason e escrow wallet)).accounts.find
        escrow.id =
      some { a with balanceMinor := a.balanceMinor - snap.contest.entryFeeMinor } := by
  obtain ⟨hamem, haid⟩ := (Table.find_eq_some_iff _ _ _).1 ha
  obtain ⟨hwmem, _, hwtype, _⟩ := ofUser_some hw
  have hne : wallet.id ≠ escrow.id := by
    intro heq
    rw [db.ledger.accounts.eq_of_id_eq hwmem hamem (heq.trans haid.symm), htype] at hwtype
    cases hwtype
  rw [Ledger.posted, Ledger.find_creditAll, ha, Option.map_some]
  simp [refundInput, hne, sub_eq_add_neg]

theorem unrefunded_posted {es : List Entry} (hne : ∀ x ∈ es, x.id ≠ e.id) :
    unrefunded (refunded db (Ledger.posted db.ledger
      (refundInput snap.contest reason e escrow wallet)) snap reason e) es = unrefunded db es := by
  apply List.countP_congr
  intro x hx
  have hkey : (refundInput snap.contest reason e escrow wallet).idempotencyKey ≠ refundKey x.id :=
    fun heq => hne x hx (Ledger.key_inj heq).symm
  have hfind := Ledger.entryByKey_posted db.ledger (refundInput snap.contest reason e escrow wallet)
    (refundKey x.id)
  rw [if_neg hkey, Option.or_none] at hfind
  simp only [refunded, hfind]

end Turn

/-- The loop over the refunds succeeds and leaves the account empty. -/
def Empties (snap : CancelSnapshot) (reason : String) (escrowId : ℕ) (es : List Entry) (db : Db) :
    Prop :=
  ∃ r, (forM es (refundEntry snap reason) : Tx Failure Db PUnit) db = .ok r ∧
    ∃ b, r.2.ledger.accounts.find escrowId = some b ∧ b.balanceMinor = 0

theorem empties_cons_iff {escrowId : ℕ} {e : Entry} {es : List Entry} {db db₁ : Db}
    (hone : refundEntry snap reason e db = .ok (⟨⟩, db₁)) :
    Empties snap reason escrowId (e :: es) db ↔ Empties snap reason escrowId es db₁ := by
  refine exists_congr (fun r => and_congr_left (fun _ => ?_))
  rw [forM_cons_ok_iff]
  constructor
  · rintro ⟨db₂, hone', hgo⟩
    rw [hone, Except.ok.injEq, Prod.mk.injEq] at hone'
    rwa [hone'.2]
  · intro hgo
    exact ⟨db₁, hone, hgo⟩

/-- A loop whose first refund fails empties nothing. -/
theorem not_empties_cons {escrowId : ℕ} {e : Entry} {es : List Entry} {db : Db}
    (h : ∀ db₁, refundEntry snap reason e db ≠ .ok (⟨⟩, db₁)) :
    ¬ Empties snap reason escrowId (e :: es) db := by
  rintro ⟨r, hr, _⟩
  obtain ⟨db₁, hone, _⟩ := (forM_cons_ok_iff _ _ _ _ _).1 hr
  exact h db₁ hone

theorem present_of_refundEntry {e : Entry} {db db₁ : Db}
    (h : refundEntry snap reason e db = .ok (⟨⟩, db₁)) : Present db snap e := by
  obtain ⟨wallet, _, _, _, hw, _, _, hex, _⟩ := (refundEntry_ok_iff e db _).1 h
  exact ⟨hex, by simp [hw]⟩

/-- The loop empties the escrow exactly when everything it needs is there and the
escrow holds one fee for each refund still to be made. -/
theorem empties_iff {escrow : LedgerAccount} (hesc : snap.escrow = some escrow)
    (es : List Entry) (hnd : (es.map (·.id)).Nodup) {db : Db}
    (hn : Ledger.NonNegative db.ledger) {a : LedgerAccount}
    (ha : db.ledger.accounts.find escrow.id = some a) (htype : a.type = .contestEscrow) :
    Empties snap reason escrow.id es db ↔ (∀ e ∈ es, Present db snap e) ∧
      a.balanceMinor = snap.contest.entryFeeMinor * unrefunded db es := by
  induction es generalizing db a with
  | nil =>
    simp only [Empties, forM_nil_ok_iff, List.not_mem_nil, false_imp_iff, implies_true, true_and,
      unrefunded, List.countP_nil, Nat.cast_zero, mul_zero]
    constructor
    · rintro ⟨r, rfl, b, hb, hz⟩
      rwa [Option.some.inj (ha.symm.trans hb)]
    · intro hz
      exact ⟨(⟨⟩, db), rfl, a, ha, hz⟩
  | cons e es ih =>
    rw [List.map_cons, List.nodup_cons] at hnd
    by_cases hpresent : Present db snap e
    · obtain ⟨wallet, hw⟩ := Option.ne_none_iff_exists'.1 hpresent.2
      have hsplit : (∀ x ∈ e :: es, Present db snap x) ↔ ∀ x ∈ es, Present db snap x := by
        rw [List.forall_mem_cons, and_iff_right hpresent]
      cases hk : db.ledger.entryByKey (refundKey e.id) with
      | some j =>
        have hcount : unrefunded db (e :: es) = unrefunded db es := by simp [unrefunded, hk]
        have hn' : Ledger.NonNegative (refunded db db.ledger snap reason e).ledger := hn
        have hrest := ih hnd.2 hn' ha htype
        simp only [present_refunded (Table.Same.refl _ _)] at hrest
        rw [empties_cons_iff (refundEntry_replays hpresent.1 hw hesc hk), hrest, hsplit, hcount]
        rfl
      | none =>
        have hcount : unrefunded db (e :: es) = unrefunded db es + 1 := by simp [unrefunded, hk]
        have hposts : (∃ r, Ledger.post (refundInput snap.contest reason e escrow wallet)
            db.ledger = .ok r) ↔ _ := refund_posts_iff ha htype (hn wallet (ofUser_some hw).1) hw hk
        by_cases hle : snap.contest.entryFeeMinor ≤ a.balanceMinor
        · obtain ⟨⟨id, l⟩, hp⟩ := hposts.2 hle
          have hext := Ledger.extends_of_post hp
          have hone : refundEntry snap reason e db = .ok (⟨⟩, refunded db l snap reason e) :=
            (refundEntry_ok_iff e db _).2 ⟨wallet, escrow, id, l, hw, hesc, hp, hpresent.1, rfl⟩
          obtain rfl : l = Ledger.posted db.ledger
              (refundInput snap.contest reason e escrow wallet) := by
            obtain ⟨_, ⟨j, hj, _⟩ | ⟨_, _, hl, _⟩⟩ := Ledger.post_ok_cases hp
            · cases hk.symm.trans hj
            · exact hl
          have hn' : Ledger.NonNegative (refunded db (Ledger.posted db.ledger
              (refundInput snap.contest reason e escrow wallet)) snap reason e).ledger :=
            hext.nonNegative hn
          have hrest := ih hnd.2 hn' (find_escrow_posted ha htype hw) htype
          simp only [present_refunded hext.accounts] at hrest
          rw [empties_cons_iff hone, hrest, hsplit, hcount, unrefunded_posted
            (fun x hx heq => hnd.1 (List.mem_map.2 ⟨x, hx, heq⟩)), Nat.cast_succ, mul_add, mul_one,
            sub_eq_iff_eq_add]
        · apply iff_of_false
          · apply not_empties_cons
            intro db₁ hone
            obtain ⟨wallet', escrow', id, l, hw', hesc', hp, _⟩ := (refundEntry_ok_iff e db _).1 hone
            rw [Option.some.inj (hw'.symm.trans hw), Option.some.inj (hesc'.symm.trans hesc)] at hp
            exact hle (hposts.1 ⟨_, hp⟩)
          · rintro ⟨_, hbal⟩
            have hnonneg : 0 ≤ snap.contest.entryFeeMinor * (unrefunded db es : ℤ) :=
              mul_nonneg snap.contest.fee_pos.le (Nat.cast_nonneg _)
            rw [hcount, Nat.cast_succ, mul_add, mul_one] at hbal
            omega
    · apply iff_of_false
      · apply not_empties_cons
        intro db₁ hone
        exact hpresent (present_of_refundEntry hone)
      · intro hall
        exact hpresent (hall.1 e List.mem_cons_self)

theorem contests_refunds (es : List Entry) {db : Db} {r : PUnit × Db}
    (h : (forM es (refundEntry snap reason) : Tx Failure Db PUnit) db = .ok r) :
    r.2.contests = db.contests := by
  obtain ⟨_, _, _, hr⟩ := refunds_writes es h
  rw [hr]

/-- The escrow that a cancellation has read is an escrow account, and no entry comes twice. -/
structure WellRead (db : Db) (snap : CancelSnapshot) : Prop where
  entries_nodup : (snap.entries.map (·.id)).Nodup
  escrow : ∀ escrow, snap.escrow = some escrow →
    ∃ a, db.ledger.accounts.find escrow.id = some a ∧ a.type = .contestEscrow

theorem cancelTx_commits_iff (now : DateTime) {db : Db} (hn : Ledger.NonNegative db.ledger)
    (hread : WellRead db snap) : (∃ r, cancelTx now snap reason db = .ok r) ↔
      Refundable db snap ∧ db.contests.find snap.contest.id ≠ none := by
  simp only [cancelTx, bind_ok_iff, Db.updateContest_ok_iff, Db.emit_ok_iff]
  cases hesc : snap.escrow with
  | none =>
    simp only [Option.toList_none, forM_nil_ok_iff]
    constructor
    · rintro ⟨r, _, db₁, hloop, _, _, rfl, _, _, ⟨hex, rfl⟩, _⟩
      have hnil : snap.entries = [] := by
        cases hes : snap.entries with
        | nil => rfl
        | cons e es =>
          rw [hes, forM_cons_ok_iff] at hloop
          obtain ⟨_, hone, _⟩ := hloop
          obtain ⟨_, _, _, _, _, hsome, _⟩ := (refundEntry_ok_iff e db _).1 hone
          rw [hesc] at hsome
          cases hsome
      refine ⟨⟨by simp [hnil], fun _ => hnil, by simp [hesc]⟩, ?_⟩
      rwa [← contests_refunds _ hloop]
    · rintro ⟨⟨_, hnil, _⟩, hex⟩
      have hloop : (forM snap.entries (refundEntry snap reason) : Tx Failure Db PUnit) db =
          .ok (⟨⟩, db) := by
        rw [hnil hesc, forM_nil_ok_iff]
      exact ⟨(⟨⟩, _), ⟨⟩, db, hloop, ⟨⟩, db, rfl, ⟨⟩, _, ⟨hex, rfl⟩, rfl⟩
  | some escrow =>
    obtain ⟨a, ha, htype⟩ := hread.escrow escrow hesc
    have hrefundable : Empties snap reason escrow.id snap.entries db ↔ Refundable db snap := by
      rw [empties_iff hesc snap.entries hread.entries_nodup hn ha htype]
      constructor
      · rintro ⟨hpresent, hbal⟩
        refine ⟨hpresent, by simp [hesc], fun escrow' he' a' ha' => ?_⟩
        rw [hesc, Option.some.injEq] at he'
        rw [← he', ha, Option.some.injEq] at ha'
        rwa [← ha']
      · rintro ⟨hpresent, _, hbal⟩
        exact ⟨hpresent, hbal escrow hesc a ha⟩
    rw [← hrefundable]
    simp only [Option.toList_some, forM_cons_ok_iff, forM_nil_ok_iff, assertEscrowEmpty_ok_iff]
    constructor
    · rintro ⟨r, _, db₁, hloop, _, _, ⟨_, ⟨hzero, rfl⟩, rfl⟩, _, _, ⟨hex, rfl⟩, _⟩
      refine ⟨⟨_, hloop, hzero⟩, ?_⟩
      rwa [← contests_refunds _ hloop]
    · rintro ⟨⟨⟨_, db₁⟩, hloop, hzero⟩, hex⟩
      rw [← contests_refunds _ hloop] at hex
      exact ⟨(⟨⟩, _), ⟨⟩, db₁, hloop, ⟨⟩, db₁, ⟨db₁, ⟨hzero, rfl⟩, rfl⟩, ⟨⟩, _, ⟨hex, rfl⟩, rfl⟩

end Refunds

/-- What every step keeps: covered accounts, and escrows that are escrow accounts. -/
structure Typed (db : Db) : Prop where
  nonNegative : Ledger.NonNegative db.ledger
  escrows : ∀ a ∈ db.ledger.accounts.rows, a.contestId ≠ none → a.type = .contestEscrow

/-- What a pending call knows from its read, as long as the run stays on the diagram. -/
def Known (db : Db) (t : Task) : Prop :=
  match t with
  | .cancelTx snap _ => WellRead db snap
  | .distributeTx snap => ∃ c, db.contests.find snap.contest.id = some c ∧
      c.status ∈ [.scored, .settled]
  | _ => True

section Steps
variable (drawHash : ℕ → ℕ → String)

def StepOnDiagram (tick : Tick) (t : Task) (db : Db) : Prop :=
  OnDiagram db.contests (step drawHash tick t db).1.contests

theorem publishTx_onDiagram_iff (now : DateTime) (contest : Contest) (lockAt : DateTime) (db : Db) :
    OnDiagram db.contests (commit (publishTx now contest lockAt) db).contests ↔
      ∀ c, db.contests.find contest.id = some c → c.status ∈ [.draft, .published] := by
  have hedge : ∀ s : ContestStatus, (.published = s ∨ Edge s .published) ↔
      s ∈ [ContestStatus.draft, .published] := by
    intro s
    cases s <;> decide
  rcases commit_cases (publishTx now contest lockAt) db with ⟨u, db', hok, hc⟩ | ⟨e, herr, hc⟩
  · obtain ⟨_, hr⟩ := (publishTx_ok_iff now contest lockAt db (u, db')).1 hok
    rw [hc, show db' = _ from hr, onDiagram_update_iff (by intro c; rfl)]
    exact forall₂_congr (fun c _ => hedge c.status)
  · rw [hc]
    refine iff_of_true (OnDiagram.refl _) (fun c hfind => ?_)
    have hok := (publishTx_ok_iff now contest lockAt db ⟨⟨⟩, _⟩).2 ⟨by simp [hfind], rfl⟩
    rw [herr] at hok
    cases hok

theorem cancelTx_onDiagram_iff (now : DateTime) {snap : CancelSnapshot} (reason : String) {db : Db}
    (hn : Ledger.NonNegative db.ledger) (hread : WellRead db snap) :
    OnDiagram db.contests (commit (cancelTx now snap reason) db).contests ↔
      (Refundable db snap → ∀ c, db.contests.find snap.contest.id = some c →
        c.status ∈ [.draft, .published, .locked, .cancelled]) := by
  have hedge : ∀ s : ContestStatus, (.cancelled = s ∨ Edge s .cancelled) ↔
      s ∈ [ContestStatus.draft, .published, .locked, .cancelled] := by
    intro s
    cases s <;> decide
  have hcommits : (∃ r, cancelTx now snap reason db = .ok r) ↔ _ :=
    cancelTx_commits_iff now hn hread
  rcases commit_cases (cancelTx now snap reason) db with ⟨u, db', hok, hc⟩ | ⟨e, herr, hc⟩
  · obtain ⟨hpay, _⟩ := hcommits.1 ⟨_, hok⟩
    obtain ⟨db₁, hloop, _, hr⟩ := cancelTx_ok hok
    have hcontests : db₁.contests = db.contests := contests_refunds _ hloop
    rw [hc, show db' = _ from hr, hcontests, onDiagram_update_iff (by intro c; rfl),
      forall_prop_of_true hpay]
    exact forall₂_congr (fun c _ => hedge c.status)
  · rw [hc]
    refine iff_of_true (OnDiagram.refl _) (fun hpay c hfind => ?_)
    obtain ⟨r, hr⟩ := hcommits.2 ⟨hpay, by simp [hfind]⟩
    rw [herr] at hr
    cases hr

theorem onDiagram_lock (now contestId : ℕ) {db db' : Db}
    (h : lock now contestId db = .ok (⟨⟩, db')) : OnDiagram db.contests db'.contests := by
  rcases lock_cases now contestId db with ⟨c, hc, hs, hlock⟩ | ⟨_, hlock⟩
  · rw [hlock, Except.ok.injEq, Prod.mk.injEq] at h
    rw [← h.2]
    refine (onDiagram_update_iff (by intro c; rfl)).2 (fun c' hc' => Or.inr ?_)
    rw [Option.some.inj (hc'.symm.trans hc), hs]
    exact (by decide : Edge .published .locked)
  · rw [hlock, Except.ok.injEq, Prod.mk.injEq] at h
    rw [← h.2]
    exact OnDiagram.refl _

theorem onDiagram_scoring (tick : Tick) (job : ScoringJob) (db : Db) :
    StepOnDiagram drawHash tick (.scoring job) db := by
  unfold StepOnDiagram
  rcases step_cases drawHash tick (.scoring job) db with ⟨next, db', hok, hs⟩ | ⟨_, hs⟩
  · rw [hs]
    have hjob := ScoringJob.action_ok hok
    cases hstage : job.stage with
    | scoreMatch cm rest =>
      rw [hstage] at hjob
      obtain ⟨c, ruleSet, _, _, hr⟩ := (scoreContestMatch_ok_iff _ _ _ _ db (⟨⟩, db')).1 hjob.1
      rw [show db' = _ from hr]
      refine onDiagram_updateWhere id_scoring (fun c _ hp => ?_)
      rw [hp.2]
      exact (by decide : Edge .locked .scoring)
    | complete cm rest =>
      rw [hstage] at hjob
      rw [← commit_of_ok hjob.1]
      rcases markScored_cases tick.now cm.contestId db with ⟨c, hc, hs, hdone⟩ | ⟨_, hdone⟩
      · rw [hdone]
        refine (onDiagram_update_iff (by intro c; rfl)).2 (fun c' hc' => Or.inr ?_)
        rw [Option.some.inj (hc'.symm.trans hc), hs]
        exact (by decide : Edge .scoring .scored)
      · rw [hdone]
        exact OnDiagram.refl _
    | readMatches | count cm rest | countOther cm rest predictionsFirst first =>
      rw [hstage] at hjob
      rw [hjob.1]
      exact OnDiagram.refl _
  · rw [hs]
    exact OnDiagram.refl _

theorem onDiagram_distribute (now : DateTime) {snap : Settlement.SettlementSnapshot} {db : Db}
    (hk : Known db (.distributeTx snap)) :
    OnDiagram db.contests (commit (Settlement.distributeTx now snap) db).contests := by
  obtain ⟨c, hc, hs⟩ := hk
  rcases commit_cases (Settlement.distributeTx now snap) db with ⟨u, db', hok, hcom⟩ | ⟨_, _, hcom⟩
  · obtain ⟨escrow, platform, db₁, _, _, hpay, _, hr⟩ :=
      (Settlement.distributeTx_ok_iff now snap db (u, db')).1 hok
    have hcontests : db₁.contests = db.contests := by
      rcases hpay with ⟨_, _, hpay⟩ | ⟨_, rfl⟩
      · obtain ⟨_, _, _, _, _, _, _, _, _, hr⟩ := Settlement.payOut_ok hpay
        rw [show db₁ = _ from hr]
      · rfl
    rw [hcom, show db' = _ from hr]
    simp only [hcontests]
    refine (onDiagram_update_iff (by intro c; rfl)).2 (fun c' hc' => ?_)
    rw [Option.some.inj (hc'.symm.trans hc)]
    simp only [List.mem_cons, List.not_mem_nil, or_false] at hs
    rcases hs with hs | hs
    · refine Or.inr ?_
      rw [hs]
      exact (by decide : Edge .scored .settled)
    · exact Or.inl hs.symm
  · rw [hcom]
    exact OnDiagram.refl _

/-- One step stays on the diagram exactly when what it writes is still current. -/
theorem step_onDiagram_iff (tick : Tick) (t : Task) (db : Db) (hI : Typed db) (hk : Known db t) :
    StepOnDiagram drawHash tick t db ↔ Current tick t db := by
  have hsame : ∀ {α : Type} (x : Tx Failure Db α),
      (∀ a db', x db = .ok (a, db') → db'.contests = db.contests) →
      OnDiagram db.contests (commit x db).contests := by
    intro α x hx
    rcases commit_cases x db with ⟨a, db', hok, hc⟩ | ⟨_, _, hc⟩
    · rw [hc, hx a db' hok]
      exact OnDiagram.refl _
    · rw [hc]
      exact OnDiagram.refl _
  unfold StepOnDiagram
  cases t with
  | ready call =>
    refine iff_of_true ?_ trivial
    rcases step_cases drawHash tick (.ready call) db with ⟨next, db', hok, hs⟩ | ⟨_, hs⟩
    · rw [hs]
      rcases begin_ok drawHash hok with ⟨adminId, dto, id, _, hcreate, _⟩ | ⟨contestId, _, hlock, _⟩ |
        ⟨rfl, _⟩
      · obtain ⟨ruleSet, template, ms, ss, rfl⟩ := create_ok hcreate
        exact onDiagram_insert _ (id_draftContest dto ruleSet template adminId)
      · exact onDiagram_lock tick.now contestId hlock
      · exact OnDiagram.refl _
    · rw [hs]
      exact OnDiagram.refl _
  | settle intent verification =>
    refine iff_of_true ?_ trivial
    rw [step_of_action drawHash (Deposits.settleTx tick.now intent verification) rfl rfl]
    refine hsame _ (fun a db' hok => ?_)
    obtain ⟨l, intents, events, rfl, _⟩ := Deposits.settleTx_ok hok
    rfl
  | publishTx contest lockAt =>
    rw [step_of_action drawHash (publishTx tick.now contest lockAt) rfl rfl]
    exact publishTx_onDiagram_iff tick.now contest lockAt db
  | submitTx slip =>
    refine iff_of_true ?_ trivial
    rw [step_of_action drawHash (Entries.submitTx tick.now slip) rfl rfl]
    refine hsame _ (fun a db' hok => ?_)
    obtain ⟨_, _, _, _, _, _, _, _, rfl, _⟩ := (Entries.submitTx_ok_iff tick.now slip db db' a).1 hok
    rfl
  | cancelTx snap reason =>
    rw [step_of_action drawHash (cancelTx tick.now snap reason) rfl rfl]
    exact cancelTx_onDiagram_iff tick.now reason hI.nonNegative hk
  | finalizeTx fixtureId result =>
    refine iff_of_true ?_ trivial
    rw [step_of_action drawHash (Results.finalizeTx tick.now fixtureId result) rfl rfl]
    refine hsame _ (fun a db' hok => ?_)
    obtain ⟨_, hr⟩ := (Results.finalizeTx_ok_iff tick.now fixtureId result db (a, db')).1 hok
    rw [show db' = _ from hr]
  | scoring job => exact iff_of_true (onDiagram_scoring drawHash tick job db) trivial
  | distributeTx snap =>
    refine iff_of_true ?_ trivial
    rw [step_of_action drawHash (Settlement.distributeTx tick.now snap) rfl rfl]
    exact onDiagram_distribute tick.now hk

/-- A step keeps the type of every account, and gives only escrows to contests. -/
theorem accounts_step (tick : Tick) (t : Task) (db : Db) :
    Table.Keeps (·.type) db.ledger.accounts (step drawHash tick t db).1.ledger.accounts ∧
      ((∀ a ∈ db.ledger.accounts.rows, a.contestId ≠ none → a.type = .contestEscrow) →
        ∀ a ∈ (step drawHash tick t db).1.ledger.accounts.rows, a.contestId ≠ none →
          a.type = .contestEscrow) := by
  have hsame : ∀ {accounts accounts' : Table LedgerAccount},
      Table.Same Ledger.owner accounts accounts' → Table.Keeps (·.type) accounts accounts' ∧
        ((∀ a ∈ accounts.rows, a.contestId ≠ none → a.type = .contestEscrow) →
          ∀ a ∈ accounts'.rows, a.contestId ≠ none → a.type = .contestEscrow) := by
    intro accounts accounts' h
    constructor
    · intro a ha
      obtain ⟨b, hb, howner⟩ := h.mem_of ha
      exact ⟨b, hb, Ledger.id_of_owner howner, Ledger.type_of_owner howner⟩
    · intro hescrows b hb hcontest
      obtain ⟨a, ha, howner⟩ := h.mem hb
      rw [← Ledger.type_of_owner howner]
      refine hescrows a ha ?_
      rwa [Ledger.contestId_of_owner howner]
  obtain ⟨slip, res, db', rfl, hok, hs⟩ | ⟨contest, lockAt, db', rfl, hok, hs⟩ | hframe :=
    step_writes drawHash tick t db
  · obtain ⟨_, _, _, _, _, _, hpost, _, rfl, _⟩ :=
      (Entries.submitTx_ok_iff tick.now slip db db' res).1 hok
    rw [hs]
    exact hsame (Ledger.extends_of_post hpost).accounts
  · obtain ⟨_, hr⟩ := (publishTx_ok_iff tick.now contest lockAt db (⟨⟩, db')).1 hok
    rw [hs, show db' = _ from hr]
    constructor
    · refine Table.Keeps.trans ?_ (Table.keeps_insert _ _ _ (id_escrowAccount _ _))
      exact Table.keeps_updateWhere _ _ _ _ (by intro a; rfl) (by intro a; rfl)
    · intro hescrows a ha hcontest
      rcases (Table.mem_insert _ _ (id_escrowAccount _ _) a).1 ha with ha | rfl
      · obtain ⟨b, hb, rfl⟩ := (Table.mem_updateWhere _ _ _ (by intro r; rfl) a).1 ha
        split_ifs at hcontest ⊢ with hown
        · exact absurd rfl hcontest
        · exact hescrows b hb hcontest
      · rfl
  · exact hsame hframe.ledger.accounts

theorem WellRead.of_keeps {db db' : Db} {snap : CancelSnapshot} (h : WellRead db snap)
    (hkeep : Table.Keeps (·.type) db.ledger.accounts db'.ledger.accounts) : WellRead db' snap := by
  refine ⟨h.entries_nodup, fun escrow hesc => ?_⟩
  obtain ⟨a, ha, htype⟩ := h.escrow escrow hesc
  obtain ⟨a', ha', htype'⟩ := hkeep.find ha
  exact ⟨a', ha', htype'.trans htype⟩

theorem Known.stable {db db' : Db} {t : Task} (h : Known db t)
    (hkeep : Table.Keeps (·.type) db.ledger.accounts db'.ledger.accounts)
    (hdiagram : OnDiagram db.contests db'.contests) : Known db' t := by
  cases t with
  | cancelTx snap reason => exact WellRead.of_keeps h hkeep
  | distributeTx snap =>
    obtain ⟨c, hc, hs⟩ := h
    obtain ⟨hmem, hid⟩ := (Table.find_eq_some_iff _ _ _).1 hc
    obtain ⟨c', hc', hstep⟩ := hdiagram c hmem
    have hedge : ∀ s s' : ContestStatus, s ∈ [ContestStatus.scored, .settled] →
        (s' = s ∨ Edge s s') → s' ∈ [ContestStatus.scored, .settled] := by
      intro s s'
      cases s <;> cases s' <;> decide
    exact ⟨c', (show c.id = snap.contest.id from hid) ▸ hc', hedge _ _ hs hstep⟩
  | _ => trivial

theorem known_of_prepared {now : DateTime} {db : Db} {t : Task} (hI : Typed db)
    (h : Prepared drawHash now db t) : Known db t := by
  cases h with
  | cancelTx snap reason contestId h =>
    obtain ⟨_, _, _, hentries, hescrow, _⟩ := cancelRead_ok h
    constructor
    · rw [hentries]
      exact ids_activeEntries db contestId
    · intro escrow hesc
      obtain ⟨hmem, hcontest⟩ := ofContest_some (hescrow ▸ hesc)
      exact ⟨escrow, Table.find_id _ hmem, hI.escrows escrow hmem (by simp [hcontest])⟩
  | distributeTx snap contestId h =>
    obtain ⟨hc, hid, hs, _⟩ := Settlement.distributeRead_some h
    refine ⟨snap.contest, hid.symm ▸ hc, ?_⟩
    rw [hs]
    decide
  | _ => trivial

theorem inductive_diagram :
    (protocol drawHash).Inductive (StepOnDiagram drawHash) Typed Known where
  init _ _ _ := trivial
  shared tick t db hI _ _ :=
    ⟨EntryGate.nonNegative_step drawHash hI.nonNegative, (accounts_step drawHash tick t db).2 hI.escrows⟩
  cont tick t db t' hI _ _ hnext := by
    rcases step_next drawHash hnext with ⟨call, _, hdb, hprep⟩ | ⟨_, _, _, rfl⟩ | ⟨_, _, rfl⟩
    · rw [show ((protocol drawHash).step tick t db).1 = db from hdb]
      exact known_of_prepared drawHash hI hprep
    · trivial
    · trivial
  stable tick t db u _ _ hG hu := hu.stable (accounts_step drawHash tick t db).1 hG

end Steps

/-- In every interleaving each change of a contest's status is an edge of the diagram
exactly when no publication and no cancellation writes over a status that it may not
leave; and then no closed contest changes and none is cancelled once scoring has begun. -/
theorem onDiagram_iff (drawHash : ℕ → ℕ → String) {db : Db} (h : Typed db)
    (as : List (Act Call Tick)) :
    ((protocol drawHash).Along (StepOnDiagram drawHash) ⟨db, []⟩ as ↔
        (protocol drawHash).Along Current ⟨db, []⟩ as) ∧
      ((protocol drawHash).Along Current ⟨db, []⟩ as → ∀ bs cs ds, as = bs ++ cs ++ ds →
        StaysFinal ((protocol drawHash).run ⟨db, []⟩ bs).shared.contests
          ((protocol drawHash).run ⟨db, []⟩ (bs ++ cs)).shared.contests) := by
  have hstart : Protocol.Holds Typed Known (⟨db, []⟩ : Config Db Task) :=
    ⟨h, by intro t ht; cases ht⟩
  have hiff : (protocol drawHash).Along Current ⟨db, []⟩ as ↔
      (protocol drawHash).Along (StepOnDiagram drawHash) ⟨db, []⟩ as :=
    (inductive_diagram drawHash).along_iff
      (fun tick t db hI hk => (step_onDiagram_iff drawHash tick t db hI hk).symm) hstart as
  refine ⟨hiff.symm, fun hcurrent => ?_⟩
  exact ((protocol drawHash).along_iff_earlier_later
    (R := fun db db' => StaysFinal db.contests db'.contests) (fun db => StaysFinal.refl _)
    (fun _ _ _ => StaysFinal.trans) ⟨db, []⟩ as).1
    (Protocol.Along.mono _ (fun _ _ _ hstep => hstep.staysFinal) (hiff.1 hcurrent))

section Stale

/-- Two entries in a locked contest whose fixtures have their results. -/
def finalDb : Db :=
  { stakedDb with
    fixtures := ⟨(List.range 5).map (fun i => ⟨i + 1, 100, .finished, some 1, some 0, some 1, some 0,
      some .home, some 150⟩), by decide⟩ }

/-- A cancellation reads the locked contest, a scoring job begins, the cancellation commits. -/
def staleCancel : List (Act Call Tick) :=
  [.start (.cancel 1 "fixture abandoned"), .resume 0 ⟨160, false, false⟩,
    .start (.resultFinalized 1), .resume 1 ⟨161, false, false⟩, .resume 1 ⟨161, false, false⟩,
    .resume 1 ⟨161, false, false⟩, .resume 0 ⟨162, false, false⟩]

/-- Scoring has begun and the cancellation is still pending. -/
def scoringBegun : Config Db Task :=
  (protocol (fun _ _ => "")).run ⟨finalDb, []⟩ (staleCancel.take 6)

theorem onDiagram_iff_staleCancel :
    ((protocol (fun _ _ => "")).Along (StepOnDiagram fun _ _ => "") ⟨finalDb, []⟩ staleCancel ↔
        (protocol (fun _ _ => "")).Along Current ⟨finalDb, []⟩ staleCancel) ∧
      ((protocol (fun _ _ => "")).Along Current ⟨finalDb, []⟩ staleCancel →
        ∀ bs cs ds, staleCancel = bs ++ cs ++ ds →
        StaysFinal ((protocol (fun _ _ => "")).run ⟨finalDb, []⟩ bs).shared.contests
          ((protocol (fun _ _ => "")).run ⟨finalDb, []⟩ (bs ++ cs)).shared.contests) :=
  onDiagram_iff _ ⟨by unfold Ledger.NonNegative; decide +kernel, by decide +kernel⟩ staleCancel

/-- The contest is cancelled although its scoring has begun. -/
theorem cancelled_while_scoring :
    ¬ (protocol (fun _ _ => "")).Along (StepOnDiagram fun _ _ => "") ⟨finalDb, []⟩ staleCancel := by
  intro h
  have hlast : ∀ t, scoringBegun.pending[0]? = some t →
      StepOnDiagram (fun _ _ => "") ⟨162, false, false⟩ t scoringBegun.shared :=
    (((protocol (fun _ _ => "")).along_append _ _ (staleCancel.take 6) (staleCancel.drop 6)).1 h).2.1
  have hpending : scoringBegun.pending[0]? ≠ none := by decide +kernel
  have hbefore : (scoringBegun.shared.contests.find 1).map (·.status) = some .scoring := by
    decide +kernel
  have hafter : ∀ t ∈ scoringBegun.pending[0]?,
      ((step (fun _ _ => "") ⟨162, false, false⟩ t scoringBegun.shared).1.contests.find 1).map
        (·.status) = some .cancelled := by decide +kernel
  obtain ⟨t, ht⟩ := Option.ne_none_iff_exists'.1 hpending
  obtain ⟨c, hc, hs⟩ := Option.map_eq_some_iff.1 hbefore
  obtain ⟨hmem, hid⟩ := (Table.find_eq_some_iff _ _ _).1 hc
  obtain ⟨c', hc', hstep⟩ := hlast t ht c hmem
  have hs' := hafter t ht
  rw [← show c.id = 1 from hid, hc', Option.map_some, Option.some.injEq] at hs'
  rw [hs, hs'] at hstep
  revert hstep
  decide

end Stale

end Lifecycle
end FootballIQ
