import FootballIQ.Frames
import FootballIQ.Payouts
import FootballIQ.Sequential

/-!
# The holds of withdrawals

The pending account of a user pools the holds of all the user's withdrawals. A
hold is placed by one journal entry and released by at most one other, a
settlement or a reversal; in between the withdrawal's status moves while its
money does not.
-/

namespace FootballIQ
namespace HoldAccounting

open Transaction Relational WalletAccounts Withdrawals Payouts
open PayoutRace (rejectRead rejectRead_ok_iff)

section Property

/-- The statuses in which the amount of a withdrawal is held. -/
def held : List WithdrawalStatus := [.requested, .underReview, .approved, .processing]

def heldAmount (userId : ℕ) (w : Withdrawal) : ℤ :=
  if w.userId = userId ∧ w.status ∈ held then w.amountMinor else 0

def pendingBalance (accounts : Table LedgerAccount) (userId : ℕ) : ℤ :=
  ((ofUser accounts userId .userWithdrawalPending "NGN").map (·.balanceMinor)).getD 0

/-- What a journal entry can do with a hold. -/
inductive Movement where
  | hold | settle | reversal
  deriving DecidableEq

namespace Movement

def type : Movement → JournalType
  | .hold => .withdrawalHold
  | .settle => .withdrawalSettle
  | .reversal => .withdrawalReversal

def key : Movement → ℕ → String
  | .hold => holdKey
  | .settle => settleKey
  | .reversal => reverseKey

/-- The statuses of a withdrawal that has had the movement. -/
def due : Movement → WithdrawalStatus → Prop
  | .hold, _ => True
  | .settle, s => s = .paid
  | .reversal, s => s ∈ [.rejected, .failed]

instance (m : Movement) (s : WithdrawalStatus) : Decidable (m.due s) := by
  cases m <;> unfold due <;> infer_instance

end Movement

/-- The entries of one movement of one withdrawal. -/
def movementsOf (db : Db) (m : Movement) (withdrawalId : ℕ) : List JournalEntry :=
  db.ledger.journal.findMany (fun j => j.type = m.type ∧ j.idempotencyKey = m.key withdrawalId)

/-- The pending balances are the amounts held, and every withdrawal has one hold, and
one settlement or reversal exactly in the statuses that it leads to. -/
structure Accounted (db : Db) : Prop where
  pending : ∀ userId, pendingBalance db.ledger.accounts userId =
    (db.withdrawals.rows.map (heldAmount userId)).sum
  hold : ∀ w ∈ db.withdrawals.rows, (movementsOf db .hold w.id).length = 1
  settle : ∀ w ∈ db.withdrawals.rows, movementsOf db .settle w.id ≠ [] ↔ w.status = .paid
  reversal : ∀ w ∈ db.withdrawals.rows,
    movementsOf db .reversal w.id ≠ [] ↔ w.status ∈ [.rejected, .failed]

end Property

section Keys

theorem movement_key_inj {m m' : Movement} {k k' : ℕ} (h : m.key k = m'.key k') :
    m = m' ∧ k = k' := by
  have hne : ∀ {p q : String} {c d : Char} (a b : String), p.toList.head? = some c →
      q.toList.head? = some d → c ≠ d → ("withdrawal-" ++ p) ++ a ≠ ("withdrawal-" ++ q) ++ b := by
    intro p q c d a b hp hq hcd heq
    rw [String.append_assoc, String.append_assoc] at heq
    exact Ledger.key_ne hp hq hcd a b ((String.append_right_inj _).1 heq)
  have hsr := fun a b => hne (p := "settle:") (q := "reverse:") a b rfl rfl (by decide)
  have hhs := fun a b => hne (p := "hold:") (q := "settle:") a b rfl rfl (by decide)
  have hhr := fun a b => hne (p := "hold:") (q := "reverse:") a b rfl rfl (by decide)
  cases m <;> cases m'
  · exact ⟨rfl, Ledger.key_inj h⟩
  · exact absurd h (hhs _ _)
  · exact absurd h (hhr _ _)
  · exact absurd h.symm (hhs _ _)
  · exact ⟨rfl, Ledger.key_inj h⟩
  · exact absurd h (hsr _ _)
  · exact absurd h.symm (hhr _ _)
  · exact absurd h.symm (hsr _ _)
  · exact ⟨rfl, Ledger.key_inj h⟩

end Keys

section Pending
variable {accounts : Table LedgerAccount}

/-- A transfer between a user's pending account and one of another type moves only
the pending balance of that user. -/
theorem pendingBalance_transfer {pending other : LedgerAccount} {userId : ℕ} {amount : ℤ}
    {lines : List JournalLine}
    (hpending : ofUser accounts userId .userWithdrawalPending "NGN" = some pending)
    (hother : other ∈ accounts.rows) (htype : other.type ≠ .userWithdrawalPending)
    (hlines : ∀ k, k ≠ other.id →
      Ledger.amountOn k lines = if pending.id = k then amount else 0) (u : ℕ) :
    pendingBalance (Ledger.creditAll accounts lines) u =
      pendingBalance accounts u + if u = userId then amount else 0 :=
  Ledger.balance_transfer hpending hother htype hlines u

/-- Creating a user's pending account moves no balance. -/
theorem getOrCreatePendingAccount_spec {userId : ℕ} {db db' : Db} {pending : LedgerAccount}
    (h : getOrCreatePendingAccount userId db = .ok (pending, db')) :
    ∃ accounts, db' = { db with ledger := { db.ledger with accounts := accounts } } ∧
      ofUser accounts userId .userWithdrawalPending "NGN" = some pending ∧
      (∀ u, pendingBalance accounts u = pendingBalance db.ledger.accounts u) ∧
      (∀ a ∈ db.ledger.accounts.rows, a ∈ accounts.rows) ∧
      ∀ a ∈ accounts.rows, a ∈ db.ledger.accounts.rows ∨ a.balanceMinor = 0 := by
  obtain ⟨hacc, rfl⟩ | ⟨hacc, rfl, rfl⟩ := (getOrCreatePendingAccount_ok_iff userId db db' pending).1 h
  · exact ⟨db'.ledger.accounts, rfl, hacc, fun _ => rfl, fun _ ha => ha, fun _ ha => Or.inl ha⟩
  · refine ⟨_, rfl, ?_, ?_, fun a ha => (Table.mem_insert _ _ (id_pendingAccount userId) a).2
      (Or.inl ha), fun a ha => ?_⟩
    · unfold ofUser Table.findFirst at hacc ⊢
      rw [Table.rows_insert, List.find?_append, hacc]
      simp [pendingAccount]
    · intro u
      by_cases hu : u = userId
      · subst hu
        unfold pendingBalance
        rw [hacc]
        unfold ofUser Table.findFirst at hacc ⊢
        rw [Table.rows_insert, List.find?_append, hacc]
        simp [pendingAccount]
      · unfold pendingBalance ofUser
        rw [Table.findFirst_insert _ _ (id_pendingAccount userId)]
        rintro ⟨huser, _⟩
        exact hu (Option.some.inj huser).symm
    · rcases (Table.mem_insert _ _ (id_pendingAccount userId) a).1 ha with ha | rfl
      · exact Or.inl ha
      · exact Or.inr rfl

end Pending

/-- The accounts of the holds, with what keeps them so: a key of a movement belongs to
an entry of that movement of a withdrawal that exists. -/
structure Books (db : Db) : Prop where
  pending : ∀ userId, pendingBalance db.ledger.accounts userId =
    (db.withdrawals.rows.map (heldAmount userId)).sum
  movements : ∀ w ∈ db.withdrawals.rows, ∀ m : Movement,
    (movementsOf db m w.id).length = if m.due w.status then 1 else 0
  keys : ∀ j ∈ db.ledger.journal.rows, ∀ (m : Movement) (k : ℕ), j.idempotencyKey = m.key k →
    j.type = m.type ∧ ∃ w ∈ db.withdrawals.rows, w.id = k

section Books
variable {db db' : Db}

theorem Books.accounted (h : Books db) : Accounted db where
  pending := h.pending
  hold w hw := h.movements w hw .hold
  settle w hw := by
    have hlen := h.movements w hw .settle
    rw [← List.length_pos_iff, hlen]
    by_cases hs : w.status = .paid <;> simp [Movement.due, hs]
  reversal w hw := by
    have hlen := h.movements w hw .reversal
    rw [← List.length_pos_iff, hlen]
    by_cases hs : w.status ∈ [.rejected, .failed] <;> simp [Movement.due, hs]

theorem Books.of_eq (h : Books db) (hl : db'.ledger = db.ledger)
    (hw : db'.withdrawals = db.withdrawals) : Books db' := by
  obtain ⟨hpending, hmovements, hkeys⟩ := h
  refine ⟨?_, ?_, ?_⟩
  · rw [hl, hw]
    exact hpending
  · rw [hw]
    unfold movementsOf at hmovements ⊢
    rw [hl]
    exact hmovements
  · rw [hl, hw]
    exact hkeys

/-- The key of a movement that a withdrawal has not had is unused. -/
theorem Books.unused (h : Books db) {w : Withdrawal} (hw : w ∈ db.withdrawals.rows) {m : Movement}
    (hm : ¬ m.due w.status) : db.ledger.entryByKey (m.key w.id) = none := by
  rw [Ledger.entryByKey_eq_none_iff]
  intro j hj hkey
  have hnil := h.movements w hw m
  rw [if_neg hm, List.length_eq_zero_iff] at hnil
  have hmem : j ∈ movementsOf db m w.id :=
    (Table.mem_findMany _ _ j).2 ⟨hj, (h.keys j hj m w.id hkey).1, hkey⟩
  rw [hnil] at hmem
  cases hmem

theorem Books.unused_fresh (h : Books db) (m : Movement) :
    db.ledger.entryByKey (m.key db.withdrawals.fresh) = none := by
  rw [Ledger.entryByKey_eq_none_iff]
  intro j hj hkey
  obtain ⟨_, w, hw, hid⟩ := h.keys j hj m _ hkey
  exact db.withdrawals.fresh_ne hw hid

theorem due_iff_of_held {s : WithdrawalStatus} (hs : s ∈ held) (m : Movement) :
    m.due s ↔ m = .hold := by
  revert hs
  cases m <;> cases s <;> decide

/-- A held withdrawal may change its status to another held one. -/
theorem Books.relabel (h : Books db) {w : Withdrawal} {k : ℕ} {f : Withdrawal → Withdrawal}
    {hf : ∀ w, Row.id (f w) = Row.id w} (hw : db.withdrawals.find k = some w)
    (hold : w.status ∈ held) (hnew : (f w).status ∈ held)
    (hsame : (f w).userId = w.userId ∧ (f w).amountMinor = w.amountMinor)
    (hl : db'.ledger = db.ledger) (hdb : db'.withdrawals = db.withdrawals.update k f hf) :
    Books db' := by
  obtain ⟨huser, hamount⟩ := hsame
  have hrows : ∀ w' ∈ db'.withdrawals.rows, ∃ x ∈ db.withdrawals.rows, w'.id = x.id ∧
      ∀ m : Movement, m.due w'.status ↔ m.due x.status := by
    intro w' hw'
    rw [hdb] at hw'
    obtain ⟨x, hx, rfl⟩ := (Table.mem_updateWhere _ _ _ hf w').1 hw'
    refine ⟨x, hx, ?_, fun m => ?_⟩
    · split_ifs
      · exact hf x
      · rfl
    · split_ifs with hk
      · have hxw : x = w := Option.some.inj
          (((Table.find_eq_some_iff _ _ _).2 ⟨hx, hk⟩).symm.trans hw)
        rw [hxw, due_iff_of_held hnew, due_iff_of_held hold]
      · exact Iff.rfl
  refine ⟨fun u => ?_, ?_, ?_⟩
  · rw [hl, hdb, h.pending u, Table.sum_update _ _ _ (heldAmount u) hw]
    simp [heldAmount, huser, hamount, hold, hnew]
  · intro w' hw' m
    obtain ⟨x, hx, hid, hdue⟩ := hrows w' hw'
    have hlen := h.movements x hx m
    simp only [movementsOf, hl, hid, hdue m]
    exact hlen
  · intro j hj m n hkey
    rw [hl] at hj
    obtain ⟨htype, x, hx, hid⟩ := h.keys j hj m n hkey
    obtain ⟨x', hx', hid'⟩ := Table.keeps_updateWhere (fun _ => ()) db.withdrawals
      (fun r => Row.id r = k) f hf (fun _ => rfl) x hx
    exact ⟨htype, x', hdb ▸ hx', hid'.1.trans hid⟩

/-- A posting under the key of a movement adds one entry of it, for its withdrawal only. -/
theorem movementsOf_posted {input : PostJournalInput} {accounts : Table LedgerAccount}
    {m : Movement} {k : ℕ} (htype : input.type = m.type) (hkey : input.idempotencyKey = m.key k)
    (hl : db'.ledger = Ledger.posted { db.ledger with accounts := accounts } input)
    (m' : Movement) (k' : ℕ) : (movementsOf db' m' k').length =
      (movementsOf db m' k').length + if m' = m ∧ k' = k then 1 else 0 := by
  unfold movementsOf Table.findMany
  rw [hl, Ledger.posted, Table.rows_insert, List.filter_append, List.length_append]
  have hiff : (input.type = m'.type ∧ input.idempotencyKey = m'.key k') ↔ m' = m ∧ k' = k := by
    rw [htype, hkey]
    constructor
    · rintro ⟨_, heq⟩
      obtain ⟨rfl, rfl⟩ := movement_key_inj heq
      exact ⟨rfl, rfl⟩
    · rintro ⟨rfl, rfl⟩
      exact ⟨rfl, rfl⟩
  by_cases h : m' = m ∧ k' = k
  · obtain ⟨rfl, rfl⟩ := h
    simp [Ledger.entryOf, htype, hkey]
  · simp [Ledger.entryOf, hiff, h]

theorem keys_posted {input : PostJournalInput} {accounts : Table LedgerAccount} (h : Books db)
    {m : Movement} {k : ℕ} (htype : input.type = m.type) (hkey : input.idempotencyKey = m.key k)
    (hl : db'.ledger = Ledger.posted { db.ledger with accounts := accounts } input)
    (hold : ∀ w ∈ db.withdrawals.rows, ∃ w' ∈ db'.withdrawals.rows, w'.id = w.id)
    (hnew : ∃ w' ∈ db'.withdrawals.rows, w'.id = k) :
    ∀ j ∈ db'.ledger.journal.rows, ∀ (m : Movement) (k : ℕ), j.idempotencyKey = m.key k →
      j.type = m.type ∧ ∃ w ∈ db'.withdrawals.rows, w.id = k := by
  intro j hj m' k' hkey'
  rw [hl] at hj
  rcases (Ledger.mem_posted_journal _ input j).1 hj with hj | rfl
  · obtain ⟨htype', w, hw, hid⟩ := h.keys j hj m' k' hkey'
    obtain ⟨w', hw', hid'⟩ := hold w hw
    exact ⟨htype', w', hw', hid'.trans hid⟩
  · obtain ⟨rfl, rfl⟩ := movement_key_inj (hkey'.symm.trans hkey)
    exact ⟨htype, hnew⟩

/-- A new withdrawal with its hold. -/
theorem Books.placed (h : Books db) {userId : ℕ} {mk : ℕ → Withdrawal}
    (hmk : ∀ k, Row.id (mk k) = k) (huser : ∀ k, (mk k).userId = userId)
    (hstatus : ∀ k, (mk k).status ∈ [.requested, .underReview])
    {accounts : Table LedgerAccount} {input : PostJournalInput}
    {pending available : LedgerAccount}
    (hsame : ∀ u, pendingBalance accounts u = pendingBalance db.ledger.accounts u)
    (hpending : ofUser accounts userId .userWithdrawalPending "NGN" = some pending)
    (hmem : available ∈ accounts.rows) (hneq : available.type ≠ .userWithdrawalPending)
    (htype : input.type = .withdrawalHold)
    (hkey : input.idempotencyKey = holdKey db.withdrawals.fresh)
    (hlines : input.lines = [⟨available.id, -(mk db.withdrawals.fresh).amountMinor⟩,
      ⟨pending.id, (mk db.withdrawals.fresh).amountMinor⟩])
    (hl : db'.ledger = Ledger.posted { db.ledger with accounts := accounts } input)
    (hdb : db'.withdrawals = db.withdrawals.insert mk hmk) : Books db' := by
  have hheld : (mk db.withdrawals.fresh).status ∈ held := by
    have hs := hstatus db.withdrawals.fresh
    simp only [List.mem_cons, List.not_mem_nil, or_false] at hs
    rcases hs with hs | hs <;> rw [hs] <;> decide
  have hnone : ∀ m : Movement, (movementsOf db m db.withdrawals.fresh).length = 0 := by
    intro m
    rw [List.length_eq_zero_iff, movementsOf, Table.findMany_eq_nil_iff]
    rintro j hmem ⟨_, hkey'⟩
    exact (Ledger.entryByKey_eq_none_iff _ _).1 (h.unused_fresh m) j hmem hkey'
  refine ⟨fun u => ?_, ?_, ?_⟩
  · have hmoved : pendingBalance db'.ledger.accounts u = pendingBalance accounts u +
        if u = userId then (mk db.withdrawals.fresh).amountMinor else 0 := by
      rw [hl]
      refine pendingBalance_transfer hpending hmem hneq (fun k hk => ?_) u
      simp [hlines, hk.symm]
    have hamount : heldAmount u (mk db.withdrawals.fresh) =
        if u = userId then (mk db.withdrawals.fresh).amountMinor else 0 := by
      simp [heldAmount, huser, hheld, eq_comm]
    rw [hmoved, hsame, h.pending u, hdb, Table.rows_insert, List.map_append, List.sum_append,
      List.map_singleton, List.sum_singleton, hamount]
  · intro w hw m
    rw [hdb] at hw
    rw [movementsOf_posted (m := .hold) htype hkey hl]
    rcases (Table.mem_insert _ _ hmk w).1 hw with hw | rfl
    · rw [if_neg (fun hc => db.withdrawals.fresh_ne hw hc.2), add_zero]
      exact h.movements w hw m
    · rw [show (mk db.withdrawals.fresh).id = db.withdrawals.fresh from hmk _, hnone m, zero_add]
      simp only [due_iff_of_held hheld, and_true]
  · refine keys_posted h (m := .hold) htype hkey hl ?_ ?_
    · intro w hw
      exact ⟨w, hdb ▸ (Table.mem_insert _ _ hmk w).2 (Or.inl hw), rfl⟩
    · exact ⟨_, hdb ▸ (Table.mem_insert _ _ hmk _).2 (Or.inr rfl), hmk _⟩

/-- A settlement or a reversal takes a held amount out of the pending account and
writes the status that it leads to. -/
theorem Books.released (h : Books db) {w : Withdrawal} {f : Withdrawal → Withdrawal}
    (hf : ∀ w, Row.id (f w) = Row.id w) (hw : db.withdrawals.find w.id = some w)
    (hold : w.status ∈ held) (hfree : (f w).status ∉ held) {m : Movement}
    (hdue : ∀ m' : Movement, m'.due (f w).status ↔ m' = .hold ∨ m' = m)
    (hm : m ≠ .hold)
    {accounts : Table LedgerAccount} {input : PostJournalInput} {pending other : LedgerAccount}
    (hsame : ∀ u, pendingBalance accounts u = pendingBalance db.ledger.accounts u)
    (hpending : ofUser accounts w.userId .userWithdrawalPending "NGN" = some pending)
    (hmem : other ∈ accounts.rows) (hneq : other.type ≠ .userWithdrawalPending)
    (htype : input.type = m.type) (hkey : input.idempotencyKey = m.key w.id)
    (hlines : input.lines = [⟨pending.id, -w.amountMinor⟩, ⟨other.id, w.amountMinor⟩])
    {id : ℕ} (hpost : Ledger.post input { db.ledger with accounts := accounts } =
      .ok (id, db'.ledger))
    (hdb : db'.withdrawals = db.withdrawals.update w.id f hf) : Books db' := by
  have hwmem : w ∈ db.withdrawals.rows := ((Table.find_eq_some_iff _ _ _).1 hw).1
  have hl : db'.ledger = Ledger.posted { db.ledger with accounts := accounts } input := by
    obtain ⟨_, ⟨j, hj, _⟩ | ⟨_, _, hl, _⟩⟩ := Ledger.post_ok_cases hpost
    · have hunused := h.unused hwmem (fun hd => hm ((due_iff_of_held hold m).1 hd))
      rw [hkey] at hj
      cases hunused.symm.trans hj
    · exact hl
  have hrow : ∀ w' ∈ db'.withdrawals.rows, w' = f w ∨ (w' ∈ db.withdrawals.rows ∧ w'.id ≠ w.id) := by
    intro w' hw'
    rw [hdb] at hw'
    obtain ⟨x, hx, rfl⟩ := (Table.mem_updateWhere _ _ _ hf w').1 hw'
    split_ifs with hk
    · exact Or.inl (by rw [db.withdrawals.eq_of_id_eq hx hwmem hk])
    · exact Or.inr ⟨hx, hk⟩
  refine ⟨fun u => ?_, ?_, ?_⟩
  · have hmoved : pendingBalance db'.ledger.accounts u = pendingBalance accounts u +
        if u = w.userId then -w.amountMinor else 0 := by
      rw [hl]
      refine pendingBalance_transfer hpending hmem hneq (fun k hk => ?_) u
      simp [hlines, hk.symm]
    rw [hmoved, hsame, h.pending u, hdb, Table.sum_update _ _ _ (heldAmount u) hw]
    by_cases hu : w.userId = u
    · simp [heldAmount, hold, hfree, hu]
    · simp [heldAmount, hfree, hu, Ne.symm hu]
  · intro w' hw' m'
    rw [movementsOf_posted htype hkey hl]
    rcases hrow w' hw' with rfl | ⟨hw', hne⟩
    · rw [show (f w).id = w.id from hf w, h.movements w hwmem m']
      simp only [hdue, due_iff_of_held hold, and_true]
      by_cases hmm : m' = m
      · subst hmm
        simp [hm]
      · simp [hmm]
    · rw [if_neg (fun hc => hne hc.2), add_zero]
      exact h.movements w' hw' m'
  · refine keys_posted h htype hkey hl ?_ ?_
    · intro x hx
      obtain ⟨x', hx', hid, _⟩ := Table.keeps_updateWhere (fun _ => ()) db.withdrawals
        (fun r => Row.id r = w.id) f hf (fun _ => rfl) x hx
      exact ⟨x', hdb ▸ hx', hid⟩
    · refine ⟨f w, ?_, hf w⟩
      rw [hdb]
      exact ((Table.find_eq_some_iff _ _ _).1 (Table.find_update_self _ _ hf hw)).1

end Books

section Transactions
variable {db db' : Db}

theorem Books.reverseTx (h : Books db) {now : DateTime} {w : Withdrawal} {status : ReversalStatus}
    {reason : String} (hw : db.withdrawals.find w.id = some w) (hold : w.status ∈ held)
    (hstatus : status ≠ .reversed) {r : PUnit × Db}
    (hok : Withdrawals.reverseTx now w status reason db = .ok r) : Books r.2 ∧
      r.2.withdrawals = db.withdrawals.update w.id (returned now status reason)
        (id_returned now status reason) := by
  simp only [Withdrawals.reverseTx, bind_ok_iff, userAvailable_ok_iff, Db.post_ok_iff,
    Db.updateWithdrawal_ok_iff, Db.notify_ok_iff] at hok
  obtain ⟨pending, _, hacc, available, _, ⟨hav, rfl⟩, id, _, ⟨l, hpost, rfl⟩, _, _, ⟨_, rfl⟩, hr⟩ :=
    hok
  obtain ⟨accounts, rfl, hpending, hsame, _⟩ := getOrCreatePendingAccount_spec hacc
  obtain ⟨hmem, _, htype, _⟩ := ofUser_some hav
  rw [← hr]
  refine ⟨h.released (m := .reversal) (id_returned now status reason) hw hold ?_ (fun m => ?_) (by rintro ⟨⟩) hsame hpending hmem
    (by rw [htype]; rintro ⟨⟩) rfl rfl rfl hpost rfl, rfl⟩
  · cases status with
    | rejected | failed => simp [held, returned, ReversalStatus.toStatus]
    | reversed => exact absurd rfl hstatus
  · cases status with
    | rejected | failed => cases m <;> simp [Movement.due, returned, ReversalStatus.toStatus]
    | reversed => exact absurd rfl hstatus

theorem Books.settleTx (h : Books db) {now : DateTime} {w : Withdrawal}
    (hw : db.withdrawals.find w.id = some w) (hold : w.status ∈ held) {r : PUnit × Db}
    (hok : Withdrawals.settleTx now w db = .ok r) : Books r.2 ∧
      r.2.withdrawals = db.withdrawals.update w.id (paid now) (id_paid now) := by
  simp only [Withdrawals.settleTx, bind_ok_iff, system_ok_iff, Db.post_ok_iff,
    Db.updateWithdrawal_ok_iff, Db.notify_ok_iff, Db.emit_ok_iff] at hok
  obtain ⟨pending, _, hacc, external, _, ⟨hext, rfl⟩, id, _, ⟨l, hpost, rfl⟩, _, _, ⟨_, rfl⟩, _, _,
    rfl, hr⟩ := hok
  obtain ⟨accounts, rfl, hpending, hsame, _⟩ := getOrCreatePendingAccount_spec hacc
  obtain ⟨hmem, htype, _⟩ := ofSystem_some hext
  rw [← hr]
  refine ⟨h.released (m := .settle) (id_paid now) hw hold (by simp [paid, held])
    (fun m => ?_) (by rintro ⟨⟩) hsame hpending hmem (by rw [htype]; rintro ⟨⟩) rfl rfl rfl hpost rfl,
    rfl⟩
  cases m <;> simp [Movement.due, paid]

theorem Books.requestTx (h : Books db) {userId fraudScore : ℕ} {dto : RequestWithdrawalRequest}
    {w : Withdrawal} (hok : Payouts.requestTx userId dto fraudScore db = .ok (w, db')) :
    Books db' ∧ db'.withdrawals = db.withdrawals.insert (newWithdrawal userId dto fraudScore)
      (id_newWithdrawal userId dto fraudScore) := by
  simp only [Payouts.requestTx, createWithdrawal, bind_ok_iff, userAvailable_ok_iff, get_ok_iff,
    set_ok_iff, Db.post_ok_iff, Db.emit_ok_iff, pure_ok_iff] at hok
  obtain ⟨available, _, ⟨hav, rfl⟩, pending, _, hacc, _, _, ⟨_, _, ⟨rfl, rfl⟩, _, _, rfl, rfl, rfl⟩,
    id, _, ⟨l, hpost, rfl⟩, _, _, rfl, _, rfl⟩ := hok
  obtain ⟨accounts, rfl, hpending, hsame, hkeep, _⟩ := getOrCreatePendingAccount_spec hacc
  obtain ⟨hmem, _, htype, _⟩ := ofUser_some hav
  have hl : l = Ledger.posted { db.ledger with accounts := accounts }
      (holdInput (newWithdrawal userId dto fraudScore db.withdrawals.fresh) available pending) := by
    obtain ⟨_, ⟨j, hj, _⟩ | ⟨_, _, hl, _⟩⟩ := Ledger.post_ok_cases hpost
    · cases (h.unused_fresh .hold).symm.trans hj
    · exact hl
  refine ⟨h.placed (id_newWithdrawal userId dto fraudScore) (fun _ => rfl) (fun k => ?_) hsame
    hpending (hkeep available hmem) (by rw [htype]; rintro ⟨⟩) rfl rfl rfl hl rfl, rfl⟩
  unfold newWithdrawal
  split_ifs <;> simp

end Transactions

section Runs

/-- The books, and the withdrawals that the gateway has been called for: no decision
is open on them, and none is rejected. -/
structure Good (d : Desk) : Prop where
  books : Books d.db
  called : ∀ c ∈ d.gatewayCalls, ∃ w, d.db.withdrawals.find c.1.withdrawalId = some w ∧
    w.status ∈ [.approved, .processing, .paid, .failed]

/-- The withdrawal is in one of the statuses. -/
def At (statuses : List WithdrawalStatus) (withdrawalId : ℕ) (d : Desk) : Prop :=
  ∃ w, d.db.withdrawals.find withdrawalId = some w ∧ w.status ∈ statuses

theorem onDb_triple {α : Type} {P : Desk → Prop} {x : Tx Failure Db α} {Q : α → Desk → Prop}
    {E : Desk → Prop}
    (hok : ∀ d a db', P d → x d.db = .ok (a, db') → Q a { d with db := db' })
    (herr : ∀ d, P d → E d) : Saga.Triple P (onDb x) Q E := by
  refine Saga.Triple.atomically (fun d a d' hP h => ?_) herr
  obtain ⟨db', hx, rfl⟩ := (zoom_ok_iff _ _ _ _ _ _).1 h
  exact hok d a db' hP hx

/-- Writing one status over one withdrawal keeps what is known of the gateway's calls,
if the status is one that a called withdrawal may have. -/
theorem called_update {d : Desk} {db' : Db} {k : ℕ} {f : Withdrawal → Withdrawal}
    {hf : ∀ w, Row.id (f w) = Row.id w} (h : Good d)
    (hdb : db'.withdrawals = d.db.withdrawals.update k f hf)
    (hnew : ∀ w, (f w).status ∈ [.approved, .processing, .paid, .failed] ∨
      ∀ c ∈ d.gatewayCalls, c.1.withdrawalId ≠ k) :
    ∀ c ∈ d.gatewayCalls, ∃ w, db'.withdrawals.find c.1.withdrawalId = some w ∧
      w.status ∈ [.approved, .processing, .paid, .failed] := by
  intro c hc
  obtain ⟨w, hw, hs⟩ := h.called c hc
  refine ⟨if c.1.withdrawalId = k then f w else w, ?_, ?_⟩
  · rw [hdb, Table.find_update, hw, Option.map_some]
  · split_ifs with hk
    · exact (hnew w).resolve_right (fun hno => hno c hc hk)
    · exact hs

theorem Good.not_called {d : Desk} (h : Good d) {k : ℕ} (hk : At decidable k d) :
    ∀ c ∈ d.gatewayCalls, c.1.withdrawalId ≠ k := by
  rintro c hc rfl
  obtain ⟨w, hw, hs⟩ := h.called c hc
  obtain ⟨w', hw', hs'⟩ := hk
  rw [Option.some.inj (hw'.symm.trans hw)] at hs'
  revert hs hs'
  cases w.status <;> decide

section Calls
variable (now : DateTime) (k : ℕ)

theorem reverseHold_good {status : ReversalStatus} (reason : String) :
    Saga.Triple (fun d => Good d ∧ ((status = .failed ∧ At held k d) ∨
        (status = .rejected ∧ At decidable k d)))
      (reverseHold now k status reason) (fun _ => Good) Good := by
  refine Saga.Triple.bind (Q := fun w d => Good d ∧ d.db.withdrawals.find k = some w ∧
    ((status = .failed ∧ w.status ∈ held) ∨ (status = .rejected ∧ w.status ∈ decidable))) ?_ ?_
  · refine onDb_triple (fun d w db' hd h => ?_) (fun d hd => hd.1)
    simp only [findWithdrawal, bind_ok_iff, get_ok_iff, orThrow_ok_iff] at h
    obtain ⟨_, _, ⟨rfl, rfl⟩, hw, rfl⟩ := h
    refine ⟨hd.1, hw, hd.2.imp ?_ ?_⟩
    all_goals
      rintro ⟨hst, w', hw', hs⟩
      exact ⟨hst, Option.some.inj (hw'.symm.trans hw) ▸ hs⟩
  · intro w
    refine onDb_triple (fun d u db' hd h => ?_) (fun d hd => hd.1)
    obtain ⟨hgood, hw, hcase⟩ := hd
    have hid : w.id = k := ((Table.find_eq_some_iff _ _ _).1 hw).2
    subst hid
    have hheld : w.status ∈ held := by
      rcases hcase with ⟨_, hs⟩ | ⟨_, hs⟩
      · exact hs
      · revert hs
        cases w.status <;> decide
    have hne : status ≠ .reversed := by
      rcases hcase with ⟨rfl, _⟩ | ⟨rfl, _⟩ <;> rintro ⟨⟩
    obtain ⟨hbooks, hrows⟩ := hgood.books.reverseTx hw hheld hne h
    have hcalled := called_update hgood hrows (fun x => by
      rcases hcase with ⟨rfl, _⟩ | ⟨rfl, hs⟩
      · exact Or.inl (by simp [returned, ReversalStatus.toStatus])
      · exact Or.inr (hgood.not_called ⟨w, hw, hs⟩))
    exact ⟨hbooks, hcalled⟩

/-- The statuses of a withdrawal that the gateway has been called for. -/
theorem settle_good (success : Bool) (failReason : Option String) :
    Saga.Triple (fun d => Good d ∧ At [.approved, .processing, .paid, .failed] k d)
      (settle now k success failReason) (fun _ => Good) Good := by
  refine Saga.Triple.bind (Q := fun db d => Good d ∧ d.db = db ∧
    At [.approved, .processing, .paid, .failed] k d) ?_ ?_
  · refine onDb_triple (fun d db db' hd h => ?_) (fun d hd => hd.1)
    obtain ⟨rfl, rfl⟩ := (get_ok_iff _ _ _).1 h
    exact ⟨hd.1, rfl, hd.2⟩
  · intro db
    cases hread : Withdrawals.settleRead k db with
    | none => exact Saga.Triple.pure (fun d hd => hd.1)
    | some w =>
      obtain ⟨hw, hopen⟩ := Option.filter_eq_some_iff.1 hread
      have hid : w.id = k := ((Table.find_eq_some_iff _ _ _).1 hw).2
      subst hid
      have hheld : ∀ d : Desk, d.db = db → At [.approved, .processing, .paid, .failed] w.id d →
          w.status ∈ held := by
        rintro d rfl ⟨w', hw', hs⟩
        rw [Option.some.inj (hw'.symm.trans hw)] at hs
        have hopen' := of_decide_eq_true hopen
        revert hs hopen'
        cases w.status <;> decide
      cases success with
      | true =>
        refine onDb_triple (fun d u db' hd h => ?_) (fun d hd => hd.1)
        obtain ⟨hgood, rfl, hat⟩ := hd
        obtain ⟨hbooks, hrows⟩ := hgood.books.settleTx hw (hheld d rfl hat) h
        have hcalled := called_update hgood hrows (fun x => Or.inl (by simp [paid]))
        exact ⟨hbooks, hcalled⟩
      | false =>
        refine (reverseHold_good now w.id _).of_imp (fun d hd => ?_)
        obtain ⟨hgood, rfl, hat⟩ := hd
        exact ⟨hgood, Or.inl ⟨rfl, w, hw, hheld d rfl hat⟩⟩

theorem good_relabel {d : Desk} {db' : Db} {w : Withdrawal} {f : Withdrawal → Withdrawal}
    (hf : ∀ w, Row.id (f w) = Row.id w) (h : Good d) (hw : d.db.withdrawals.find k = some w)
    (hold : w.status ∈ held) (hnew : ∀ w, (f w).status ∈ [.approved, .processing])
    (hsame : (f w).userId = w.userId ∧ (f w).amountMinor = w.amountMinor)
    (hl : db'.ledger = d.db.ledger) (hdb : db'.withdrawals = d.db.withdrawals.update k f hf) :
    Good { d with db := db' } := by
  have hcalled := called_update h hdb (fun x => by
    have hs := hnew x
    simp only [List.mem_cons, List.not_mem_nil, or_false] at hs
    rcases hs with hs | hs <;> simp [hs])
  refine ⟨h.books.relabel hw hold ?_ hsame hl hdb, hcalled⟩
  have hs := hnew w
  simp only [List.mem_cons, List.not_mem_nil, or_false] at hs
  rcases hs with hs | hs <;> rw [hs] <;> decide

/-- From an approved withdrawal on, the payout keeps the books whatever the gateway does. -/
theorem initiatePayout_good (answer : Option PayoutResult) :
    Saga.Triple (fun d => Good d ∧ At [.approved] k d) (initiatePayout now k answer)
      (fun _ => Good) Good := by
  refine Saga.Triple.bind (Q := fun input d => Good d ∧ At [.approved] k d ∧
    input.withdrawalId = k) ?_ (fun input => ?_)
  · refine onDb_triple (fun d input db' hd h => ?_) (fun d hd => hd.1)
    obtain ⟨hid, rfl⟩ := payoutRead_ok h
    exact ⟨hd.1, hd.2, hid⟩
  refine Saga.Triple.bind (Q := fun _ d => Good d ∧ At [.approved] k d) ?_ (fun result => ?_)
  · refine Saga.Triple.bind (Q := fun _ d => Good d ∧ At [.approved] k d) ?_ (fun _ => ?_)
    · refine Saga.Triple.atomically (fun d u d' hd h => ?_) (fun d hd => hd.1)
      rw [modify_ok_iff] at h
      rw [← show _ = d' from h]
      obtain ⟨hgood, ⟨w, hw, hs⟩, rfl⟩ := hd
      refine ⟨⟨hgood.books, fun c hc => ?_⟩, w, hw, hs⟩
      rcases List.mem_append.1 hc with hc | hc
      · exact hgood.called c hc
      · rw [List.mem_singleton.1 hc]
        simp only [List.mem_singleton] at hs
        exact ⟨w, hw, by simp [hs]⟩
    · refine Saga.Triple.atomically (fun d result d' hd h => ?_) (fun d hd => hd.1)
      obtain ⟨_, rfl⟩ := (orThrow_ok_iff _ _ _ _ _).1 h
      exact hd
  have hat : ∀ d : Desk, At [.approved] k d → At held k d := by
    rintro d ⟨w, hw, hs⟩
    rw [List.mem_singleton] at hs
    exact ⟨w, hw, by rw [hs]; decide⟩
  unfold finishPayout
  split_ifs with hfailed hpaid
  · exact (reverseHold_good now k _).of_imp (fun d hd => ⟨hd.1, Or.inl ⟨rfl, hat d hd.2⟩⟩)
  · refine Saga.Triple.bind (Q := fun _ d => Good d ∧ At [.approved, .processing, .paid, .failed] k d)
      ?_ (fun _ => settle_good now k true none)
    refine onDb_triple (fun d u db' hd h => ?_) (fun d hd => hd.1)
    obtain ⟨w, hw, hs⟩ := hat d hd.2
    obtain ⟨_, rfl⟩ := (Db.updateWithdrawal_ok_iff _ _ _ _ _).1 h
    refine ⟨good_relabel k (id_processing result) hd.1 hw hs (fun _ => by simp [processing])
      ⟨rfl, rfl⟩ rfl rfl, processing result w,
      Table.find_update_self _ _ (id_processing result) hw, by simp [processing]⟩
  · refine Saga.Triple.bind (Q := fun _ => Good) ?_ (fun _ => Saga.Triple.pure (fun _ hd => hd))
    refine onDb_triple (fun d u db' hd h => ?_) (fun d hd => hd.1)
    obtain ⟨w, hw, hs⟩ := hat d hd.2
    obtain ⟨_, rfl⟩ := (Db.updateWithdrawal_ok_iff _ _ _ _ _).1 h
    exact good_relabel k (id_processing result) hd.1 hw hs (fun _ => by simp [processing])
      ⟨rfl, rfl⟩ rfl rfl

theorem approve_good (adminId : ℕ) (answer : Option PayoutResult) :
    Saga.Triple Good (approve now adminId k answer) (fun _ => Good) Good := by
  refine Saga.Triple.bind (Q := fun _ d => Good d ∧ At decidable k d) ?_ (fun before => ?_)
  · refine onDb_triple (fun d before db' hd h => ?_) (fun d hd => hd)
    obtain ⟨w, hw, hs, _, heq⟩ := (approveRead_ok_iff adminId k d.db (before, db')).1 h
    obtain rfl : db' = d.db := congrArg Prod.snd heq
    exact ⟨hd, w, hw, hs⟩
  refine Saga.Triple.bind (Q := fun _ d => Good d ∧ At [.approved] k d) ?_ (fun _ => ?_)
  · refine onDb_triple (fun d u db' hd h => ?_) (fun d hd => hd.1)
    obtain ⟨hgood, w, hw, hs⟩ := hd
    obtain ⟨_, rfl⟩ := (Db.updateWithdrawal_ok_iff _ _ _ _ _).1 h
    have hheld : w.status ∈ held := by
      revert hs
      cases w.status <;> decide
    exact ⟨good_relabel k (id_approved adminId) hgood hw hheld (fun _ => by simp [approved])
      ⟨rfl, rfl⟩ rfl rfl, approved adminId w,
      Table.find_update_self _ _ (id_approved adminId) hw, by simp [approved]⟩
  refine Saga.Triple.bind (Q := fun _ d => Good d ∧ At [.approved] k d) ?_
    (fun _ => initiatePayout_good now k answer)
  refine onDb_triple (fun d u db' hd h => ?_) (fun d hd => hd.1)
  obtain rfl := (Db.record_ok_iff _ _ _).1 h
  exact ⟨⟨hd.1.books.of_eq rfl rfl, hd.1.called⟩, hd.2⟩

theorem reject_good (adminId : ℕ) (reason : String) :
    Saga.Triple Good (reject now adminId k reason) (fun _ => Good) Good := by
  refine Saga.Triple.bind (Q := fun _ d => Good d ∧ At decidable k d) ?_ (fun _ => ?_)
  · refine onDb_triple (fun d u db' hd h => ?_) (fun d hd => hd)
    obtain ⟨w, hw, hs, heq⟩ := (rejectRead_ok_iff k d.db (u, db')).1 h
    obtain rfl : db' = d.db := congrArg Prod.snd heq
    exact ⟨hd, w, hw, hs⟩
  refine Saga.Triple.bind (Q := fun _ => Good) ?_ (fun _ => ?_)
  · exact (reverseHold_good now k reason).of_imp (fun d hd => ⟨hd.1, Or.inr ⟨rfl, hd.2⟩⟩)
  · refine onDb_triple (fun d u db' hd h => ?_) (fun d hd => hd)
    obtain rfl := (Db.record_ok_iff _ _ _).1 h
    exact ⟨hd.books.of_eq rfl rfl, hd.called⟩

theorem request_good (userId : ℕ) (dto : RequestWithdrawalRequest) (otp : Except Failure PUnit)
    (fraudScore : Except Failure ℕ) :
    Saga.Triple Good (request userId dto otp fraudScore) (fun _ => Good) Good := by
  have hread : ∀ {α : Type} (x : Tx Failure Db α),
      (∀ a db db', x db = .ok (a, db') → db' = db) →
      Saga.Triple Good (onDb x) (fun _ => Good) Good := by
    intro α x hx
    refine onDb_triple (fun d a db' hd h => ?_) (fun d hd => hd)
    rwa [hx a d.db db' h]
  refine Saga.Triple.bind (Q := fun _ => Good) (hread _ ?_) (fun _ => ?_)
  · intro u db db' h
    exact ((check_ok_iff _ _ _ _).1 h).2.symm
  refine Saga.Triple.bind (Q := fun _ => Good) (hread _ ?_) (fun _ => ?_)
  · intro bank db db' h
    simp only [decryptedFor, bind_ok_iff, get_ok_iff, orThrow_ok_iff] at h
    obtain ⟨_, _, ⟨rfl, rfl⟩, _, rfl⟩ := h
    rfl
  refine Saga.Triple.bind (Q := fun _ => Good) (hread _ ?_) (fun score => ?_)
  · intro score db db' h
    exact ((check_ok_iff _ _ _ _).1 h).2.symm
  refine Saga.Triple.bind (Q := fun _ => Good) ?_ (fun _ => Saga.Triple.pure (fun _ hd => hd))
  refine onDb_triple (fun d w db' hd h => ?_) (fun d hd => hd)
  obtain ⟨hbooks, hrows⟩ := hd.books.requestTx ((rescue_ok_iff _ _ _ _).1 h)
  refine ⟨hbooks, fun c hc => ?_⟩
  obtain ⟨x, hx, hs⟩ := hd.called c hc
  exact ⟨x, hrows ▸ Table.find_insert_of_some _ _ _ hx, hs⟩

end Calls

/-- A webhook is about a withdrawal whose transfer was submitted to the gateway. -/
def FromGateway (call : Call) (d : Desk) : Prop :=
  match call with
  | .webhook _ _ reference => ∃ c ∈ d.gatewayCalls, c.1.withdrawalId = reference
  | _ => True

theorem Good.perform {d : Desk} (h : Good d) {call : Call} (hcall : FromGateway call d) :
    Good (perform call d) := by
  have hbank : ∀ {α : Type} (x : Tx Failure Db α),
      (∀ a db', x d.db = .ok (a, db') → ∃ t, db' = { d.db with bankAccounts := t }) →
      Good (Saga.exec (onDb x) d) := by
    intro α x hx
    refine Saga.Triple.exec (P := fun d' => d' = d) (onDb_triple ?_ ?_) rfl
    · rintro _ a db' rfl hok
      obtain ⟨t, rfl⟩ := hx a db' hok
      exact ⟨h.books.of_eq rfl rfl, h.called⟩
    · rintro _ rfl
      exact h
  cases call with
  | addBankAccount userId dto =>
    refine hbank _ (fun a db' hok => ?_)
    simp only [addBankAccount, bind_ok_iff, get_ok_iff, set_ok_iff, pure_ok_iff] at hok
    obtain ⟨_, _, ⟨rfl, rfl⟩, _, _, rfl, _, rfl⟩ := hok
    exact ⟨_, rfl⟩
  | removeBankAccount now userId id =>
    refine hbank _ (fun a db' hok => ?_)
    simp only [removeBankAccount, bind_ok_iff, get_ok_iff, throwIf_ok_iff, set_ok_iff] at hok
    obtain ⟨_, _, ⟨rfl, rfl⟩, _, _, ⟨_, rfl⟩, rfl⟩ := hok
    exact ⟨_, rfl⟩
  | request userId dto otp fraudScore => exact (request_good userId dto otp fraudScore).exec h
  | approve now adminId k answer => exact (approve_good now k adminId answer).exec h
  | reject now adminId k reason => exact (reject_good now k adminId reason).exec h
  | webhook now event reference =>
    obtain ⟨c, hc, rfl⟩ := hcall
    have hat := h.called c hc
    cases event with
    | success => exact (settle_good now _ true none).exec ⟨h, hat⟩
    | failed => exact (settle_good now _ false (some TransferEvent.failed.name)).exec ⟨h, hat⟩
    | reversed => exact (settle_good now _ false (some TransferEvent.reversed.name)).exec ⟨h, hat⟩

/-- Before the first withdrawal: nothing is pending, and no key of a movement is in use. -/
structure Opened (d : Desk) : Prop where
  withdrawals : d.db.withdrawals.rows = []
  gatewayCalls : d.gatewayCalls = []
  pending : ∀ userId, pendingBalance d.db.ledger.accounts userId = 0
  keys : ∀ j ∈ d.db.ledger.journal.rows, ∀ (m : Movement) (k : ℕ), j.idempotencyKey ≠ m.key k

theorem Opened.good {d : Desk} (h : Opened d) : Good d := by
  refine ⟨⟨fun u => ?_, ?_, ?_⟩, ?_⟩
  · rw [h.pending u, h.withdrawals]
    rfl
  · rw [h.withdrawals]
    simp
  · intro j hj m k hkey
    exact absurd hkey (h.keys j hj m k)
  · rw [h.gatewayCalls]
    simp

/-- In every run of complete calls, whatever the gateway answers and however often its
webhooks come, the pending balances are the amounts held, and every withdrawal has its
one hold and the settlement or reversal that its status calls for. -/
theorem accounted_of_run {d : Desk} (h : Opened d) (calls : List Call)
    (hcalls : Sequential.Along perform FromGateway d calls) :
    Sequential.Throughout perform (fun d => Accounted d.db) d calls := by
  have hgood : Sequential.Throughout perform Good d calls :=
    hcalls.throughout (fun _ _ hcall hgood => hgood.perform hcall) h.good
  exact hgood.mono (fun _ hgood => hgood.books.accounted)

end Runs

section Sample

/-- A user with 1200.00 and a bank account. -/
def savingsDesk : Desk where
  db := { Db.empty with
    ledger :=
      { accounts := ⟨[⟨1, .external, none, none, "NGN", 0⟩,
          ⟨2, .userAvailable, some 7, none, "NGN", 120000⟩], by decide⟩
        journal := Table.empty }
    bankAccounts := ⟨[⟨5, 7, "044", "Access", "0987654321", "Ada", none⟩], by decide⟩ }
  gatewayCalls := []

def savingsRequest : RequestWithdrawalRequest := ⟨60000, by decide, 5⟩

/-- Two requests: one is approved, its confirmation comes twice; the other is rejected. -/
def paidAndRejected : List Call :=
  [.request 7 savingsRequest (.ok ⟨⟩) (.ok 20), .request 7 ⟨50000, by decide, 5⟩ (.ok ⟨⟩) (.ok 80),
    .approve 10 100 0 (some ⟨"PAYSTACK", "tr-1", .processing, none⟩), .webhook 11 .success 0,
    .webhook 12 .failed 0, .reject 13 100 1 "duplicate"]

/-- The transfer is submitted and not confirmed yet. -/
def awaiting : Desk := Sequential.run perform savingsDesk (paidAndRejected.take 3)

theorem fromGateway_paidAndRejected : Sequential.Along perform FromGateway savingsDesk paidAndRejected := by
  have hfirst : ∃ c ∈ awaiting.gatewayCalls, c.1.withdrawalId = 0 := by decide +kernel
  have hagain : ∃ c ∈ (perform (.webhook 11 .success 0) awaiting).gatewayCalls,
      c.1.withdrawalId = 0 := by decide +kernel
  have hrest : Sequential.Along perform FromGateway awaiting (paidAndRejected.drop 3) :=
    ⟨hfirst, hagain, trivial, trivial⟩
  exact (Sequential.along_append perform FromGateway savingsDesk (paidAndRejected.take 3)
    (paidAndRejected.drop 3)).2 ⟨⟨trivial, trivial, trivial, trivial⟩, hrest⟩

theorem accounted_of_run_paidAndRejected :
    Sequential.Throughout perform (fun d => Accounted d.db) savingsDesk paidAndRejected ∧
      (Sequential.run perform savingsDesk paidAndRejected).db.withdrawals.rows.map (·.status) =
        [.paid, .rejected] := by
  refine ⟨accounted_of_run ⟨rfl, rfl, fun u => ?_, fun j hj => by cases hj⟩ paidAndRejected
    fromGateway_paidAndRejected, by decide +kernel⟩
  simp [pendingBalance, ofUser, Table.findFirst, savingsDesk]

end Sample

end HoldAccounting
end FootballIQ
