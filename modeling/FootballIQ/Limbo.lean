import FootballIQ.HoldAccounting

/-!
# Withdrawals that nobody can move

An approval writes APPROVED before it looks up the bank account and calls the
gateway. A withdrawal is left without a way on exactly when an approval stops in
between: the account was removed, the call threw, or a refused transfer could not
be returned.
-/

namespace FootballIQ
namespace Limbo

open Transaction Relational WalletAccounts Withdrawals Payouts HoldAccounting
open PayoutRace (rejectRead rejectRead_ok_iff)
open Transaction.Saga (exec)

section Property

/-- The gateway has accepted a transfer for the withdrawal. -/
def Accepted (d : Desk) (withdrawalId : ℕ) : Prop :=
  ∃ c ∈ d.gatewayCalls, c.1.withdrawalId = withdrawalId ∧ c.2 ∈ [some .processing, some .paid]

/-- Every admin but the requester passes the check of `approve` or that of `reject`. -/
def Movable (d : Desk) (w : Withdrawal) : Prop :=
  ∀ adminId, adminId ≠ w.userId → (∃ r, approveRead adminId w.id d.db = .ok r) ∨
    ∃ r, rejectRead w.id d.db = .ok r

/-- A held withdrawal for which no transfer was accepted can still be moved. -/
def NoLimbo (d : Desk) : Prop :=
  ∀ w ∈ d.db.withdrawals.rows, w.status ∈ held → ¬ Accepted d w.id → Movable d w

def bankAccountOf (db : Db) (w : Withdrawal) : Option BankAccount :=
  db.bankAccounts.findFirst (fun b => b.id = w.bankAccountId ∧ b.userId = w.userId ∧
    b.deletedAt = none)

/-- The hold of the withdrawal can be returned: it has been, or the pending account covers it. -/
def Returnable (db : Db) (w : Withdrawal) : Prop :=
  db.ledger.entryByKey (reverseKey w.id) ≠ none ∨
    w.amountMinor ≤ pendingBalance db.ledger.accounts w.userId

/-- An approval that passes its checks finds the bank account and gets an answer, and
after a refusal the hold can be returned. -/
def GoesThrough (call : Call) (d : Desk) : Prop :=
  match call with
  | .approve _ adminId withdrawalId answer =>
    ∀ w, d.db.withdrawals.find withdrawalId = some w → w.status ∈ decidable →
      w.userId ≠ adminId → bankAccountOf d.db w ≠ none ∧
        ∃ result, answer = some result ∧ (result.status = .failed → Returnable d.db w)
  | _ => True

/-- What every call keeps: covered accounts, a positive amount and a wallet behind every
withdrawal, and no open decision on one that the gateway was called for. -/
structure Kept (d : Desk) : Prop where
  nonNegative : Ledger.NonNegative d.db.ledger
  amounts : ∀ w ∈ d.db.withdrawals.rows, 0 < w.amountMinor
  wallets : ∀ w ∈ d.db.withdrawals.rows,
    ofUser d.db.ledger.accounts w.userId .userAvailable "NGN" ≠ none
  called : ∀ c ∈ d.gatewayCalls, ∃ w, d.db.withdrawals.find c.1.withdrawalId = some w ∧
    w.status ∉ decidable

end Property

section Checks
variable {d : Desk} {w : Withdrawal}

/-- Both checks ask for an undecided status. -/
theorem movable_iff (hw : w ∈ d.db.withdrawals.rows) : Movable d w ↔ w.status ∈ decidable := by
  have hfind : d.db.withdrawals.find w.id = some w := d.db.withdrawals.find_id hw
  constructor
  · intro h
    rcases h (w.userId + 1) (by omega) with ⟨r, hr⟩ | ⟨r, hr⟩
    · obtain ⟨w', hw', hs, _⟩ := (approveRead_ok_iff _ _ _ r).1 hr
      rwa [Option.some.inj (hfind.symm.trans hw')]
    · obtain ⟨w', hw', hs, _⟩ := (rejectRead_ok_iff _ _ r).1 hr
      rwa [Option.some.inj (hfind.symm.trans hw')]
  · intro hs adminId _
    exact Or.inr ⟨(⟨⟩, d.db), (rejectRead_ok_iff _ _ _).2 ⟨w, hfind, hs, rfl⟩⟩

theorem decidable_held {s : WithdrawalStatus} (hs : s ∈ decidable) : s ∈ held := by
  revert hs
  cases s <;> decide

/-- A held and decided withdrawal without an accepted transfer is in limbo. -/
theorem not_noLimbo (hw : w ∈ d.db.withdrawals.rows) (hheld : w.status ∈ held)
    (hdecided : w.status ∉ decidable) (hno : ¬ Accepted d w.id) : ¬ NoLimbo d :=
  fun h => hdecided ((movable_iff hw).1 (h w hw hheld hno))

/-- The rows but one are as they were, and that one is not in limbo. -/
theorem NoLimbo.of_rows {d' : Desk} {k : ℕ} (h : NoLimbo d)
    (hcalls : ∀ c ∈ d.gatewayCalls, c ∈ d'.gatewayCalls)
    (hrows : ∀ w ∈ d'.db.withdrawals.rows, w.id ≠ k → w ∈ d.db.withdrawals.rows)
    (hown : ∀ w ∈ d'.db.withdrawals.rows, w.id = k → w.status ∈ held → ¬ Accepted d' k →
      w.status ∈ decidable) : NoLimbo d' := by
  intro w hw hheld hno
  rw [movable_iff hw]
  by_cases hk : w.id = k
  · exact hown w hw hk hheld (hk ▸ hno)
  · have hw' := hrows w hw hk
    refine (movable_iff hw').1 (h w hw' hheld ?_)
    rintro ⟨c, hc, hacc⟩
    exact hno ⟨c, hcalls c hc, hacc⟩

end Checks

section Ledger
variable {db db' : Db} {userId : ℕ} {pending : LedgerAccount}

theorem getOrCreatePendingAccount_commits (userId : ℕ) (db : Db) :
    ∃ pending db', getOrCreatePendingAccount userId db = .ok (pending, db') := by
  cases hacc : ofUser db.ledger.accounts userId .userWithdrawalPending "NGN" with
  | some existing =>
    exact ⟨existing, db, (getOrCreatePendingAccount_ok_iff _ _ _ _).2 (Or.inl ⟨hacc, rfl⟩)⟩
  | none =>
    exact ⟨_, _, (getOrCreatePendingAccount_ok_iff _ _ _ _).2 (Or.inr ⟨hacc, rfl, rfl⟩)⟩

/-- A user's wallet is still there when accounts have been added. -/
theorem wallet_of_subset {accounts accounts' : Table LedgerAccount}
    (hsub : ∀ a ∈ accounts.rows, a ∈ accounts'.rows) {u : ℕ}
    (h : ofUser accounts u .userAvailable "NGN" ≠ none) :
    ofUser accounts' u .userAvailable "NGN" ≠ none := by
  intro hnone
  apply h
  unfold ofUser at hnone ⊢
  rw [Table.findFirst_eq_none_iff] at hnone ⊢
  exact fun a ha => hnone a (hsub a ha)

/-- What a withdrawal's transaction does to the ledger keeps balances covered and
wallets in place. -/
theorem sustained (h : getOrCreatePendingAccount userId db = .ok (pending, db'))
    {input : PostJournalInput} {id : ℕ} {l : Ledger}
    (hpost : Ledger.post input db'.ledger = .ok (id, l)) :
    (Ledger.NonNegative db.ledger → Ledger.NonNegative l) ∧
      ∀ u, ofUser db.ledger.accounts u .userAvailable "NGN" ≠ none →
        ofUser l.accounts u .userAvailable "NGN" ≠ none := by
  obtain ⟨accounts, rfl, _, _, hkeep, hnew⟩ := getOrCreatePendingAccount_spec h
  have hext := Ledger.extends_of_post hpost
  constructor
  · intro hn
    apply hext.nonNegative
    intro a ha ht
    rcases hnew a ha with ha | hzero
    · exact hn a ha ht
    · exact hzero.ge
  · intro u hu hnone
    have hsame := hext.ofUser u .userAvailable "NGN"
    rw [hnone, Option.map_none, eq_comm, Option.map_eq_none_iff] at hsame
    exact wallet_of_subset hkeep hu hsame

/-- A hold is released exactly when it has been before or the pending account covers it. -/
theorem release_ok_iff {accounts : Table LedgerAccount} {input : PostJournalInput}
    {other : LedgerAccount} {amount : ℤ} (hpos : 0 < amount)
    (hpending : ofUser accounts userId .userWithdrawalPending "NGN" = some pending)
    (hsame : pendingBalance accounts userId = pendingBalance db.ledger.accounts userId)
    (hother : other ∈ accounts.rows)
    (hcovered : other.type ∈ Ledger.nonNegativeAccountTypes → 0 ≤ other.balanceMinor)
    (hlines : input.lines = [⟨pending.id, -amount⟩, ⟨other.id, amount⟩]) :
    (∃ r, Ledger.post input { db.ledger with accounts := accounts } = .ok r) ↔
      db.ledger.entryByKey input.idempotencyKey ≠ none ∨
        amount ≤ pendingBalance db.ledger.accounts userId := by
  obtain ⟨hmem, _, htype, _⟩ := ofUser_some hpending
  have hbalance : pendingBalance db.ledger.accounts userId = pending.balanceMinor := by
    rw [← hsame, pendingBalance, hpending]
    rfl
  rw [hbalance]
  cases hkey : db.ledger.entryByKey input.idempotencyKey with
  | some j =>
    have hvalid : Ledger.validateLines input.lines = .ok () := by
      rw [Ledger.validateLines_ok_iff, hlines]
      refine ⟨le_refl 2, ?_, by simp [Ledger.lineTotal]⟩
      intro line hline
      simp only [List.mem_cons, List.not_mem_nil, or_false] at hline
      rcases hline with rfl | rfl
      · exact neg_ne_zero.2 hpos.ne'
      · exact hpos.ne'
    simp only [ne_eq, reduceCtorEq, not_false_eq_true, true_or, iff_true]
    exact ⟨_, Ledger.post_replay (l := { db.ledger with accounts := accounts }) hvalid hkey⟩
  | none =>
    rw [Ledger.post_transfer_ok_iff (l := { db.ledger with accounts := accounts }) hlines hpos hmem
      hother (by rw [htype]; decide) hcovered hkey]
    simp

/-- A reversal commits exactly when its hold can be returned. -/
theorem reverseTx_commits_iff (now : DateTime) (status : ReversalStatus) (reason : String)
    {w : Withdrawal} (hn : Ledger.NonNegative db.ledger) (hpos : 0 < w.amountMinor)
    (hwallet : ofUser db.ledger.accounts w.userId .userAvailable "NGN" ≠ none)
    (hrow : db.withdrawals.find w.id ≠ none) :
    (∃ r, reverseTx now w status reason db = .ok r) ↔ Returnable db w := by
  obtain ⟨pending, db₁, hacc⟩ := getOrCreatePendingAccount_commits w.userId db
  obtain ⟨accounts, rfl, hpending, hsame, hkeep, hnew⟩ := getOrCreatePendingAccount_spec hacc
  obtain ⟨available, hav⟩ := Option.ne_none_iff_exists'.1 (wallet_of_subset hkeep hwallet)
  obtain ⟨hamem, _, hatype, _⟩ := ofUser_some hav
  have hcovered : 0 ≤ available.balanceMinor := by
    rcases hnew available hamem with ha | hzero
    · exact hn available ha (by rw [hatype]; decide)
    · exact hzero.ge
  have hpost : (∃ r, reverseTx now w status reason db = .ok r) ↔
      ∃ r, Ledger.post (reverseInput w status reason pending available)
        { db.ledger with accounts := accounts } = .ok r := by
    simp only [reverseTx, bind_ok_iff, userAvailable_ok_iff, Db.post_ok_iff,
      Db.updateWithdrawal_ok_iff, Db.notify_ok_iff]
    constructor
    · rintro ⟨_, pending', _, hacc', available', _, ⟨hav', rfl⟩, id, _, ⟨l, hl, _⟩, _⟩
      cases hacc.symm.trans hacc'
      cases hav.symm.trans hav'
      exact ⟨(id, l), hl⟩
    · rintro ⟨⟨id, l⟩, hl⟩
      exact ⟨(⟨⟩, _), pending, _, hacc, available, _, ⟨hav, rfl⟩, id, _, ⟨l, hl, rfl⟩, ⟨⟩, _,
        ⟨hrow, rfl⟩, rfl⟩
  rw [hpost]
  exact release_ok_iff hpos hpending (hsame w.userId) hamem (fun _ => hcovered) rfl

/-- What a committed reversal leaves behind. -/
theorem reverseTx_effect {now : DateTime} {w : Withdrawal} {status : ReversalStatus}
    {reason : String} {u : PUnit} (hok : reverseTx now w status reason db = .ok (u, db')) :
    (Ledger.NonNegative db.ledger → Ledger.NonNegative db'.ledger) ∧
      (∀ u, ofUser db.ledger.accounts u .userAvailable "NGN" ≠ none →
        ofUser db'.ledger.accounts u .userAvailable "NGN" ≠ none) ∧
      db'.withdrawals = db.withdrawals.update w.id (returned now status reason)
        (id_returned now status reason) := by
  simp only [reverseTx, bind_ok_iff, userAvailable_ok_iff, Db.post_ok_iff,
    Db.updateWithdrawal_ok_iff, Db.notify_ok_iff] at hok
  obtain ⟨pending, db₁, hacc, available, _, ⟨_, rfl⟩, id, _, ⟨l, hpost, rfl⟩, _, _, ⟨_, rfl⟩, rfl⟩ :=
    hok
  obtain ⟨hn, hwallets⟩ := sustained hacc hpost
  obtain ⟨accounts, rfl, _⟩ := getOrCreatePendingAccount_spec hacc
  exact ⟨hn, hwallets, rfl⟩

/-- What a committed settlement leaves behind. -/
theorem settleTx_effect {now : DateTime} {w : Withdrawal} {u : PUnit}
    (hok : settleTx now w db = .ok (u, db')) :
    (Ledger.NonNegative db.ledger → Ledger.NonNegative db'.ledger) ∧
      (∀ u, ofUser db.ledger.accounts u .userAvailable "NGN" ≠ none →
        ofUser db'.ledger.accounts u .userAvailable "NGN" ≠ none) ∧
      db'.withdrawals = db.withdrawals.update w.id (paid now) (id_paid now) := by
  simp only [settleTx, bind_ok_iff, system_ok_iff, Db.post_ok_iff, Db.updateWithdrawal_ok_iff,
    Db.notify_ok_iff, Db.emit_ok_iff] at hok
  obtain ⟨pending, db₁, hacc, external, _, ⟨_, rfl⟩, id, _, ⟨l, hpost, rfl⟩, _, _, ⟨_, rfl⟩, _, _,
    rfl, rfl⟩ := hok
  obtain ⟨hn, hwallets⟩ := sustained hacc hpost
  obtain ⟨accounts, rfl, _⟩ := getOrCreatePendingAccount_spec hacc
  exact ⟨hn, hwallets, rfl⟩

end Ledger

/-- What every call but an approval keeps. -/
def Steady (d : Desk) : Prop := Kept d ∧ NoLimbo d

section Steps
variable {d : Desk} {db' : Db} {k : ℕ}

theorem Kept.same (h : Kept d) (hl : db'.ledger = d.db.ledger)
    (hw : db'.withdrawals = d.db.withdrawals) : Kept { d with db := db' } := by
  obtain ⟨hn, hamounts, hwallets, hcalled⟩ := h
  rw [← hl] at hn
  rw [← hw] at hamounts hcalled
  rw [← hl, ← hw] at hwallets
  exact ⟨hn, hamounts, hwallets, hcalled⟩

theorem NoLimbo.same (h : NoLimbo d) (hw : db'.withdrawals = d.db.withdrawals) :
    NoLimbo { d with db := db' } := by
  intro w hmem hheld hno
  have hmem' : w ∈ d.db.withdrawals.rows := hw ▸ hmem
  exact (movable_iff hmem).2 ((movable_iff hmem').1 (h w hmem' hheld hno))

theorem Steady.same (h : Steady d) (hl : db'.ledger = d.db.ledger)
    (hw : db'.withdrawals = d.db.withdrawals) : Steady { d with db := db' } :=
  ⟨h.1.same hl hw, h.2.same hw⟩

section Update
variable {f : Withdrawal → Withdrawal} (hf : ∀ w, Row.id (f w) = Row.id w)

/-- A decided status is written over one row. -/
theorem Kept.update (h : Kept d) (hn : Ledger.NonNegative db'.ledger)
    (hwallets : ∀ u, ofUser d.db.ledger.accounts u .userAvailable "NGN" ≠ none →
      ofUser db'.ledger.accounts u .userAvailable "NGN" ≠ none)
    (hdb : db'.withdrawals = d.db.withdrawals.update k f hf)
    (hsame : ∀ w, (f w).userId = w.userId ∧ (f w).amountMinor = w.amountMinor)
    (hdecided : ∀ w, (f w).status ∉ decidable) : Kept { d with db := db' } := by
  have hrow : ∀ w' ∈ db'.withdrawals.rows, ∃ w ∈ d.db.withdrawals.rows,
      w'.userId = w.userId ∧ w'.amountMinor = w.amountMinor := by
    intro w' hw'
    rw [hdb] at hw'
    obtain ⟨w, hw, rfl⟩ := (Table.mem_updateWhere _ _ _ hf w').1 hw'
    refine ⟨w, hw, ?_⟩
    split_ifs
    · exact hsame w
    · exact ⟨rfl, rfl⟩
  refine ⟨hn, ?_, ?_, ?_⟩
  · intro w' hw'
    obtain ⟨w, hw, _, hamount⟩ := hrow w' hw'
    rw [hamount]
    exact h.amounts w hw
  · intro w' hw'
    obtain ⟨w, hw, huser, _⟩ := hrow w' hw'
    rw [huser]
    exact hwallets w.userId (h.wallets w hw)
  · intro c hc
    obtain ⟨w, hw, hs⟩ := h.called c hc
    refine ⟨if c.1.withdrawalId = k then f w else w, ?_, ?_⟩
    · change db'.withdrawals.find _ = _
      rw [hdb, Table.find_update, hw, Option.map_some]
    · split_ifs
      · exact hdecided w
      · exact hs

/-- A status is written over one row that is no longer held, or whose transfer was accepted. -/
theorem NoLimbo.update (h : NoLimbo d) (hdb : db'.withdrawals = d.db.withdrawals.update k f hf)
    (hout : (∀ w, (f w).status ∉ held) ∨ Accepted d k) : NoLimbo { d with db := db' } := by
  refine h.of_rows (k := k) (fun c hc => hc) (fun w' hw' hne => ?_) (fun w' hw' hid hheld hno => ?_)
  · change w' ∈ db'.withdrawals.rows at hw'
    rw [hdb] at hw'
    exact Table.mem_of_mem_update _ _ hf hw' hne
  · rcases hout with hout | hacc
    · change w' ∈ db'.withdrawals.rows at hw'
      rw [hdb] at hw'
      obtain ⟨w, hw, rfl⟩ := (Table.mem_updateWhere _ _ _ hf w').1 hw'
      split_ifs at hid hheld with hk
      · exact absurd hheld (hout w)
      · exact absurd hid hk
    · exact absurd hacc hno

end Update

theorem returned_not_held (now : DateTime) (status : ReversalStatus) (reason : String)
    (w : Withdrawal) : (returned now status reason w).status ∉ held := by
  cases status <;> simp [returned, ReversalStatus.toStatus, held]

theorem reverseTx_kept {now : DateTime} {w : Withdrawal} {status : ReversalStatus}
    {reason : String} {u : PUnit} (h : Kept d)
    (hok : reverseTx now w status reason d.db = .ok (u, db')) : Kept { d with db := db' } := by
  obtain ⟨hn, hwallets, hdb⟩ := reverseTx_effect hok
  exact h.update (id_returned now status reason) (hn h.nonNegative) hwallets hdb
    (fun _ => ⟨rfl, rfl⟩)
    (fun w hs => returned_not_held now status reason w (decidable_held hs))

theorem reverseTx_steady {now : DateTime} {w : Withdrawal} {status : ReversalStatus}
    {reason : String} {u : PUnit} (h : Steady d)
    (hok : reverseTx now w status reason d.db = .ok (u, db')) : Steady { d with db := db' } :=
  ⟨reverseTx_kept h.1 hok, h.2.update (id_returned now status reason) (reverseTx_effect hok).2.2
    (Or.inl (returned_not_held now status reason))⟩

theorem settleTx_steady {now : DateTime} {w : Withdrawal} {u : PUnit} (h : Steady d)
    (hok : settleTx now w d.db = .ok (u, db')) : Steady { d with db := db' } := by
  obtain ⟨hn, hwallets, hdb⟩ := settleTx_effect hok
  have hstatus : ∀ w, (paid now w).status ∉ held := fun w => by simp [paid, held]
  constructor
  · exact h.1.update (id_paid now) (hn h.1.nonNegative) hwallets hdb (fun _ => ⟨rfl, rfl⟩)
      (fun w hs => hstatus w (decidable_held hs))
  · exact h.2.update (id_paid now) hdb (Or.inl hstatus)

/-- A new withdrawal is undecided. -/
theorem requestTx_steady {userId fraudScore : ℕ} {dto : RequestWithdrawalRequest} {w : Withdrawal}
    (h : Steady d) (hok : requestTx userId dto fraudScore d.db = .ok (w, db')) :
    Steady { d with db := db' } := by
  simp only [requestTx, createWithdrawal, bind_ok_iff, userAvailable_ok_iff, get_ok_iff,
    set_ok_iff, Db.post_ok_iff, Db.emit_ok_iff, pure_ok_iff] at hok
  obtain ⟨available, _, ⟨hav, rfl⟩, pending, db₁, hacc, _, _, ⟨_, _, ⟨rfl, rfl⟩, _, _, rfl, rfl, rfl⟩,
    id, _, ⟨l, hpost, rfl⟩, _, _, rfl, _, rfl⟩ := hok
  obtain ⟨hn, hwallets⟩ := sustained hacc hpost
  obtain ⟨accounts, rfl, _⟩ := getOrCreatePendingAccount_spec hacc
  have hstatus : ∀ k, (newWithdrawal userId dto fraudScore k).status ∈ decidable := by
    intro k
    unfold newWithdrawal
    split_ifs <;> simp [decidable]
  have hmem := Table.mem_insert d.db.withdrawals (newWithdrawal userId dto fraudScore)
    (id_newWithdrawal userId dto fraudScore)
  constructor
  · refine ⟨hn h.1.nonNegative, fun w hw => ?_, fun w hw => ?_, fun c hc => ?_⟩
    · rcases (hmem w).1 hw with hw | rfl
      · exact h.1.amounts w hw
      · have hmin := dto.amount_min
        change 0 < dto.amountMinor
        omega
    · apply hwallets
      rcases (hmem w).1 hw with hw | rfl
      · exact h.1.wallets w hw
      · change ofUser d.db.ledger.accounts userId .userAvailable "NGN" ≠ none
        rw [hav]
        rintro ⟨⟩
    · obtain ⟨w, hw, hs⟩ := h.1.called c hc
      exact ⟨w, Table.find_insert_of_some _ _ (id_newWithdrawal userId dto fraudScore) hw, hs⟩
  · refine h.2.of_rows (k := d.db.withdrawals.fresh) (fun c hc => hc) (fun w hw hne => ?_)
      (fun w hw hid _ _ => ?_)
    · rcases (hmem w).1 hw with hw | rfl
      · exact hw
      · exact absurd (id_newWithdrawal userId dto fraudScore _) hne
    · rcases (hmem w).1 hw with hw | rfl
      · exact absurd hid (d.db.withdrawals.fresh_ne hw)
      · exact hstatus _

end Steps

section Calls
variable (now : DateTime) (k : ℕ)

theorem onDb_steady {α : Type} {x : Tx Failure Db α}
    (hx : ∀ d a db', Steady d → x d.db = .ok (a, db') → Steady { d with db := db' }) :
    Saga.Triple Steady (onDb x) (fun _ => Steady) Steady :=
  onDb_triple (fun d a db' hd h => hx d a db' hd h) (fun _ hd => hd)

/-- A step that only reads, or writes none of the tables that matter here. -/
theorem onDb_aside {α : Type} {x : Tx Failure Db α}
    (hx : ∀ db a db', x db = .ok (a, db') → db'.ledger = db.ledger ∧ db'.withdrawals = db.withdrawals) :
    Saga.Triple Steady (onDb x) (fun _ => Steady) Steady :=
  onDb_steady (fun d a db' hd h => hd.same (hx d.db a db' h).1 (hx d.db a db' h).2)

theorem reverseHold_steady (status : ReversalStatus) (reason : String) :
    Saga.Triple Steady (reverseHold now k status reason) (fun _ => Steady) Steady := by
  apply Saga.Triple.bind (Q := fun _ => Steady)
  · apply onDb_aside
    intro db w db' h
    simp only [findWithdrawal, bind_ok_iff, get_ok_iff, orThrow_ok_iff] at h
    obtain ⟨_, _, ⟨rfl, rfl⟩, _, rfl⟩ := h
    exact ⟨rfl, rfl⟩
  · intro w
    exact onDb_steady (fun d u db' hd h => reverseTx_steady hd h)

theorem settle_steady (success : Bool) (failReason : Option String) :
    Saga.Triple Steady (settle now k success failReason) (fun _ => Steady) Steady := by
  apply Saga.Triple.bind (Q := fun _ => Steady)
  · apply onDb_aside
    intro db db₁ db' h
    obtain ⟨_, rfl⟩ := (get_ok_iff _ _ _).1 h
    exact ⟨rfl, rfl⟩
  · intro db
    cases Withdrawals.settleRead k db with
    | none => exact Saga.Triple.pure (fun d hd => hd)
    | some w =>
      cases success with
      | true => exact onDb_steady (fun d u db' hd h => settleTx_steady hd h)
      | false => exact reverseHold_steady now k .failed _

theorem reject_steady (adminId : ℕ) (reason : String) :
    Saga.Triple Steady (reject now adminId k reason) (fun _ => Steady) Steady := by
  apply Saga.Triple.bind (Q := fun _ => Steady)
  · apply onDb_aside
    intro db u db' h
    obtain ⟨_, _, _, heq⟩ := (rejectRead_ok_iff k db (u, db')).1 h
    obtain rfl : db' = db := congrArg Prod.snd heq
    exact ⟨rfl, rfl⟩
  · intro u
    apply Saga.Triple.bind (reverseHold_steady now k .rejected reason)
    intro u
    apply onDb_aside
    intro db u db' h
    obtain rfl := (Db.record_ok_iff _ _ _).1 h
    exact ⟨rfl, rfl⟩

theorem request_steady (userId : ℕ) (dto : RequestWithdrawalRequest) (otp : Except Failure PUnit)
    (fraudScore : Except Failure ℕ) :
    Saga.Triple Steady (request userId dto otp fraudScore) (fun _ => Steady) Steady := by
  have hcheck : ∀ {α : Type} (x : Except Failure α),
      Saga.Triple Steady (onDb (check x)) (fun _ => Steady) Steady := by
    intro α x
    apply onDb_aside
    intro db a db' h
    obtain ⟨_, rfl⟩ := (check_ok_iff _ _ _ _).1 h
    exact ⟨rfl, rfl⟩
  apply Saga.Triple.bind (hcheck otp)
  intro u
  apply Saga.Triple.bind (Q := fun _ => Steady)
  · apply onDb_aside
    intro db bank db' h
    simp only [decryptedFor, bind_ok_iff, get_ok_iff, orThrow_ok_iff] at h
    obtain ⟨_, _, ⟨rfl, rfl⟩, _, rfl⟩ := h
    exact ⟨rfl, rfl⟩
  · intro bank
    apply Saga.Triple.bind (hcheck fraudScore)
    intro score
    apply Saga.Triple.bind (Q := fun _ => Steady)
    · exact onDb_steady (fun d w db' hd h => requestTx_steady hd ((rescue_ok_iff _ _ _ _).1 h))
    · intro w
      exact Saga.Triple.pure (fun d hd => hd)

theorem onTransferWebhook_steady (event : TransferEvent) :
    Saga.Triple Steady (onTransferWebhook now event k) (fun _ => Steady) Steady := by
  cases event with
  | success => exact settle_steady now k true none
  | failed => exact settle_steady now k false (some TransferEvent.failed.name)
  | reversed => exact settle_steady now k false (some TransferEvent.reversed.name)

theorem addBankAccount_steady (userId : ℕ) (dto : AddBankAccountRequest) :
    Saga.Triple Steady (onDb (addBankAccount userId dto)) (fun _ => Steady) Steady := by
  apply onDb_aside
  intro db id db' h
  simp only [addBankAccount, bind_ok_iff, get_ok_iff, set_ok_iff, pure_ok_iff] at h
  obtain ⟨_, _, ⟨rfl, rfl⟩, _, _, rfl, _, rfl⟩ := h
  exact ⟨rfl, rfl⟩

theorem removeBankAccount_steady (userId id : ℕ) :
    Saga.Triple Steady (onDb (removeBankAccount now userId id)) (fun _ => Steady) Steady := by
  apply onDb_aside
  intro db u db' h
  simp only [removeBankAccount, bind_ok_iff, get_ok_iff, throwIf_ok_iff, set_ok_iff] at h
  obtain ⟨_, _, ⟨rfl, rfl⟩, _, _, ⟨_, rfl⟩, rfl⟩ := h
  exact ⟨rfl, rfl⟩

/-- Once the gateway has accepted the transfer, the payout may stop anywhere. -/
theorem finishPayout_steady {result : PayoutResult} (hresult : result.status ≠ .failed) :
    Saga.Triple (fun d => Steady d ∧ Accepted d k) (finishPayout now k result)
      (fun _ => Steady) Steady := by
  unfold finishPayout
  rw [if_neg hresult]
  apply Saga.Triple.bind (Q := fun _ => Steady)
  · refine onDb_triple (fun d u db' hd h => ?_) (fun d hd => hd.1)
    obtain ⟨⟨hkept, hno⟩, hacc⟩ := hd
    obtain ⟨_, rfl⟩ := (Db.updateWithdrawal_ok_iff _ _ _ _ _).1 h
    exact ⟨hkept.update (id_processing result) hkept.nonNegative (fun _ hu => hu) rfl
      (fun _ => ⟨rfl, rfl⟩) (fun _ => by simp [processing, decidable]),
      hno.update (id_processing result) rfl (Or.inr hacc)⟩
  · intro u
    split_ifs
    · exact settle_steady now k true none
    · exact Saga.Triple.pure (fun d hd => hd)

end Calls

section Approval
variable {d : Desk} {k adminId : ℕ} {w : Withdrawal}

theorem exec_onDb_of_ok {α β : Type} {x : Tx Failure Db α} {f : α → Saga Failure Desk β} {a : α}
    {db' : Db} (h : x d.db = .ok (a, db')) :
    exec (onDb x >>= f) d = exec (f a) { d with db := db' } := by
  have hzoom := (zoom_ok_iff Desk.db (fun db d => { d with db := db }) x d _ a).2 ⟨db', h, rfl⟩
  unfold exec onDb
  rw [Saga.bind_of_ok (Saga.atomically_of_ok hzoom)]

theorem exec_onDb_of_error {α β : Type} {x : Tx Failure Db α} {f : α → Saga Failure Desk β}
    (h : ∀ r, x d.db ≠ .ok r) : exec (onDb x >>= f) d = d := by
  rcases Saga.exec_bind_cases (zoom Desk.db (fun db d => { d with db := db }) x) f d with
    ⟨a, d', hok, _⟩ | ⟨_, hexec⟩
  · obtain ⟨db', hx, _⟩ := (zoom_ok_iff _ _ _ _ _ _).1 hok
    exact absurd hx (h _)
  · exact hexec

/-- The desk when an approval has been written and recorded. -/
def approvedDesk (adminId k : ℕ) (before : WithdrawalStatus) (d : Desk) : Desk :=
  { d with db := { d.db with
    withdrawals := d.db.withdrawals.update k (approved adminId) (id_approved adminId)
    auditLog := d.db.auditLog ++ [⟨adminId, "withdrawal.approve", k, [("status", before.name)],
      [("status", "APPROVED")]⟩] } }

theorem exec_approve (now : DateTime) (answer : Option PayoutResult)
    (hw : d.db.withdrawals.find k = some w) (hs : w.status ∈ decidable) (hne : w.userId ≠ adminId) :
    exec (approve now adminId k answer) d =
      exec (initiatePayout now k answer) (approvedDesk adminId k w.status d) := by
  have hread := (approveRead_ok_iff adminId k d.db (w.status, d.db)).2 ⟨w, hw, hs, hne, rfl⟩
  have hrow : d.db.withdrawals.find k ≠ none := by
    rw [hw]
    rintro ⟨⟩
  have hupdate : approveUpdate adminId k d.db = .ok (⟨⟩, { d.db with
      withdrawals := d.db.withdrawals.update k (approved adminId) (id_approved adminId) }) :=
    (Db.updateWithdrawal_ok_iff _ _ _ _ _).2 ⟨hrow, rfl⟩
  have haudit : approveAudit adminId k w.status { d.db with
      withdrawals := d.db.withdrawals.update k (approved adminId) (id_approved adminId) } =
      .ok (⟨⟩, (approvedDesk adminId k w.status d).db) := (Db.record_ok_iff _ _ _).2 rfl
  unfold approve
  rw [exec_onDb_of_ok hread, exec_onDb_of_ok hupdate, exec_onDb_of_ok haudit]
  rfl

/-- The desk when the gateway has been called. -/
def calledDesk (input : PayoutInput) (answer : Option PayoutStatus) (d : Desk) : Desk :=
  { d with gatewayCalls := d.gatewayCalls ++ [(input, answer)] }

/-- The desk when the gateway has been called for the approved withdrawal. -/
def submittedDesk (adminId : ℕ) (before : WithdrawalStatus) (input : PayoutInput)
    (answer : Option PayoutStatus) (d : Desk) : Desk :=
  calledDesk input answer (approvedDesk adminId input.withdrawalId before d)

theorem payoutRead_ok_iff (db : Db) (hw : db.withdrawals.find k = some w) (input : PayoutInput)
    (db' : Db) : payoutRead k db = .ok (input, db') ↔ ∃ b, bankAccountOf db w = some b ∧
      input = ⟨k, w.amountMinor, "NGN", b.bankCode, b.accountNumber, b.accountName, k⟩ ∧
      db' = db := by
  simp only [payoutRead, decryptedFor, bind_ok_iff, get_ok_iff, orThrow_ok_iff, pure_ok_iff]
  constructor
  · rintro ⟨_, _, ⟨rfl, rfl⟩, w', _, ⟨hw', rfl⟩, b, _, ⟨_, _, ⟨rfl, rfl⟩, hb, rfl⟩, rfl, rfl⟩
    cases hw.symm.trans hw'
    exact ⟨b, hb, rfl, rfl⟩
  · rintro ⟨b, hb, rfl, rfl⟩
    exact ⟨_, _, ⟨rfl, rfl⟩, w, _, ⟨hw, rfl⟩, b, _, ⟨_, _, ⟨rfl, rfl⟩, hb, rfl⟩, rfl, rfl⟩

theorem exec_initiatePayout_of_none (now : DateTime) (answer : Option PayoutResult)
    (hw : d.db.withdrawals.find k = some w) (hb : bankAccountOf d.db w = none) :
    exec (initiatePayout now k answer) d = d := by
  apply exec_onDb_of_error
  rintro ⟨input, db'⟩ hread
  obtain ⟨b, hb', _⟩ := (payoutRead_ok_iff d.db hw input db').1 hread
  cases hb.symm.trans hb'

theorem exec_initiatePayout_of_some (now : DateTime) (answer : Option PayoutResult)
    (hw : d.db.withdrawals.find k = some w) {b : BankAccount} (hb : bankAccountOf d.db w = some b) :
    ∃ input : PayoutInput, input.withdrawalId = k ∧ exec (initiatePayout now k answer) d =
      match answer with
      | none => calledDesk input none d
      | some result => exec (finishPayout now k result) (calledDesk input (some result.status) d) := by
  refine ⟨⟨k, w.amountMinor, "NGN", b.bankCode, b.accountNumber, b.accountName, k⟩, rfl, ?_⟩
  unfold initiatePayout
  rw [exec_onDb_of_ok ((payoutRead_ok_iff d.db hw _ _).2 ⟨b, hb, rfl, rfl⟩)]
  cases answer with
  | none => rfl
  | some result => rfl

/-- A reversal of the row that it finds: its transaction commits, or nothing happens. -/
theorem exec_reverseHold (now : DateTime) (status : ReversalStatus) (reason : String)
    (hw : d.db.withdrawals.find k = some w) :
    exec (reverseHold now k status reason) d =
      exec (onDb (reverseTx now w status reason)) d := by
  have hread : findWithdrawal k d.db = .ok (w, d.db) := by
    simp only [findWithdrawal, bind_ok_iff, get_ok_iff, orThrow_ok_iff]
    exact ⟨d.db, d.db, ⟨rfl, rfl⟩, hw, rfl⟩
  exact exec_onDb_of_ok hread

theorem exec_onDb_cases {α : Type} (x : Tx Failure Db α) (d : Desk) :
    (∃ a db', x d.db = .ok (a, db') ∧ exec (onDb x) d = { d with db := db' }) ∨
      ((∀ r, x d.db ≠ .ok r) ∧ exec (onDb x) d = d) := by
  have hexec := Saga.exec_atomically (zoom Desk.db (fun db d => { d with db := db }) x) d
  rcases commit_cases (zoom Desk.db (fun db d => { d with db := db }) x) d with
    ⟨a, d', hok, hc⟩ | ⟨e, herr, hc⟩
  · obtain ⟨db', hx, rfl⟩ := (zoom_ok_iff _ _ _ _ _ _).1 hok
    exact Or.inl ⟨a, db', hx, hexec.trans hc⟩
  · refine Or.inr ⟨?_, hexec.trans hc⟩
    rintro ⟨a, db'⟩ hx
    cases herr.symm.trans ((zoom_ok_iff _ _ _ _ _ _).2 ⟨db', hx, rfl⟩)

theorem kept_approvedDesk {before : WithdrawalStatus} (h : Kept d) :
    Kept (approvedDesk adminId k before d) :=
  h.update (id_approved adminId) h.nonNegative (fun _ hu => hu) rfl (fun _ => ⟨rfl, rfl⟩)
    (fun _ => by simp [approved, decidable])

/-- A desk whose approved withdrawal no transfer was accepted for is in limbo. -/
theorem approved_stuck {d' : Desk} (hfind : d'.db.withdrawals.find k = some (approved adminId w))
    (hno : ¬ Accepted d' k) : ¬ NoLimbo d' := by
  obtain ⟨hmem, hid⟩ := (Table.find_eq_some_iff _ _ _).1 hfind
  exact not_noLimbo hmem (by simp [approved, held]) (by simp [approved, decidable])
    (by rwa [show (approved adminId w).id = k from hid])

theorem find_submittedDesk {input : PayoutInput}
    (hw : d.db.withdrawals.find input.withdrawalId = some w) (before : WithdrawalStatus)
    (answer : Option PayoutStatus) :
    (submittedDesk adminId before input answer d).db.withdrawals.find input.withdrawalId =
      some (approved adminId w) :=
  Table.find_update_self _ _ (id_approved adminId) hw

/-- Whatever happens after the approval, only its own row can be in limbo. -/
theorem noLimbo_after {d' : Desk} {w' : Withdrawal} (h : NoLimbo d)
    (hcalls : ∀ c ∈ d.gatewayCalls, c ∈ d'.gatewayCalls)
    (hrows : ∀ x ∈ d'.db.withdrawals.rows, x.id ≠ k → x ∈ d.db.withdrawals.rows)
    (hfind : d'.db.withdrawals.find k = some w') (hout : w'.status ∉ held ∨ Accepted d' k) :
    NoLimbo d' := by
  refine h.of_rows (k := k) hcalls hrows (fun x hx hid hheld hno => ?_)
  have hxw : x = w' := Option.some.inj
    (((Table.find_eq_some_iff _ _ _).2 ⟨hx, hid⟩).symm.trans hfind)
  rcases hout with hout | hacc
  · exact absurd (hxw ▸ hheld) hout
  · exact absurd hacc hno

theorem not_accepted (h : Steady d) (hw : d.db.withdrawals.find k = some w)
    (hs : w.status ∈ decidable) : ¬ Accepted d k := by
  rintro ⟨c, hc, hck, _⟩
  obtain ⟨w', hw', hs'⟩ := h.1.called c hc
  rw [hck] at hw'
  cases hw.symm.trans hw'
  exact hs' hs

section Stages
variable (h : Steady d) {input : PayoutInput} (hw : d.db.withdrawals.find input.withdrawalId = some w)
include h hw

theorem kept_submittedDesk (before : WithdrawalStatus) (answer : Option PayoutStatus) :
    Kept (submittedDesk adminId before input answer d) := by
  have hkept : Kept (approvedDesk adminId input.withdrawalId before d) := kept_approvedDesk h.1
  refine ⟨hkept.nonNegative, hkept.amounts, hkept.wallets, fun c hc => ?_⟩
  rcases List.mem_append.1 hc with hc | hc
  · exact hkept.called c hc
  · rw [List.mem_singleton.1 hc]
    exact ⟨approved adminId w, Table.find_update_self _ _ (id_approved adminId) hw,
      by simp [approved, decidable]⟩

theorem accepted_submittedDesk_iff (hs : w.status ∈ decidable) (before : WithdrawalStatus)
    (answer : Option PayoutStatus) :
    Accepted (submittedDesk adminId before input answer d) input.withdrawalId ↔
      answer ∈ [some .processing, some .paid] := by
  constructor
  · rintro ⟨c, hc, hck, hacc⟩
    rcases List.mem_append.1 hc with hc | hc
    · exact absurd ⟨c, hc, hck, hacc⟩ (not_accepted h hw hs)
    · rw [List.mem_singleton.1 hc] at hacc
      exact hacc
  · intro hacc
    exact ⟨(input, answer), List.mem_append_right _ (List.mem_singleton.2 rfl), rfl, hacc⟩

/-- After an accepted transfer the withdrawal may stay where it is. -/
theorem accepted_steady (adminId : ℕ) (hs : w.status ∈ decidable) (now : DateTime) (before : WithdrawalStatus)
    {result : PayoutResult} (hresult : result.status ≠ .failed) :
    Steady (exec (finishPayout now input.withdrawalId result)
      (submittedDesk adminId before input (some result.status) d)) := by
  have hacc : Accepted (submittedDesk adminId before input (some result.status) d)
      input.withdrawalId := by
    rw [accepted_submittedDesk_iff h hw hs]
    cases hstatus : result.status with
    | processing | paid => simp
    | failed => exact absurd hstatus hresult
  apply (finishPayout_steady now input.withdrawalId hresult).exec
  refine ⟨⟨kept_submittedDesk h hw before _, ?_⟩, hacc⟩
  exact noLimbo_after h.2 (fun c hc => List.mem_append_left _ hc)
    (fun x hx hne => Table.mem_of_mem_update _ _ (id_approved adminId) hx hne)
    (find_submittedDesk hw before _) (Or.inr hacc)

/-- After a refused transfer the hold has to go back. -/
theorem refused_keeps (adminId : ℕ) (hs : w.status ∈ decidable) (now : DateTime) (before : WithdrawalStatus)
    {result : PayoutResult} (hresult : result.status = .failed) :
    Kept (exec (finishPayout now input.withdrawalId result)
        (submittedDesk adminId before input (some result.status) d)) ∧
      (NoLimbo (exec (finishPayout now input.withdrawalId result)
        (submittedDesk adminId before input (some result.status) d)) ↔ Returnable d.db w) := by
  have hkept : Kept (submittedDesk adminId before input (some result.status) d) :=
    kept_submittedDesk h hw before (some result.status)
  have hfind : (submittedDesk adminId before input (some result.status) d).db.withdrawals.find
      input.withdrawalId = some (approved adminId w) :=
    find_submittedDesk hw before (some result.status)
  obtain ⟨hmem, hid⟩ := (Table.find_eq_some_iff _ _ _).1 hw
  have hcommits := reverseTx_commits_iff now .failed
    (result.failReason.getD "Gateway rejected transfer") (w := approved adminId w)
    hkept.nonNegative (h.1.amounts w hmem) (h.1.wallets w hmem) (by
      rw [show (approved adminId w).id = input.withdrawalId from hid, hfind]
      rintro ⟨⟩)
  unfold finishPayout
  rw [if_pos hresult, exec_reverseHold now .failed _ hfind]
  rcases exec_onDb_cases (reverseTx now (approved adminId w) .failed
      (result.failReason.getD "Gateway rejected transfer"))
    (submittedDesk adminId before input (some result.status) d) with
    ⟨u, db', hok, hexec⟩ | ⟨hfail, hexec⟩
  · rw [hexec]
    refine ⟨reverseTx_kept hkept hok, iff_of_true ?_ (hcommits.1 ⟨_, hok⟩)⟩
    obtain ⟨_, _, hdb⟩ := reverseTx_effect hok
    rw [show (approved adminId w).id = input.withdrawalId from hid] at hdb
    have hlast : db'.withdrawals.find input.withdrawalId = some (returned now .failed
        (result.failReason.getD "Gateway rejected transfer") (approved adminId w)) := by
      rw [hdb]
      exact Table.find_update_self _ _ (id_returned now .failed _) hfind
    have hrows : ∀ x ∈ db'.withdrawals.rows, x.id ≠ input.withdrawalId →
        x ∈ d.db.withdrawals.rows := by
      intro x hx hne
      rw [hdb] at hx
      exact Table.mem_of_mem_update _ _ (id_approved adminId)
        (Table.mem_of_mem_update _ _ (id_returned now .failed _) hx hne) hne
    exact noLimbo_after h.2 (fun c hc => List.mem_append_left _ hc) hrows hlast
      (Or.inl (returned_not_held now .failed _ _))
  · rw [hexec]
    refine ⟨hkept, iff_of_false (approved_stuck hfind ?_) (fun hret => ?_)⟩
    · rw [accepted_submittedDesk_iff h hw hs, hresult]
      decide
    · obtain ⟨r, hr⟩ := hcommits.2 hret
      exact hfail r hr

end Stages

theorem goesThrough_approve_iff (now : DateTime) (answer : Option PayoutResult)
    (hw : d.db.withdrawals.find k = some w) (hs : w.status ∈ decidable) (hne : w.userId ≠ adminId) :
    GoesThrough (.approve now adminId k answer) d ↔ bankAccountOf d.db w ≠ none ∧
      ∃ result, answer = some result ∧ (result.status = .failed → Returnable d.db w) := by
  constructor
  · intro h
    exact h w hw hs hne
  · intro h w' hw' _ _
    cases hw.symm.trans hw'
    exact h

/-- An approval that passes its checks leaves its withdrawal in limbo unless it goes through. -/
theorem approve_keeps_of_read (now : DateTime) (answer : Option PayoutResult) (h : Steady d)
    (hw : d.db.withdrawals.find k = some w) (hs : w.status ∈ decidable) (hne : w.userId ≠ adminId) :
    Kept (exec (approve now adminId k answer) d) ∧
      (NoLimbo (exec (approve now adminId k answer) d) ↔
        GoesThrough (.approve now adminId k answer) d) := by
  have hfind : (approvedDesk adminId k w.status d).db.withdrawals.find k =
      some (approved adminId w) := Table.find_update_self _ _ (id_approved adminId) hw
  rw [exec_approve now answer hw hs hne, goesThrough_approve_iff now answer hw hs hne]
  cases hbank : bankAccountOf d.db w with
  | none =>
    have hunaccepted := not_accepted h hw hs
    rw [exec_initiatePayout_of_none now answer hfind hbank]
    refine ⟨kept_approvedDesk h.1, iff_of_false (approved_stuck hfind hunaccepted) ?_⟩
    rintro ⟨hsome, _⟩
    exact hsome rfl
  | some b =>
    obtain ⟨input, rfl, hexec⟩ := exec_initiatePayout_of_some now answer hfind hbank
    rw [hexec]
    cases answer with
    | none =>
      refine ⟨kept_submittedDesk h hw w.status none, iff_of_false (approved_stuck hfind ?_) ?_⟩
      · change ¬ Accepted (submittedDesk adminId w.status input none d) input.withdrawalId
        rw [accepted_submittedDesk_iff h hw hs]
        decide
      · rintro ⟨_, _, ⟨⟩, _⟩
    | some result =>
      have hgoes : (some b ≠ none ∧ ∃ r, some result = some r ∧
          (r.status = .failed → Returnable d.db w)) ↔
          (result.status = .failed → Returnable d.db w) := by
        simp
      rw [hgoes]
      by_cases hfailed : result.status = .failed
      · obtain ⟨hkept, hiff⟩ := refused_keeps h hw adminId hs now w.status hfailed
        exact ⟨hkept, hiff.trans (by simp [hfailed])⟩
      · obtain ⟨hkept, hno⟩ := accepted_steady h hw adminId hs now w.status hfailed
        exact ⟨hkept, iff_of_true hno (fun hc => absurd hc hfailed)⟩

/-- Every call keeps what it has to, and no call but an approval that stops in between
leaves a withdrawal in limbo. -/
theorem perform_keeps (call : Call) (h : Steady d) :
    Kept (perform call d) ∧ (NoLimbo (perform call d) ↔ GoesThrough call d) := by
  have hsteady : ∀ {d' : Desk}, Steady d' → Kept d' ∧ (NoLimbo d' ↔ True) :=
    fun hd => ⟨hd.1, iff_of_true hd.2 trivial⟩
  cases call with
  | addBankAccount userId dto => exact hsteady ((addBankAccount_steady userId dto).exec h)
  | removeBankAccount now userId id => exact hsteady ((removeBankAccount_steady now userId id).exec h)
  | request userId dto otp fraudScore =>
    exact hsteady ((request_steady userId dto otp fraudScore).exec h)
  | reject now adminId k reason => exact hsteady ((reject_steady now k adminId reason).exec h)
  | webhook now event reference => exact hsteady ((onTransferWebhook_steady now reference event).exec h)
  | approve now adminId k answer =>
    by_cases hread : ∃ w, d.db.withdrawals.find k = some w ∧ w.status ∈ decidable ∧
        w.userId ≠ adminId
    · obtain ⟨w, hw, hs, hne⟩ := hread
      exact approve_keeps_of_read now answer h hw hs hne
    · have hexec : exec (approve now adminId k answer) d = d := by
        apply exec_onDb_of_error
        intro r hr
        obtain ⟨w, hw, hs, hne, _⟩ := (approveRead_ok_iff adminId k d.db r).1 hr
        exact hread ⟨w, hw, hs, hne⟩
      change Kept (exec _ d) ∧ (NoLimbo (exec _ d) ↔ _)
      rw [hexec]
      exact ⟨h.1, iff_of_true h.2 (fun w hw hs hne => absurd ⟨w, hw, hs, hne⟩ hread)⟩

end Approval

/-- Before the first withdrawal, over covered accounts. -/
structure Started (d : Desk) : Prop where
  withdrawals : d.db.withdrawals.rows = []
  gatewayCalls : d.gatewayCalls = []
  nonNegative : Ledger.NonNegative d.db.ledger

theorem Started.steady {d : Desk} (h : Started d) : Steady d := by
  have hnone : ∀ w, w ∉ d.db.withdrawals.rows := fun w hw => by
    rw [h.withdrawals] at hw
    cases hw
  refine ⟨⟨h.nonNegative, fun w hw => absurd hw (hnone w), fun w hw => absurd hw (hnone w), ?_⟩,
    fun w hw => absurd hw (hnone w)⟩
  rw [h.gatewayCalls]
  simp

/-- No state of a run has a withdrawal in limbo exactly when every approval of the
run that passes its checks goes through. -/
theorem noLimbo_iff {d : Desk} (h : Started d) (calls : List Call) :
    Sequential.Throughout perform NoLimbo d calls ↔
      Sequential.Along perform GoesThrough d calls := by
  obtain ⟨hkept, hno⟩ := h.steady
  exact Sequential.Along.throughout_iff
    (fun call _ _ hI hQ => (perform_keeps call ⟨hI, hQ⟩).1)
    (fun call _ _ hI hQ => (perform_keeps call ⟨hI, hQ⟩).2) hkept hno
    (Sequential.along_of_forall (fun _ _ => trivial) d calls)

section Sample

/-- A request that is approved and submitted. -/
def submittedRun : List Call :=
  [.request 7 savingsRequest (.ok ⟨⟩) (.ok 20),
    .approve 10 100 0 (some ⟨"PAYSTACK", "tr-1", .processing, none⟩)]

theorem savingsDesk_started : Started savingsDesk := by
  refine ⟨rfl, rfl, ?_⟩
  unfold Ledger.NonNegative
  decide +kernel

theorem noLimbo_iff_submittedRun : Sequential.Throughout perform NoLimbo savingsDesk submittedRun ↔
    Sequential.Along perform GoesThrough savingsDesk submittedRun :=
  noLimbo_iff savingsDesk_started submittedRun

/-- The user removes the bank account between the request and the approval. -/
def accountRemoved : List Call :=
  [.request 7 savingsRequest (.ok ⟨⟩) (.ok 20), .removeBankAccount 9 7 5,
    .approve 10 100 0 (some ⟨"PAYSTACK", "tr-1", .processing, none⟩)]

/-- The approval has been written when the lookup of the account fails. -/
theorem approved_without_account :
    ¬ Sequential.Throughout perform NoLimbo savingsDesk accountRemoved := by
  rintro ⟨_, _, _, hlast⟩
  have hcalls : (Sequential.run perform savingsDesk accountRemoved).gatewayCalls = [] := by
    decide +kernel
  have hrow : ∃ w ∈ (Sequential.run perform savingsDesk accountRemoved).db.withdrawals.rows,
      w.status = .approved := by decide +kernel
  obtain ⟨w, hw, hs⟩ := hrow
  refine not_noLimbo hw (by rw [hs]; decide) (by rw [hs]; decide) ?_ hlast
  rintro ⟨c, hc, _⟩
  rw [hcalls] at hc
  cases hc

end Sample

end Limbo
end FootballIQ
