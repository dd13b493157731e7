import FootballIQ.Wallet

/-!
# Withdrawals: approval, payout and reversal

The services behind an admin's decision on a withdrawal. `approve` and `reject`
check the status on a read; the writes that follow, and the payout's own steps,
do not look at the status again, except that `settle` skips a finished one.
-/

namespace FootballIQ
namespace Withdrawals

open Transaction Relational WalletAccounts

/-- The statuses from which an admin may decide. -/
def decidable : List WithdrawalStatus := [.requested, .underReview]

section Approve

def approveRead (adminId withdrawalId : ℕ) : Tx Failure Db WithdrawalStatus := do
  let db ← get
  let withdrawal ← orThrow (db.withdrawals.find withdrawalId)
    (.notFound "WITHDRAWAL_NOT_FOUND" none)
  throwIf (withdrawal.status ∉ decidable)
    (.conflict "INVALID_STATUS" (some s!"Cannot approve from {withdrawal.status.name}"))
  throwIf (withdrawal.userId = adminId)
    (.conflict "SELF_APPROVAL" (some "Cannot approve your own withdrawal"))
  return withdrawal.status

theorem approveRead_ok_iff (adminId k : ℕ) (db : Db) (r : WithdrawalStatus × Db) :
    approveRead adminId k db = .ok r ↔ ∃ w, db.withdrawals.find k = some w ∧
      w.status ∈ decidable ∧ w.userId ≠ adminId ∧ r = (w.status, db) := by
  obtain ⟨before, db'⟩ := r
  simp only [approveRead, bind_ok_iff, get_ok_iff, orThrow_ok_iff, throwIf_ok_iff, pure_ok_iff]
  constructor
  · rintro ⟨_, _, ⟨rfl, rfl⟩, w, _, ⟨hw, rfl⟩, _, _, ⟨hs, rfl⟩, _, _, ⟨hne, rfl⟩, rfl, rfl⟩
    exact ⟨w, hw, not_not.1 hs, hne, rfl⟩
  · rintro ⟨w, hw, hs, hne, heq⟩
    cases heq
    exact ⟨db, db, ⟨rfl, rfl⟩, w, db, ⟨hw, rfl⟩, ⟨⟩, db, ⟨not_not.2 hs, rfl⟩, ⟨⟩, db, ⟨hne, rfl⟩,
      rfl, rfl⟩

def approved (adminId : ℕ) (w : Withdrawal) : Withdrawal :=
  { w with status := .approved, reviewedById := some adminId }

theorem id_approved (adminId : ℕ) (w : Withdrawal) : Row.id (approved adminId w) = Row.id w := rfl

def approveUpdate (adminId withdrawalId : ℕ) : Tx Failure Db PUnit :=
  Db.updateWithdrawal withdrawalId (approved adminId) (id_approved adminId)

def approveAudit (adminId withdrawalId : ℕ) (before : WithdrawalStatus) : Tx Failure Db PUnit :=
  Db.record ⟨adminId, "withdrawal.approve", withdrawalId, [("status", before.name)],
    [("status", "APPROVED")]⟩

end Approve

section Payout

inductive PayoutStatus where
  | processing | paid | failed
  deriving DecidableEq

structure PayoutInput where
  withdrawalId : ℕ
  amountMinor : ℤ
  currency : String
  bankCode : String
  accountNumber : String
  accountName : String
  reference : ℕ
  deriving DecidableEq

structure PayoutResult where
  provider : String
  providerRef : String
  status : PayoutStatus
  failReason : Option String
  deriving DecidableEq

def decryptedFor (userId bankAccountId : ℕ) : Tx Failure Db BankAccount := do
  let db ← get
  orThrow (db.bankAccounts.findFirst (fun b => b.id = bankAccountId ∧ b.userId = userId ∧
    b.deletedAt = none)) (.notFound "BANK_ACCOUNT_NOT_FOUND" none)

/-- The reads of `initiatePayout` before the gateway is called. -/
def payoutRead (withdrawalId : ℕ) : Tx Failure Db PayoutInput := do
  let db ← get
  let withdrawal ← orThrow (db.withdrawals.find withdrawalId) .recordNotFound
  let bank ← decryptedFor withdrawal.userId withdrawal.bankAccountId
  return ⟨withdrawalId, withdrawal.amountMinor, "NGN", bank.bankCode, bank.accountNumber,
    bank.accountName, withdrawalId⟩

def processing (result : PayoutResult) (w : Withdrawal) : Withdrawal :=
  { w with
    status := .processing
    provider := some result.provider
    providerRef := some result.providerRef }

theorem id_processing (result : PayoutResult) (w : Withdrawal) :
    Row.id (processing result w) = Row.id w := rfl

def payoutUpdate (withdrawalId : ℕ) (result : PayoutResult) : Tx Failure Db PUnit :=
  Db.updateWithdrawal withdrawalId (processing result) (id_processing result)

theorem payoutRead_ok {withdrawalId : ℕ} {db db' : Db} {input : PayoutInput}
    (h : payoutRead withdrawalId db = .ok (input, db')) :
    input.withdrawalId = withdrawalId ∧ db' = db := by
  simp only [payoutRead, decryptedFor, bind_ok_iff, get_ok_iff, orThrow_ok_iff, pure_ok_iff] at h
  obtain ⟨_, _, ⟨rfl, rfl⟩, w, _, ⟨_, rfl⟩, bank, _, ⟨_, _, ⟨rfl, rfl⟩, _, rfl⟩, rfl, rfl⟩ := h
  exact ⟨rfl, rfl⟩

end Payout

section Money

def pendingAccount (userId id : ℕ) : LedgerAccount where
  id := id
  type := .userWithdrawalPending
  userId := some userId
  contestId := none
  currency := "NGN"
  balanceMinor := 0

theorem id_pendingAccount (userId id : ℕ) : Row.id (pendingAccount userId id) = id := rfl

def getOrCreatePendingAccount (userId : ℕ) : Tx Failure Db LedgerAccount := do
  let db ← get
  match ofUser db.ledger.accounts userId .userWithdrawalPending "NGN" with
  | some existing => return existing
  | none =>
    set { db with
      ledger := { db.ledger with
        accounts := db.ledger.accounts.insert (pendingAccount userId)
          (id_pendingAccount userId) } }
    return pendingAccount userId db.ledger.accounts.fresh

def settleKey (withdrawalId : ℕ) : String := "withdrawal-settle:" ++ toString withdrawalId

def reverseKey (withdrawalId : ℕ) : String := "withdrawal-reverse:" ++ toString withdrawalId

/-- The read of `settle`; a paid or failed withdrawal is left alone. -/
def settleRead (withdrawalId : ℕ) (db : Db) : Option Withdrawal :=
  (db.withdrawals.find withdrawalId).filter (fun w => w.status ≠ .paid ∧ w.status ≠ .failed)

def settleInput (w : Withdrawal) (pending external : LedgerAccount) : PostJournalInput where
  type := .withdrawalSettle
  idempotencyKey := settleKey w.id
  description := "Withdrawal paid out"
  lines := [⟨pending.id, -w.amountMinor⟩, ⟨external.id, w.amountMinor⟩]
  metadata := [("withdrawalId", toString w.id)]

def paid (now : DateTime) (w : Withdrawal) : Withdrawal :=
  { w with status := .paid, resolvedAt := some now }

theorem id_paid (now : DateTime) (w : Withdrawal) : Row.id (paid now w) = Row.id w := rfl

def settleTx (now : DateTime) (w : Withdrawal) : Tx Failure Db PUnit := do
  let pending ← getOrCreatePendingAccount w.userId
  let external ← system .external
  let _ ← Db.post (settleInput w pending external)
  Db.updateWithdrawal w.id (paid now) (id_paid now)
  Db.notify ⟨w.userId, "withdrawal.paid", "Withdrawal completed 💸",
    "Your withdrawal has been paid to your bank account.",
    [("withdrawalId", toString w.id), ("amountMinor", toString w.amountMinor)]⟩
  Db.emit (.withdrawalPaid w.id w.userId w.amountMinor)

inductive ReversalStatus where
  | rejected | failed | reversed
  deriving DecidableEq

def ReversalStatus.toStatus : ReversalStatus → WithdrawalStatus
  | .rejected => .rejected
  | .failed => .failed
  | .reversed => .reversed

def ReversalStatus.toLowerCase : ReversalStatus → String
  | .rejected => "rejected"
  | .failed => "failed"
  | .reversed => "reversed"

def reverseInput (w : Withdrawal) (status : ReversalStatus) (reason : String)
    (pending available : LedgerAccount) : PostJournalInput where
  type := .withdrawalReversal
  idempotencyKey := reverseKey w.id
  description := s!"Withdrawal {status.toLowerCase} — funds returned"
  lines := [⟨pending.id, -w.amountMinor⟩, ⟨available.id, w.amountMinor⟩]
  metadata := [("withdrawalId", toString w.id), ("reason", reason)]

def returned (now : DateTime) (status : ReversalStatus) (reason : String) (w : Withdrawal) :
    Withdrawal :=
  { w with status := status.toStatus, failReason := some reason, resolvedAt := some now }

theorem id_returned (now : DateTime) (status : ReversalStatus) (reason : String)
    (w : Withdrawal) : Row.id (returned now status reason w) = Row.id w := rfl

/-- The transaction of `reverseHold`, on the withdrawal that its read found. -/
def reverseTx (now : DateTime) (w : Withdrawal) (status : ReversalStatus) (reason : String) :
    Tx Failure Db PUnit := do
  let pending ← getOrCreatePendingAccount w.userId
  let available ← userAvailable w.userId
  let _ ← Db.post (reverseInput w status reason pending available)
  Db.updateWithdrawal w.id (returned now status reason) (id_returned now status reason)
  Db.notify ⟨w.userId, "withdrawal.failed", "Withdrawal returned",
    s!"Your withdrawal was {status.toLowerCase}: {reason}. Funds are back in your wallet.",
    [("withdrawalId", toString w.id)]⟩

/-- The pending account is there already, or joins the table with nothing on it. -/
theorem getOrCreatePendingAccount_ok_iff (userId : ℕ) (db db' : Db) (a : LedgerAccount) :
    getOrCreatePendingAccount userId db = .ok (a, db') ↔
      (ofUser db.ledger.accounts userId .userWithdrawalPending "NGN" = some a ∧ db' = db) ∨
      (ofUser db.ledger.accounts userId .userWithdrawalPending "NGN" = none ∧
        a = pendingAccount userId db.ledger.accounts.fresh ∧
        db' = { db with ledger := { db.ledger with
          accounts := db.ledger.accounts.insert (pendingAccount userId) (id_pendingAccount userId) } }) := by
  simp only [getOrCreatePendingAccount, bind_ok_iff, get_ok_iff]
  constructor
  · rintro ⟨_, _, ⟨rfl, rfl⟩, hrun⟩
    cases hacc : ofUser db.ledger.accounts userId .userWithdrawalPending "NGN" with
    | some existing =>
      simp only [hacc, pure_ok_iff] at hrun
      exact Or.inl ⟨congrArg some hrun.1, hrun.2.symm⟩
    | none =>
      simp only [hacc, bind_ok_iff, set_ok_iff, pure_ok_iff] at hrun
      obtain ⟨_, _, rfl, rfl, rfl⟩ := hrun
      exact Or.inr ⟨rfl, rfl, rfl⟩
  · rintro (⟨hacc, rfl⟩ | ⟨hacc, rfl, rfl⟩)
    · refine ⟨db', db', ⟨rfl, rfl⟩, ?_⟩
      rw [hacc]
      rfl
    · refine ⟨db, db, ⟨rfl, rfl⟩, ?_⟩
      rw [hacc]
      rfl

theorem getOrCreatePendingAccount_ok {userId : ℕ} {db db' : Db} {a : LedgerAccount}
    (h : getOrCreatePendingAccount userId db = .ok (a, db')) :
    ∃ accounts, db' = { db with ledger := { db.ledger with accounts := accounts } } := by
  obtain ⟨_, rfl⟩ | ⟨_, _, rfl⟩ := (getOrCreatePendingAccount_ok_iff userId db db' a).1 h
  · exact ⟨db'.ledger.accounts, rfl⟩
  · exact ⟨_, rfl⟩

theorem settleTx_ok {now : ℕ} {w : Withdrawal} {db : Db} {r : PUnit × Db}
    (h : settleTx now w db = .ok r) :
    ∃ pending external accounts id l ns ob,
      Ledger.post (settleInput w pending external) { db.ledger with accounts := accounts } =
        .ok (id, l) ∧
      r.2 = { db with
        ledger := l
        withdrawals := db.withdrawals.update w.id (paid now) (id_paid now)
        notifications := ns
        outbox := ob } := by
  simp only [settleTx, bind_ok_iff, system_ok_iff, Db.post_ok_iff, Db.updateWithdrawal_ok_iff,
    Db.notify_ok_iff, Db.emit_ok_iff] at h
  obtain ⟨pending, _, hacc, external, _, ⟨_, rfl⟩, id, _, ⟨l, hpost, rfl⟩, _, _, ⟨_, rfl⟩, _, _, rfl,
    hr⟩ := h
  obtain ⟨accounts, rfl⟩ := getOrCreatePendingAccount_ok hacc
  exact ⟨pending, external, accounts, id, l, _, _, hpost, hr.symm⟩

theorem reverseTx_ok {now : ℕ} {w : Withdrawal} {status : ReversalStatus} {reason : String}
    {db : Db} {r : PUnit × Db} (h : reverseTx now w status reason db = .ok r) :
    ∃ pending available accounts id l ns,
      Ledger.post (reverseInput w status reason pending available)
        { db.ledger with accounts := accounts } = .ok (id, l) ∧
      r.2 = { db with
        ledger := l
        withdrawals := db.withdrawals.update w.id (returned now status reason)
          (id_returned now status reason)
        notifications := ns } := by
  simp only [reverseTx, bind_ok_iff, userAvailable_ok_iff, Db.post_ok_iff,
    Db.updateWithdrawal_ok_iff, Db.notify_ok_iff] at h
  obtain ⟨pending, _, hacc, available, _, ⟨_, rfl⟩, id, _, ⟨l, hpost, rfl⟩, _, _, ⟨_, rfl⟩, hr⟩ := h
  obtain ⟨accounts, rfl⟩ := getOrCreatePendingAccount_ok hacc
  exact ⟨pending, available, accounts, id, l, _, hpost, hr.symm⟩

end Money

end Withdrawals
end FootballIQ
