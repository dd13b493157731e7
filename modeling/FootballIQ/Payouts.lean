import FootballIQ.PayoutRace
import FootballIQ.Saga

/-!
# Withdrawals from request to payout

The whole calls of the withdrawal services, each a saga: the database steps are
committed one by one, the gateway is called between two of them, and a failure
anywhere leaves behind what was committed before it. The one-time password and
the fraud score of a request are inputs, as are the answers of the gateway.
-/

namespace FootballIQ
namespace Payouts

open Transaction Relational WalletAccounts Withdrawals PayoutRace

/-- The database and the gateway calls made so far; a call with no status has thrown. -/
structure Desk where
  db : Db
  gatewayCalls : List (PayoutInput × Option PayoutStatus)
  deriving DecidableEq

section Request

/-- The body of a withdrawal request; its schema has a minimum of 500.00. -/
structure RequestWithdrawalRequest where
  amountMinor : ℤ
  amount_min : 50000 ≤ amountMinor
  bankAccountId : ℕ
  deriving DecidableEq

structure RequestWithdrawalResult where
  id : ℕ
  status : WithdrawalStatus
  fraudScore : ℕ
  deriving DecidableEq

def reviewThreshold : ℕ := 70

def newWithdrawal (userId : ℕ) (dto : RequestWithdrawalRequest) (fraudScore id : ℕ) :
    Withdrawal where
  id := id
  userId := userId
  bankAccountId := dto.bankAccountId
  amountMinor := dto.amountMinor
  fraudScore := fraudScore
  status := if reviewThreshold ≤ fraudScore then .underReview else .requested
  reviewedById := none
  provider := none
  providerRef := none
  failReason := none
  resolvedAt := none

theorem id_newWithdrawal (userId : ℕ) (dto : RequestWithdrawalRequest) (fraudScore id : ℕ) :
    Row.id (newWithdrawal userId dto fraudScore id) = id := rfl

def holdKey (withdrawalId : ℕ) : String := "withdrawal-hold:" ++ toString withdrawalId

def holdInput (w : Withdrawal) (available pending : LedgerAccount) : PostJournalInput where
  type := .withdrawalHold
  idempotencyKey := holdKey w.id
  description := "Withdrawal hold"
  lines := [⟨available.id, -w.amountMinor⟩, ⟨pending.id, w.amountMinor⟩]
  metadata := [("withdrawalId", toString w.id)]

def createWithdrawal (userId : ℕ) (dto : RequestWithdrawalRequest) (fraudScore : ℕ) :
    Tx Failure Db Withdrawal := do
  let db ← get
  set { db with
    withdrawals := db.withdrawals.insert (newWithdrawal userId dto fraudScore)
      (id_newWithdrawal userId dto fraudScore) }
  return newWithdrawal userId dto fraudScore db.withdrawals.fresh

/-- The transaction of `request`: the row and its hold. -/
def requestTx (userId : ℕ) (dto : RequestWithdrawalRequest) (fraudScore : ℕ) :
    Tx Failure Db Withdrawal := do
  let available ← userAvailable userId
  let pending ← getOrCreatePendingAccount userId
  let w ← createWithdrawal userId dto fraudScore
  let _ ← Db.post (holdInput w available pending)
  Db.emit (.withdrawalRequested w.id userId dto.amountMinor fraudScore)
  return w

def exceedsBalance : Failure → Failure
  | .insufficientFunds _ =>
    .badRequest "INSUFFICIENT_FUNDS" (some "Withdrawal exceeds your available balance")
  | e => e

end Request

section BankAccounts

structure AddBankAccountRequest where
  bankCode : String
  bankName : String
  accountNumber : String
  accountName : String
  deriving DecidableEq

def newBankAccount (userId : ℕ) (dto : AddBankAccountRequest) (id : ℕ) : BankAccount :=
  ⟨id, userId, dto.bankCode, dto.bankName, dto.accountNumber, dto.accountName, none⟩

theorem id_newBankAccount (userId : ℕ) (dto : AddBankAccountRequest) (id : ℕ) :
    Row.id (newBankAccount userId dto id) = id := rfl

def addBankAccount (userId : ℕ) (dto : AddBankAccountRequest) : Tx Failure Db ℕ := do
  let db ← get
  set { db with
    bankAccounts := db.bankAccounts.insert (newBankAccount userId dto)
      (id_newBankAccount userId dto) }
  return db.bankAccounts.fresh

theorem id_removed (now : DateTime) (b : BankAccount) :
    Row.id { b with deletedAt := some now } = Row.id b := rfl

def removeBankAccount (now : DateTime) (userId id : ℕ) : Tx Failure Db PUnit := do
  let db ← get
  throwIf (db.bankAccounts.count (fun b => b.id = id ∧ b.userId = userId ∧ b.deletedAt = none) = 0)
    (.notFound "BANK_ACCOUNT_NOT_FOUND" none)
  set { db with
    bankAccounts := db.bankAccounts.updateWhere
      (fun b => b.id = id ∧ b.userId = userId ∧ b.deletedAt = none)
      (fun b => { b with deletedAt := some now }) (id_removed now) }

end BankAccounts

section Sagas

def onDb {α : Type} (x : Tx Failure Db α) : Saga Failure Desk α :=
  Saga.atomically (zoom Desk.db (fun db d => { d with db := db }) x)

/-- Submit a transfer. With no answer the call throws, but it was made. -/
def callGateway (input : PayoutInput) (answer : Option PayoutResult) :
    Saga Failure Desk PayoutResult := do
  Saga.atomically (modify (fun d => { d with
    gatewayCalls := d.gatewayCalls ++ [(input, answer.map (·.status))] }))
  Saga.atomically (orThrow answer (.error "gateway call failed"))

def request (userId : ℕ) (dto : RequestWithdrawalRequest) (otp : Except Failure PUnit)
    (fraudScore : Except Failure ℕ) : Saga Failure Desk RequestWithdrawalResult := do
  onDb (check otp)
  let _ ← onDb (decryptedFor userId dto.bankAccountId)
  let score ← onDb (check fraudScore)
  let w ← onDb (rescue exceedsBalance (requestTx userId dto score))
  return ⟨w.id, w.status, score⟩

def findWithdrawal (withdrawalId : ℕ) : Tx Failure Db Withdrawal := do
  let db ← get
  orThrow (db.withdrawals.find withdrawalId) .recordNotFound

def reverseHold (now : DateTime) (withdrawalId : ℕ) (status : ReversalStatus) (reason : String) :
    Saga Failure Desk PUnit := do
  let w ← onDb (findWithdrawal withdrawalId)
  onDb (reverseTx now w status reason)

def settle (now : DateTime) (withdrawalId : ℕ) (success : Bool) (failReason : Option String) :
    Saga Failure Desk PUnit := do
  let db ← onDb get
  match settleRead withdrawalId db with
  | none => return ⟨⟩
  | some w =>
    if success then onDb (settleTx now w)
    else reverseHold now withdrawalId .failed (failReason.getD "Transfer failed")

/-- What `initiatePayout` does once the gateway has answered. -/
def finishPayout (now : DateTime) (withdrawalId : ℕ) (result : PayoutResult) :
    Saga Failure Desk PUnit :=
  if result.status = .failed then
    reverseHold now withdrawalId .failed (result.failReason.getD "Gateway rejected transfer")
  else do
    onDb (payoutUpdate withdrawalId result)
    if result.status = .paid then settle now withdrawalId true none else return ⟨⟩

def initiatePayout (now : DateTime) (withdrawalId : ℕ) (answer : Option PayoutResult) :
    Saga Failure Desk PUnit := do
  let input ← onDb (payoutRead withdrawalId)
  let result ← callGateway input answer
  finishPayout now withdrawalId result

def approve (now : DateTime) (adminId withdrawalId : ℕ) (answer : Option PayoutResult) :
    Saga Failure Desk PUnit := do
  let before ← onDb (approveRead adminId withdrawalId)
  onDb (approveUpdate adminId withdrawalId)
  onDb (approveAudit adminId withdrawalId before)
  initiatePayout now withdrawalId answer

def reject (now : DateTime) (adminId withdrawalId : ℕ) (reason : String) :
    Saga Failure Desk PUnit := do
  onDb (rejectRead withdrawalId)
  reverseHold now withdrawalId .rejected reason
  onDb (Db.record ⟨adminId, "withdrawal.reject", withdrawalId, [],
    [("status", "REJECTED"), ("reason", reason)]⟩)

/-- The events of a transfer that the worker routes to `settle`. -/
inductive TransferEvent where
  | success | failed | reversed
  deriving DecidableEq

def TransferEvent.name : TransferEvent → String
  | .success => "transfer.success"
  | .failed => "transfer.failed"
  | .reversed => "transfer.reversed"

def onTransferWebhook (now : DateTime) (event : TransferEvent) (reference : ℕ) :
    Saga Failure Desk PUnit :=
  match event with
  | .success => settle now reference true none
  | .failed | .reversed => settle now reference false (some event.name)

end Sagas

section Calls

inductive Call where
  | addBankAccount (userId : ℕ) (dto : AddBankAccountRequest)
  | removeBankAccount (now : DateTime) (userId id : ℕ)
  | request (userId : ℕ) (dto : RequestWithdrawalRequest) (otp : Except Failure PUnit)
    (fraudScore : Except Failure ℕ)
  | approve (now : DateTime) (adminId withdrawalId : ℕ) (answer : Option PayoutResult)
  | reject (now : DateTime) (adminId withdrawalId : ℕ) (reason : String)
  | webhook (now : DateTime) (event : TransferEvent) (reference : ℕ)

/-- One call, run to its end. -/
def perform : Call → Desk → Desk
  | .addBankAccount userId dto => Saga.exec (onDb (addBankAccount userId dto))
  | .removeBankAccount now userId id => Saga.exec (onDb (removeBankAccount now userId id))
  | .request userId dto otp fraudScore => Saga.exec (request userId dto otp fraudScore)
  | .approve now adminId withdrawalId answer =>
    Saga.exec (approve now adminId withdrawalId answer)
  | .reject now adminId withdrawalId reason => Saga.exec (reject now adminId withdrawalId reason)
  | .webhook now event reference => Saga.exec (onTransferWebhook now event reference)

end Calls

end Payouts
end FootballIQ
