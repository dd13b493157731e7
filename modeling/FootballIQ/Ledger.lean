import FootballIQ.SlipValidator
import FootballIQ.Table
import FootballIQ.Transaction

/-!
# The double-entry ledger

Accounts carry a materialized balance; the journal is append-only. `post` writes
one journal entry and applies its lines to the balances one by one, checking
each account of a non-negative type right after its own update. A used
idempotency key returns the entry that owns it and writes nothing.
-/

namespace FootballIQ

open Transaction Relational

/-- What the services throw: the HTTP exceptions with code and message, the
ledger errors, the database errors and the plain errors. -/
inductive Failure where
  | notFound (code : String) (message : Option String)
  | conflict (code : String) (message : Option String)
  | badRequest (code : String) (message : Option String)
  | unauthorized (code : String)
  | invalidSlip (code : String) (details : List SlipViolation)
  | emptyJournal
  | zeroAmountLine
  | unbalancedJournal (sumMinor : ℤ)
  | insufficientFunds (accountId : ℕ)
  | uniqueViolation
  | foreignKeyViolation
  | recordNotFound
  | error (message : String)
  deriving DecidableEq

inductive LedgerAccountType where
  | userAvailable | userWithdrawalPending | contestEscrow | platformRevenue | gatewayClearing
  | external
  deriving DecidableEq

def LedgerAccountType.name : LedgerAccountType → String
  | .userAvailable => "USER_AVAILABLE"
  | .userWithdrawalPending => "USER_WITHDRAWAL_PENDING"
  | .contestEscrow => "CONTEST_ESCROW"
  | .platformRevenue => "PLATFORM_REVENUE"
  | .gatewayClearing => "GATEWAY_CLEARING"
  | .external => "EXTERNAL"

structure LedgerAccount where
  id : ℕ
  type : LedgerAccountType
  userId : Option ℕ
  contestId : Option ℕ
  currency : String
  balanceMinor : ℤ
  deriving DecidableEq

instance : Row LedgerAccount := ⟨LedgerAccount.id⟩

inductive JournalType where
  | deposit | entryFee | entryRefund | prizePayout | commission | withdrawalHold
  | withdrawalSettle | withdrawalReversal | adjustment
  deriving DecidableEq

/-- Positive credits the account, negative debits it. -/
structure JournalLine where
  accountId : ℕ
  amountMinor : ℤ
  deriving DecidableEq

structure JournalEntry where
  id : ℕ
  type : JournalType
  idempotencyKey : String
  description : String
  metadata : List (String × String)
  lines : List JournalLine
  deriving DecidableEq

instance : Row JournalEntry := ⟨JournalEntry.id⟩

structure PostJournalInput where
  type : JournalType
  idempotencyKey : String
  description : String
  lines : List JournalLine
  metadata : List (String × String)
  deriving DecidableEq

structure Ledger where
  accounts : Table LedgerAccount
  journal : Table JournalEntry
  deriving DecidableEq

namespace Ledger

/-- Account types whose balance must never go negative. -/
def nonNegativeAccountTypes : List LedgerAccountType :=
  [.userAvailable, .userWithdrawalPending, .contestEscrow]

def lineTotal (lines : List JournalLine) : ℤ := (lines.map (·.amountMinor)).sum

def validateLines (lines : List JournalLine) : Except Failure Unit :=
  if lines.length < 2 then .error .emptyJournal
  else if ∃ l ∈ lines, l.amountMinor = 0 then .error .zeroAmountLine
  else if lineTotal lines ≠ 0 then .error (.unbalancedJournal (lineTotal lines))
  else .ok ()

def entryByKey (l : Ledger) (key : String) : Option JournalEntry :=
  l.journal.findFirst (fun j => j.idempotencyKey = key)

/-- The insert of the entry with its lines; each line's account must exist. -/
def createEntry (input : PostJournalInput) : Tx Failure Ledger ℕ := do
  let l ← get
  throwIf (∃ line ∈ input.lines, l.accounts.find line.accountId = none) .foreignKeyViolation
  set { l with
    journal := l.journal.insert
      (fun id => ⟨id, input.type, input.idempotencyKey, input.description, input.metadata,
        input.lines⟩) (fun _ => rfl) }
  return l.journal.fresh

def credit (accounts : Table LedgerAccount) (line : JournalLine) : Table LedgerAccount :=
  accounts.update line.accountId
    (fun a => { a with balanceMinor := a.balanceMinor + line.amountMinor }) (fun _ => rfl)

def applyLine (line : JournalLine) : Tx Failure Ledger PUnit := do
  let l ← get
  match l.accounts.find line.accountId with
  | none => throw .recordNotFound
  | some account =>
    set { l with accounts := credit l.accounts line }
    throwIf (account.type ∈ nonNegativeAccountTypes ∧ account.balanceMinor + line.amountMinor < 0)
      (.insufficientFunds account.id)

def post (input : PostJournalInput) : Tx Failure Ledger ℕ := do
  check (validateLines input.lines)
  let l ← get
  match l.entryByKey input.idempotencyKey with
  | some existing => return existing.id
  | none =>
    let id ← createEntry input
    forM input.lines applyLine
    return id

end Ledger
end FootballIQ
