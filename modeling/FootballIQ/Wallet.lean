import FootballIQ.Schema

/-!
# Wallet accounts and deposits

Account lookup by owner, and the settlement of a deposit after the gateway has
verified it. A lookup never creates an account.
-/

namespace FootballIQ

open Transaction Relational

namespace WalletAccounts

/-- The unique index on owner, type and currency. -/
def ofUser (accounts : Table LedgerAccount) (userId : ℕ) (type : LedgerAccountType)
    (currency : String) : Option LedgerAccount :=
  accounts.findFirst (fun a => a.userId = some userId ∧ a.type = type ∧ a.currency = currency)

def ofContest (accounts : Table LedgerAccount) (contestId : ℕ) : Option LedgerAccount :=
  accounts.findFirst (fun a => a.contestId = some contestId)

def ofSystem (accounts : Table LedgerAccount) (type : LedgerAccountType) : Option LedgerAccount :=
  accounts.findFirst (fun a => a.type = type ∧ a.userId = none ∧ a.contestId = none ∧
    a.currency = "NGN")

def userAvailable (userId : ℕ) : Tx Failure Db LedgerAccount := do
  let db ← get
  orThrow (ofUser db.ledger.accounts userId .userAvailable "NGN")
    (.notFound "WALLET_NOT_FOUND" (some "Wallet account missing"))

def system (type : LedgerAccountType) : Tx Failure Db LedgerAccount := do
  let db ← get
  orThrow (ofSystem db.ledger.accounts type)
    (.notFound "SYSTEM_ACCOUNT_MISSING" (some s!"System ledger account {type.name} not seeded"))

def contestEscrow (contestId : ℕ) : Tx Failure Db LedgerAccount := do
  let db ← get
  orThrow (ofContest db.ledger.accounts contestId)
    (.notFound "ESCROW_MISSING" (some "Contest escrow account not found (contest not published?)"))

section Lookups
variable (db db' : Db) (a : LedgerAccount)

@[simp] theorem userAvailable_ok_iff (userId : ℕ) :
    userAvailable userId db = .ok (a, db') ↔
      ofUser db.ledger.accounts userId .userAvailable "NGN" = some a ∧ db = db' := by
  unfold userAvailable
  simp [and_comm]

@[simp] theorem system_ok_iff (type : LedgerAccountType) :
    system type db = .ok (a, db') ↔ ofSystem db.ledger.accounts type = some a ∧ db = db' := by
  unfold system
  simp [and_comm]

@[simp] theorem contestEscrow_ok_iff (contestId : ℕ) :
    contestEscrow contestId db = .ok (a, db') ↔
      ofContest db.ledger.accounts contestId = some a ∧ db = db' := by
  unfold contestEscrow
  simp [and_comm]

end Lookups

section Owners
variable {accounts : Table LedgerAccount} {a : LedgerAccount}

theorem ofUser_some {userId : ℕ} {type : LedgerAccountType} {currency : String}
    (h : ofUser accounts userId type currency = some a) :
    a ∈ accounts.rows ∧ a.userId = some userId ∧ a.type = type ∧ a.currency = currency :=
  accounts.findFirst_eq_some h

theorem ofContest_some {contestId : ℕ} (h : ofContest accounts contestId = some a) :
    a ∈ accounts.rows ∧ a.contestId = some contestId :=
  accounts.findFirst_eq_some h

theorem ofSystem_some {type : LedgerAccountType} (h : ofSystem accounts type = some a) :
    a ∈ accounts.rows ∧ a.type = type ∧ a.userId = none ∧ a.contestId = none ∧
      a.currency = "NGN" :=
  accounts.findFirst_eq_some h

end Owners

end WalletAccounts

namespace Deposits

open WalletAccounts

inductive DepositVerification where
  | pending
  | failed
  | success (provider : String) (amountMinor : ℤ) (channel : String)
  deriving DecidableEq

def depositKey (intentId : ℕ) : String := "deposit:" ++ toString intentId

/-- The first read of `settle`; a deposit that has succeeded is left alone. -/
def settleRead (reference : ℕ) : Tx Failure Db (Option PaymentIntent) := do
  let db ← get
  let intent ← orThrow (db.paymentIntents.find reference) (.notFound "INTENT_NOT_FOUND" none)
  return if intent.status = .succeeded then none else some intent

def depositInput (intent : PaymentIntent) (provider : String) (amountMinor : ℤ) (channel : String)
    (clearing userAccount : LedgerAccount) : PostJournalInput where
  type := .deposit
  idempotencyKey := depositKey intent.id
  description := "Wallet deposit via " ++ provider
  lines := [⟨clearing.id, -amountMinor⟩, ⟨userAccount.id, amountMinor⟩]
  metadata := [("intentId", toString intent.id), ("channel", channel)]

/-- What `settle` does with the gateway's answer. The provider's amount is
credited, never the intent's. -/
def settleTx (now : DateTime) (intent : PaymentIntent) (verification : DepositVerification) :
    Tx Failure Db PaymentStatus :=
  match verification with
  | .pending => return .pending
  | .failed => do
    Db.updateIntent intent.id
      (fun i => { i with status := .failed, failReason := some "Provider reported failure" })
      (fun _ => rfl)
    return .failed
  | .success provider amountMinor channel => do
    let userAccount ← userAvailable intent.userId
    let clearing ← system .gatewayClearing
    let _ ← Db.post (depositInput intent provider amountMinor channel clearing userAccount)
    Db.updateIntent intent.id
      (fun i => { i with
        status := .succeeded
        settledAt := some now
        channel := some channel
        amountMinor := amountMinor })
      (fun _ => rfl)
    Db.emit (.walletCredited intent.userId amountMinor "DEPOSIT" intent.id)
    return .succeeded

/-- A deposit transaction at most posts the deposit and touches the intent. -/
theorem settleTx_ok {now : DateTime} {intent : PaymentIntent} {verification : DepositVerification}
    {db db' : Db} {status : PaymentStatus}
    (h : settleTx now intent verification db = .ok (status, db')) :
    ∃ l intents events, db' = { db with
        ledger := l
        paymentIntents := intents
        outbox := events } ∧
      (l = db.ledger ∨ ∃ provider amountMinor channel clearing userAccount id,
        verification = .success provider amountMinor channel ∧
        ofSystem db.ledger.accounts .gatewayClearing = some clearing ∧
        ofUser db.ledger.accounts intent.userId .userAvailable "NGN" = some userAccount ∧
        Ledger.post (depositInput intent provider amountMinor channel clearing userAccount)
          db.ledger = .ok (id, l)) := by
  cases verification with
  | pending =>
    simp only [settleTx, pure_ok_iff] at h
    exact ⟨db.ledger, db.paymentIntents, db.outbox, h.2.symm, Or.inl rfl⟩
  | failed =>
    simp only [settleTx, bind_ok_iff, Db.updateIntent_ok_iff, pure_ok_iff] at h
    obtain ⟨_, _, ⟨_, rfl⟩, _, rfl⟩ := h
    exact ⟨db.ledger, _, db.outbox, rfl, Or.inl rfl⟩
  | success provider amountMinor channel =>
    simp only [settleTx, bind_ok_iff, userAvailable_ok_iff, system_ok_iff, Db.post_ok_iff,
      Db.updateIntent_ok_iff, Db.emit_ok_iff, pure_ok_iff] at h
    obtain ⟨userAccount, _, ⟨hu, rfl⟩, clearing, _, ⟨hc, rfl⟩, id, _, ⟨l, hpost, rfl⟩, _, _,
      ⟨_, rfl⟩, _, _, rfl, _, rfl⟩ := h
    exact ⟨l, _, _, rfl,
      Or.inr ⟨provider, amountMinor, channel, clearing, userAccount, id, rfl, hc, hu, hpost⟩⟩

end Deposits
end FootballIQ
