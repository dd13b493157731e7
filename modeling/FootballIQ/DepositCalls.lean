import FootballIQ.Interleaving
import FootballIQ.Wallet

/-!
# Deposits from checkout to settlement

The whole calls of the deposit service, every step a task of its own: opening an
intent writes a row with an empty provider reference, asks the gateway for a
checkout and then writes the reference; settling reads the intent, asks the
gateway what became of the payment and acts on the answer.
-/

namespace FootballIQ
namespace DepositCalls

open Transaction Relational Interleaving Deposits

/-- The database, what the gateway has answered for which intent, and what the
calls of `settle` have returned. -/
structure World where
  db : Db
  answers : List (ℕ × DepositVerification)
  returned : List (ℕ × PaymentStatus)
  deriving DecidableEq

/-- The provider behind the gateway and the address of the application. -/
structure Config where
  provider : String
  appUrl : String
  deriving DecidableEq

inductive Call where
  | initiate (userId : ℕ) (amountMinor : ℤ)
  | settle (reference : ℕ)
  deriving DecidableEq

structure InitializeDepositInput where
  userId : ℕ
  email : String
  amountMinor : ℤ
  currency : String
  reference : ℕ
  callbackUrl : String
  deriving DecidableEq

/-- A call in flight. -/
inductive Task where
  | ready (call : Call)
  | createIntent (user : User) (amountMinor : ℤ)
  | initializeDeposit (input : InitializeDepositInput)
  | attachRef (intentId : ℕ) (providerRef : String)
  | verifyDeposit (intent : PaymentIntent)
  | settleTx (intent : PaymentIntent) (verification : DepositVerification)
  deriving DecidableEq

/-- The clock of a step, and what the gateway answers if the step calls it: a
provider reference, if the checkout could be opened, and the state of a payment. -/
structure Tick where
  now : DateTime
  providerRef : Option String
  verification : DepositVerification
  deriving DecidableEq

section Initiate

/-- A row other than `id` has the pair of provider and reference. -/
def RefTaken (db : Db) (id : ℕ) (provider providerRef : String) : Prop :=
  ∃ i ∈ db.paymentIntents.rows, i.id ≠ id ∧ i.provider = provider ∧ i.providerRef = providerRef

instance (db : Db) (id : ℕ) (provider providerRef : String) :
    Decidable (RefTaken db id provider providerRef) :=
  inferInstanceAs (Decidable (∃ i ∈ db.paymentIntents.rows, i.id ≠ id ∧ i.provider = provider ∧
    i.providerRef = providerRef))

def newIntent (provider : String) (userId : ℕ) (amountMinor : ℤ) (id : ℕ) : PaymentIntent where
  id := id
  userId := userId
  provider := provider
  providerRef := ""
  amountMinor := amountMinor
  status := .initiated
  channel := none
  failReason := none
  settledAt := none

theorem id_newIntent (provider : String) (userId : ℕ) (amountMinor : ℤ) (id : ℕ) :
    Row.id (newIntent provider userId amountMinor id) = id := rfl

/-- The insert of `initiate`, under the unique index on provider and reference. -/
def createIntent (provider : String) (userId : ℕ) (amountMinor : ℤ) : Tx Failure Db ℕ := do
  let db ← get
  throwIf (RefTaken db db.paymentIntents.fresh provider "") .uniqueViolation
  set { db with
    paymentIntents := db.paymentIntents.insert (newIntent provider userId amountMinor)
      (id_newIntent provider userId amountMinor) }
  return db.paymentIntents.fresh

def initializeInput (config : Config) (user : User) (amountMinor : ℤ) (intentId : ℕ) :
    InitializeDepositInput where
  userId := user.id
  email := user.email
  amountMinor := amountMinor
  currency := "NGN"
  reference := intentId
  callbackUrl := config.appUrl ++ "/wallet/deposit/callback"

def attached (providerRef : String) (i : PaymentIntent) : PaymentIntent :=
  { i with providerRef := providerRef, status := .pending }

theorem id_attached (providerRef : String) (i : PaymentIntent) :
    Row.id (attached providerRef i) = Row.id i := rfl

/-- The update of `initiate`; the unique index holds for it too. -/
def attachRef (intentId : ℕ) (providerRef : String) : Tx Failure Db PUnit := do
  let db ← get
  let intent ← orThrow (db.paymentIntents.find intentId) .recordNotFound
  throwIf (RefTaken db intentId intent.provider providerRef) .uniqueViolation
  Db.updateIntent intentId (attached providerRef) (id_attached providerRef)

end Initiate

/-- Run a transaction and go on to `next` if it commits. -/
def thenDo {α : Type} (x : Tx Failure Db α) (w : World) (next : α → Option Task) :
    World × Option Task :=
  match x w.db with
  | .ok (a, db) => ({ w with db := db }, next a)
  | .error _ => (w, none)

def step (config : Config) (tick : Tick) (t : Task) (w : World) : World × Option Task :=
  match t with
  | .ready (.initiate userId amountMinor) =>
    (w, (w.db.users.find userId).map (fun user => .createIntent user amountMinor))
  | .createIntent user amountMinor =>
    thenDo (createIntent config.provider user.id amountMinor) w
      (fun id => some (.initializeDeposit (initializeInput config user amountMinor id)))
  | .initializeDeposit input => (w, tick.providerRef.map (.attachRef input.reference))
  | .attachRef intentId providerRef => thenDo (attachRef intentId providerRef) w (fun _ => none)
  | .ready (.settle reference) =>
    match settleRead reference w.db with
    | .ok (some intent, _) => (w, some (.verifyDeposit intent))
    | .ok (none, _) => ({ w with returned := w.returned ++ [(reference, .succeeded)] }, none)
    | .error _ => (w, none)
  | .verifyDeposit intent =>
    ({ w with answers := w.answers ++ [(intent.id, tick.verification)] },
      some (.settleTx intent tick.verification))
  | .settleTx intent verification =>
    match settleTx tick.now intent verification w.db with
    | .ok (status, db) =>
      ({ w with db := db, returned := w.returned ++ [(intent.id, status)] }, none)
    | .error _ => (w, none)

def protocol (config : Config) : Protocol World Call Task Tick := ⟨.ready, step config⟩

section Outcomes
variable {db db' : Db}

def refused (i : PaymentIntent) : PaymentIntent :=
  { i with status := .failed, failReason := some "Provider reported failure" }

theorem id_refused (i : PaymentIntent) : Row.id (refused i) = Row.id i := rfl

def succeeded (now : DateTime) (amountMinor : ℤ) (channel : String) (i : PaymentIntent) :
    PaymentIntent :=
  { i with
    status := .succeeded
    settledAt := some now
    channel := some channel
    amountMinor := amountMinor }

theorem id_succeeded (now : DateTime) (amountMinor : ℤ) (channel : String) (i : PaymentIntent) :
    Row.id (succeeded now amountMinor channel i) = Row.id i := rfl

theorem settleRead_none_iff (reference : ℕ) (db db' : Db) :
    settleRead reference db = .ok (none, db') ↔
      (∃ i, db.paymentIntents.find reference = some i ∧ i.status = .succeeded) ∧ db' = db := by
  simp only [settleRead, bind_ok_iff, get_ok_iff, orThrow_ok_iff, pure_ok_iff]
  constructor
  · rintro ⟨_, _, ⟨rfl, rfl⟩, i, _, ⟨hfind, rfl⟩, hs, rfl⟩
    split_ifs at hs with hstatus
    exact ⟨⟨i, hfind, hstatus⟩, rfl⟩
  · rintro ⟨⟨i, hfind, hstatus⟩, rfl⟩
    exact ⟨_, _, ⟨rfl, rfl⟩, i, _, ⟨hfind, rfl⟩, if_pos hstatus, rfl⟩

theorem settleRead_some_iff (reference : ℕ) (intent : PaymentIntent) (db db' : Db) :
    settleRead reference db = .ok (some intent, db') ↔
      db.paymentIntents.find reference = some intent ∧ intent.status ≠ .succeeded ∧ db' = db := by
  simp only [settleRead, bind_ok_iff, get_ok_iff, orThrow_ok_iff, pure_ok_iff]
  constructor
  · rintro ⟨_, _, ⟨rfl, rfl⟩, i, _, ⟨hfind, rfl⟩, hs, rfl⟩
    split_ifs at hs with hstatus
    cases hs
    exact ⟨hfind, hstatus, rfl⟩
  · rintro ⟨hfind, hstatus, rfl⟩
    exact ⟨_, _, ⟨rfl, rfl⟩, intent, _, ⟨hfind, rfl⟩, if_neg hstatus, rfl⟩

theorem settleTx_pending_ok_iff (now : DateTime) (intent : PaymentIntent) (status : PaymentStatus) :
    settleTx now intent .pending db = .ok (status, db') ↔ status = .pending ∧ db' = db := by
  simp only [settleTx, pure_ok_iff]
  exact and_congr eq_comm eq_comm

theorem settleTx_failed_ok_iff (now : DateTime) (intent : PaymentIntent) (status : PaymentStatus) :
    settleTx now intent .failed db = .ok (status, db') ↔
      db.paymentIntents.find intent.id ≠ none ∧ status = .failed ∧ db' = { db with
        paymentIntents := db.paymentIntents.update intent.id refused id_refused } := by
  simp only [settleTx, bind_ok_iff, Db.updateIntent_ok_iff, pure_ok_iff]
  constructor
  · rintro ⟨_, _, ⟨hrow, rfl⟩, rfl, rfl⟩
    exact ⟨hrow, rfl, rfl⟩
  · rintro ⟨hrow, rfl, rfl⟩
    exact ⟨⟨⟩, _, ⟨hrow, rfl⟩, rfl, rfl⟩

/-- The database after a successful settlement that left the ledger as `l`. -/
def settledDb (now : DateTime) (intent : PaymentIntent) (amountMinor : ℤ) (channel : String)
    (l : Ledger) (db : Db) : Db :=
  { db with
    ledger := l
    paymentIntents := db.paymentIntents.update intent.id (succeeded now amountMinor channel)
      (id_succeeded now amountMinor channel)
    outbox := db.outbox ++ [.walletCredited intent.userId amountMinor "DEPOSIT" intent.id] }

theorem settleTx_success_ok_iff (now : DateTime) (intent : PaymentIntent) (provider : String)
    (amountMinor : ℤ) (channel : String) (status : PaymentStatus) :
    settleTx now intent (.success provider amountMinor channel) db = .ok (status, db') ↔
      ∃ wallet clearing id l,
        WalletAccounts.ofUser db.ledger.accounts intent.userId .userAvailable "NGN" = some wallet ∧
        WalletAccounts.ofSystem db.ledger.accounts .gatewayClearing = some clearing ∧
        Ledger.post (depositInput intent provider amountMinor channel clearing wallet) db.ledger =
          .ok (id, l) ∧
        db.paymentIntents.find intent.id ≠ none ∧ status = .succeeded ∧
        db' = settledDb now intent amountMinor channel l db := by
  simp only [settleTx, bind_ok_iff, WalletAccounts.userAvailable_ok_iff,
    WalletAccounts.system_ok_iff, Db.post_ok_iff, Db.updateIntent_ok_iff, Db.emit_ok_iff, pure_ok_iff]
  constructor
  · rintro ⟨wallet, _, ⟨hu, rfl⟩, clearing, _, ⟨hc, rfl⟩, id, _, ⟨l, hpost, rfl⟩, _, _, ⟨hrow, rfl⟩,
      _, _, rfl, rfl, rfl⟩
    exact ⟨wallet, clearing, id, l, hu, hc, hpost, hrow, rfl, rfl⟩
  · rintro ⟨wallet, clearing, id, l, hu, hc, hpost, hrow, rfl, rfl⟩
    exact ⟨wallet, _, ⟨hu, rfl⟩, clearing, _, ⟨hc, rfl⟩, id, _, ⟨l, hpost, rfl⟩, ⟨⟩, _, ⟨hrow, rfl⟩,
      ⟨⟩, _, rfl, rfl, rfl⟩

theorem createIntent_ok_iff (provider : String) (userId : ℕ) (amountMinor : ℤ) (id : ℕ) :
    createIntent provider userId amountMinor db = .ok (id, db') ↔
      ¬ RefTaken db db.paymentIntents.fresh provider "" ∧ id = db.paymentIntents.fresh ∧
        db' = { db with
          paymentIntents := db.paymentIntents.insert (newIntent provider userId amountMinor)
            (id_newIntent provider userId amountMinor) } := by
  simp only [createIntent, bind_ok_iff, get_ok_iff, throwIf_ok_iff, set_ok_iff, pure_ok_iff]
  constructor
  · rintro ⟨_, _, ⟨rfl, rfl⟩, _, _, ⟨hfree, rfl⟩, _, _, rfl, rfl, rfl⟩
    exact ⟨hfree, rfl, rfl⟩
  · rintro ⟨hfree, rfl, rfl⟩
    exact ⟨db, db, ⟨rfl, rfl⟩, ⟨⟩, db, ⟨hfree, rfl⟩, ⟨⟩, _, rfl, rfl, rfl⟩

theorem attachRef_ok_iff (intentId : ℕ) (providerRef : String) (u : PUnit) :
    attachRef intentId providerRef db = .ok (u, db') ↔ ∃ i,
      db.paymentIntents.find intentId = some i ∧
      ¬ RefTaken db intentId i.provider providerRef ∧ db' = { db with
        paymentIntents := db.paymentIntents.update intentId (attached providerRef)
          (id_attached providerRef) } := by
  simp only [attachRef, bind_ok_iff, get_ok_iff, orThrow_ok_iff, throwIf_ok_iff,
    Db.updateIntent_ok_iff]
  constructor
  · rintro ⟨_, _, ⟨rfl, rfl⟩, i, _, ⟨hfind, rfl⟩, _, _, ⟨hfree, rfl⟩, _, rfl⟩
    exact ⟨i, hfind, hfree, rfl⟩
  · rintro ⟨i, hfind, hfree, rfl⟩
    exact ⟨db, db, ⟨rfl, rfl⟩, i, db, ⟨hfind, rfl⟩, ⟨⟩, db, ⟨hfree, rfl⟩, by simp [hfind], rfl⟩

end Outcomes

/-- Everything that a step can do; a step that fails ends its call and changes nothing. -/
inductive Effect (config : Config) (tick : Tick) (w : World) : Task → World → Option Task → Prop
  | stop (t : Task) : Effect config tick w t w none
  | userFound (userId : ℕ) (amountMinor : ℤ) (user : User)
    (hfind : w.db.users.find userId = some user) :
    Effect config tick w (.ready (.initiate userId amountMinor)) w
      (some (.createIntent user amountMinor))
  | created (user : User) (amountMinor : ℤ)
    (hfree : ¬ RefTaken w.db w.db.paymentIntents.fresh config.provider "") :
    Effect config tick w (.createIntent user amountMinor)
      { w with db := { w.db with
          paymentIntents := w.db.paymentIntents.insert (newIntent config.provider user.id amountMinor)
            (id_newIntent config.provider user.id amountMinor) } }
      (some (.initializeDeposit (initializeInput config user amountMinor w.db.paymentIntents.fresh)))
  | initialized (input : InitializeDepositInput) (providerRef : String)
    (hanswer : tick.providerRef = some providerRef) :
    Effect config tick w (.initializeDeposit input) w (some (.attachRef input.reference providerRef))
  | attached (intentId : ℕ) (providerRef : String) (i : PaymentIntent)
    (hfind : w.db.paymentIntents.find intentId = some i)
    (hfree : ¬ RefTaken w.db intentId i.provider providerRef) :
    Effect config tick w (.attachRef intentId providerRef)
      { w with db := { w.db with
          paymentIntents := w.db.paymentIntents.update intentId (attached providerRef)
            (id_attached providerRef) } } none
  | intentRead (reference : ℕ) (intent : PaymentIntent)
    (hfind : w.db.paymentIntents.find reference = some intent)
    (hstatus : intent.status ≠ .succeeded) :
    Effect config tick w (.ready (.settle reference)) w (some (.verifyDeposit intent))
  | alreadySettled (reference : ℕ) (i : PaymentIntent)
    (hfind : w.db.paymentIntents.find reference = some i) (hstatus : i.status = .succeeded) :
    Effect config tick w (.ready (.settle reference))
      { w with returned := w.returned ++ [(reference, .succeeded)] } none
  | verified (intent : PaymentIntent) :
    Effect config tick w (.verifyDeposit intent)
      { w with answers := w.answers ++ [(intent.id, tick.verification)] }
      (some (.settleTx intent tick.verification))
  | stillPending (intent : PaymentIntent) :
    Effect config tick w (.settleTx intent .pending)
      { w with returned := w.returned ++ [(intent.id, .pending)] } none
  | refused (intent : PaymentIntent) (hrow : w.db.paymentIntents.find intent.id ≠ none) :
    Effect config tick w (.settleTx intent .failed)
      { w with
        db := { w.db with
          paymentIntents := w.db.paymentIntents.update intent.id refused id_refused }
        returned := w.returned ++ [(intent.id, .failed)] } none
  | succeeded (intent : PaymentIntent) (provider : String) (amountMinor : ℤ) (channel : String)
    (wallet clearing : LedgerAccount) (id : ℕ) (l : Ledger)
    (hwallet : WalletAccounts.ofUser w.db.ledger.accounts intent.userId .userAvailable "NGN" =
      some wallet)
    (hclearing : WalletAccounts.ofSystem w.db.ledger.accounts .gatewayClearing = some clearing)
    (hpost : Ledger.post (depositInput intent provider amountMinor channel clearing wallet)
      w.db.ledger = .ok (id, l)) :
    Effect config tick w (.settleTx intent (.success provider amountMinor channel))
      { w with
        db := settledDb tick.now intent amountMinor channel l w.db
        returned := w.returned ++ [(intent.id, .succeeded)] } none

theorem effect_thenDo {config : Config} {tick : Tick} {w : World} {t : Task} {α : Type}
    {x : Tx Failure Db α} {next : α → Option Task}
    (hx : ∀ a db, x w.db = .ok (a, db) → Effect config tick w t { w with db := db } (next a)) :
    Effect config tick w t (thenDo x w next).1 (thenDo x w next).2 := by
  unfold thenDo
  cases hrun : x w.db with
  | ok r => exact hx r.1 r.2 hrun
  | error e => exact Effect.stop t

theorem effect_step (config : Config) (tick : Tick) (t : Task) (w : World) :
    Effect config tick w t (step config tick t w).1 (step config tick t w).2 := by
  cases t with
  | ready call =>
    cases call with
    | initiate userId amountMinor =>
      cases hfind : w.db.users.find userId with
      | none =>
        simp only [step, hfind, Option.map_none]
        exact Effect.stop _
      | some user =>
        simp only [step, hfind, Option.map_some]
        exact Effect.userFound userId amountMinor user hfind
    | settle reference =>
      cases hread : settleRead reference w.db with
      | error e =>
        simp only [step, hread]
        exact Effect.stop _
      | ok r =>
        obtain ⟨o, db⟩ := r
        cases o with
        | none =>
          obtain ⟨⟨i, hfind, hstatus⟩, _⟩ := (settleRead_none_iff reference w.db db).1 hread
          simp only [step, hread]
          exact Effect.alreadySettled reference i hfind hstatus
        | some intent =>
          obtain ⟨hfind, hstatus, _⟩ := (settleRead_some_iff reference intent w.db db).1 hread
          simp only [step, hread]
          exact Effect.intentRead reference intent hfind hstatus
  | createIntent user amountMinor =>
    apply effect_thenDo
    intro id db hok
    obtain ⟨hfree, rfl, rfl⟩ := (createIntent_ok_iff config.provider user.id amountMinor id).1 hok
    exact Effect.created user amountMinor hfree
  | initializeDeposit input =>
    cases hanswer : tick.providerRef with
    | none =>
      simp only [step, hanswer, Option.map_none]
      exact Effect.stop _
    | some providerRef =>
      simp only [step, hanswer, Option.map_some]
      exact Effect.initialized input providerRef hanswer
  | attachRef intentId providerRef =>
    apply effect_thenDo
    intro u db hok
    obtain ⟨i, hfind, hfree, rfl⟩ := (attachRef_ok_iff intentId providerRef u).1 hok
    exact Effect.attached intentId providerRef i hfind hfree
  | verifyDeposit intent => exact Effect.verified intent
  | settleTx intent verification =>
    cases hrun : settleTx tick.now intent verification w.db with
    | error e =>
      simp only [step, hrun]
      exact Effect.stop _
    | ok r =>
      obtain ⟨status, db⟩ := r
      simp only [step, hrun]
      cases verification with
      | pending =>
        obtain ⟨rfl, rfl⟩ := (settleTx_pending_ok_iff tick.now intent status).1 hrun
        exact Effect.stillPending intent
      | failed =>
        obtain ⟨hrow, rfl, rfl⟩ := (settleTx_failed_ok_iff tick.now intent status).1 hrun
        exact Effect.refused intent hrow
      | success provider amountMinor channel =>
        obtain ⟨wallet, clearing, id, l, hu, hc, hpost, _, rfl, rfl⟩ :=
          (settleTx_success_ok_iff tick.now intent provider amountMinor channel status).1 hrun
        exact Effect.succeeded intent provider amountMinor channel wallet clearing id l hu hc hpost

end DepositCalls
end FootballIQ
