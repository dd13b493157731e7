import FootballIQ.DepositRuns
import FootballIQ.Saga
import FootballIQ.Sequential

/-!
# The log of inbound webhooks

Every delivery is logged under its event and reference before it is processed, and
a second delivery of the pair is ignored. What processing made of the first one, or
that it threw, is only written to the log.
-/

namespace FootballIQ
namespace WebhookInbox

open Transaction Relational Deposits DepositCalls DepositRuns
open Saga (atomically attempt)

section Handler

structure WebhookData where
  reference : Option ℕ
  deriving DecidableEq

structure Payload where
  event : String
  data : Option WebhookData
  deriving DecidableEq

/-- A delivery with the answers that its processing gets: whether the signature is
valid, what the gateway says of the payment, and what the reads and writes throw. -/
structure Delivery where
  now : DateTime
  valid : Bool
  payload : Payload
  reading : Except Failure PUnit
  verification : Except Failure DepositVerification
  writing : Except Failure PUnit
  deriving DecidableEq

def settle (d : Delivery) (reference : ℕ) : Saga Failure Db PaymentStatus := do
  atomically (check d.reading)
  match ← atomically (settleRead reference) with
  | none => return .succeeded
  | some intent =>
    match ← atomically (check d.verification) with
    | .pending => return .pending
    | verification => atomically (do check d.writing; settleTx d.now intent verification)

def dedupeRef (payload : Payload) : String :=
  payload.event ++ ":" ++ ((payload.data.bind (·.reference)).elim "unknown" toString)

/-- The unique index on provider and reference of the log. -/
def Logged (db : Db) (providerRef : String) : Prop :=
  ∃ e ∈ db.webhookEvents.rows, e.provider = "PAYSTACK" ∧ e.providerRef = providerRef

instance (db : Db) (providerRef : String) : Decidable (Logged db providerRef) :=
  inferInstanceAs (Decidable (∃ e ∈ db.webhookEvents.rows, e.provider = "PAYSTACK" ∧
    e.providerRef = providerRef))

def newEvent (providerRef : String) (id : ℕ) : WebhookEvent where
  id := id
  provider := "PAYSTACK"
  providerRef := providerRef
  processedAt := none
  error := none

theorem id_newEvent (providerRef : String) (id : ℕ) : Row.id (newEvent providerRef id) = id := rfl

def logged (providerRef : String) (db : Db) : Db :=
  { db with
    webhookEvents := db.webhookEvents.insert (newEvent providerRef) (id_newEvent providerRef) }

def logEvent (providerRef : String) : Tx Failure Db PUnit := do
  let db ← get
  throwIf (Logged db providerRef) .uniqueViolation
  set (logged providerRef db)

/-- The access to a field of missing data throws. -/
def referenceOf (payload : Payload) : Except Failure (Option ℕ) :=
  match payload.data with
  | some data => .ok data.reference
  | none => .error (.error "Cannot read properties of undefined (reading 'reference')")

def process (d : Delivery) : Saga Failure Db PUnit :=
  if d.payload.event = "charge.success" then do
    match ← atomically (check (referenceOf d.payload)) with
    | some reference =>
      let _ ← settle d reference
      return ⟨⟩
    | none => return ⟨⟩
  else if "transfer.".toList <+: d.payload.event.toList then do
    match ← atomically (check (referenceOf d.payload)) with
    | some reference =>
      atomically (Db.emit (.paymentWebhookReceived "PAYSTACK" d.payload.event reference))
    | none => return ⟨⟩
  else return ⟨⟩

def processed (now : DateTime) (error : Option String) (e : WebhookEvent) : WebhookEvent :=
  { e with processedAt := some now, error := error }

theorem id_processed (now : DateTime) (error : Option String) (e : WebhookEvent) :
    Row.id (processed now error e) = Row.id e := rfl

def marked (now : DateTime) (providerRef : String) (error : Option String) (db : Db) : Db :=
  { db with
    webhookEvents := db.webhookEvents.updateWhere
      (fun e => e.provider = "PAYSTACK" ∧ e.providerRef = providerRef) (processed now error)
      (id_processed now error) }

def markProcessed (now : DateTime) (providerRef : String) (error : Option String) :
    Tx Failure Db PUnit := do
  let db ← get
  throwIf (¬ Logged db providerRef) .recordNotFound
  set (marked now providerRef error db)

def errorOf (message : Failure → String) : Except Failure PUnit → Option String
  | .ok _ => none
  | .error e => some (message e)

/-- `message` is the text of an exception. -/
def handlePaystack (message : Failure → String) (d : Delivery) : Saga Failure Db PUnit := do
  atomically (throwIf (d.valid = false) (.unauthorized "BAD_WEBHOOK_SIGNATURE"))
  match ← attempt (atomically (logEvent (dedupeRef d.payload))) with
  | .error .uniqueViolation => return ⟨⟩
  | .error e => atomically (throw e)
  | .ok _ =>
    let outcome ← attempt (process d)
    atomically (markProcessed d.now (dedupeRef d.payload) (errorOf message outcome))

/-- What a delivery makes of the database. -/
def receive (message : Failure → String) (d : Delivery) : Db → Db :=
  Saga.exec (handlePaystack message d)

end Handler

section Log
variable {message : Failure → String} {d : Delivery} {db : Db}

theorem logEvent_of_logged {providerRef : String} (h : Logged db providerRef) :
    logEvent providerRef db = .error .uniqueViolation := by
  change (throwIf (Logged db providerRef) Failure.uniqueViolation >>=
    fun _ => set (logged providerRef db)) db = _
  rw [throwIf, if_pos h]
  rfl

theorem logEvent_ok_iff (providerRef : String) (r : PUnit × Db) :
    logEvent providerRef db = .ok r ↔ ¬ Logged db providerRef ∧ logged providerRef db = r.2 := by
  simp only [logEvent, bind_ok_iff, get_ok_iff, throwIf_ok_iff, set_ok_iff]
  constructor
  · rintro ⟨_, _, ⟨rfl, rfl⟩, _, _, ⟨hfree, rfl⟩, hr⟩
    exact ⟨hfree, hr⟩
  · rintro ⟨hfree, hr⟩
    exact ⟨db, db, ⟨rfl, rfl⟩, ⟨⟩, db, ⟨hfree, rfl⟩, hr⟩

theorem logged_logged (providerRef : String) (db : Db) : Logged (logged providerRef db) providerRef :=
  ⟨newEvent providerRef db.webhookEvents.fresh, List.mem_append_right _ List.mem_cons_self, rfl, rfl⟩

theorem logged_congr {db' : Db} (h : db'.webhookEvents = db.webhookEvents) (providerRef : String) :
    Logged db' providerRef ↔ Logged db providerRef := by
  unfold Logged
  rw [h]

def logColumns (e : WebhookEvent) : ℕ × String × String := (e.id, e.provider, e.providerRef)

theorem logged_of_same {db' : Db} {providerRef : String}
    (h : Table.Same logColumns db.webhookEvents db'.webhookEvents) (hl : Logged db providerRef) :
    Logged db' providerRef := by
  obtain ⟨e, he, hprovider, href⟩ := hl
  obtain ⟨e', he', heq⟩ := h.mem_of he
  simp only [logColumns, Prod.mk.injEq] at heq
  exact ⟨e', he', heq.2.1.trans hprovider, heq.2.2.trans href⟩

theorem same_marked (now : DateTime) (providerRef : String) (error : Option String) (db : Db) :
    Table.Same logColumns db.webhookEvents (marked now providerRef error db).webhookEvents :=
  Table.same_updateWhere (id_processed now error) (fun _ _ _ => rfl)

/-- Whether it returns or fails, `x` leaves the log as it was. -/
def KeepsLog (log : Table WebhookEvent) {α : Type} (x : Saga Failure Db α) : Prop :=
  Saga.Triple (fun db => db.webhookEvents = log) x (fun _ db => db.webhookEvents = log)
    (fun db => db.webhookEvents = log)

theorem keepsLog_atomically {log : Table WebhookEvent} {α : Type} {x : Tx Failure Db α}
    (h : ∀ db r, x db = .ok r → r.2.webhookEvents = db.webhookEvents) :
    KeepsLog log (atomically x) := by
  apply Saga.Triple.atomically _ (fun _ hlog => hlog)
  intro db a db' hlog hrun
  exact (h db (a, db') hrun).trans hlog

theorem settle_keepsLog (d : Delivery) (reference : ℕ) (log : Table WebhookEvent) :
    KeepsLog log (settle d reference) := by
  have hwrite : ∀ intent verification,
      KeepsLog log (atomically (do check d.writing; settleTx d.now intent verification)) := by
    intro intent verification
    apply keepsLog_atomically
    rintro db ⟨status, db'⟩ hrun
    obtain ⟨_, _, hwriting, hrun⟩ := (bind_ok_iff _ _ _ _).1 hrun
    obtain ⟨_, rfl⟩ := (check_ok_iff _ _ _ _).1 hwriting
    obtain ⟨l, intents, events, rfl, _⟩ := settleTx_ok hrun
    rfl
  apply Saga.Triple.bind (Saga.Triple.check d.reading)
  intro u
  apply Saga.Triple.bind (Q := fun _ db => db.webhookEvents = log)
  · apply keepsLog_atomically
    rintro db ⟨o, db'⟩ hrun
    cases o with
    | none => rw [((settleRead_none_iff _ _ _).1 hrun).2]
    | some intent => rw [((settleRead_some_iff _ _ _ _).1 hrun).2.2]
  · intro o
    cases o with
    | none => exact Saga.Triple.pure (fun _ h => h)
    | some intent =>
      apply Saga.Triple.bind (Saga.Triple.check d.verification)
      intro verification
      cases verification with
      | pending => exact Saga.Triple.pure (fun _ h => h)
      | failed => exact hwrite intent .failed
      | success provider amountMinor channel =>
        exact hwrite intent (.success provider amountMinor channel)

theorem process_keepsLog (d : Delivery) (log : Table WebhookEvent) : KeepsLog log (process d) := by
  unfold process
  split_ifs
  · apply Saga.Triple.bind (Saga.Triple.check _)
    intro o
    cases o with
    | none => exact Saga.Triple.pure (fun _ h => h)
    | some reference =>
      apply Saga.Triple.bind (settle_keepsLog d reference log)
      intro status
      exact Saga.Triple.pure (fun _ h => h)
  · apply Saga.Triple.bind (Saga.Triple.check _)
    intro o
    cases o with
    | none => exact Saga.Triple.pure (fun _ h => h)
    | some reference =>
      apply keepsLog_atomically
      rintro db ⟨u, db'⟩ hrun
      obtain rfl := (Db.emit_ok_iff _ _ _).1 hrun
      rfl
  · exact Saga.Triple.pure (fun _ h => h)

theorem webhookEvents_process (d : Delivery) (db : Db) :
    (Saga.exec (process d) db).webhookEvents = db.webhookEvents :=
  (process_keepsLog d db.webhookEvents).exec rfl

theorem markProcessed_of_logged {now : DateTime} {providerRef : String} {error : Option String}
    (h : Logged db providerRef) :
    markProcessed now providerRef error db = .ok (⟨⟩, marked now providerRef error db) := by
  simp only [markProcessed, bind_ok_iff, get_ok_iff, throwIf_ok_iff, set_ok_iff]
  exact ⟨db, db, ⟨rfl, rfl⟩, ⟨⟩, db, ⟨not_not.2 h, rfl⟩, rfl⟩

theorem valid_ok (hvalid : d.valid = true) :
    (throwIf (d.valid = false) (.unauthorized "BAD_WEBHOOK_SIGNATURE") : Tx Failure Db PUnit) db =
      .ok (⟨⟩, db) :=
  (throwIf_ok_iff _ _ _ _).2 ⟨by simp [hvalid], rfl⟩

/-- A delivery that the log has already is answered and ignored. -/
theorem handlePaystack_of_logged (hvalid : d.valid = true) (h : Logged db (dedupeRef d.payload)) :
    handlePaystack message d db = (.ok ⟨⟩, db) := by
  unfold handlePaystack
  rw [Saga.bind_of_ok (Saga.atomically_of_ok (valid_ok hvalid))]
  rw [Saga.bind_of_ok (Saga.attempt_eq _ _)]
  rw [Saga.atomically_of_error (logEvent_of_logged h)]
  simp only [Saga.exec, Saga.atomically_of_error (logEvent_of_logged h)]
  rfl

/-- The first delivery of a pair is logged, processed and marked; its exceptions are
swallowed, and it is answered in every case. -/
theorem handlePaystack_of_first (hvalid : d.valid = true)
    (h : ¬ Logged db (dedupeRef d.payload)) :
    handlePaystack message d db = (.ok ⟨⟩, marked d.now (dedupeRef d.payload)
      (errorOf message (process d (logged (dedupeRef d.payload) db)).1)
      (Saga.exec (process d) (logged (dedupeRef d.payload) db))) := by
  have hlog := (logEvent_ok_iff (dedupeRef d.payload) (⟨⟩, logged (dedupeRef d.payload) db)).2
    ⟨h, rfl⟩
  have hmark : Logged (Saga.exec (process d) (logged (dedupeRef d.payload) db))
      (dedupeRef d.payload) :=
    (logged_congr (webhookEvents_process d _) _).2 (logged_logged _ db)
  unfold handlePaystack
  rw [Saga.bind_of_ok (Saga.atomically_of_ok (valid_ok hvalid))]
  rw [Saga.bind_of_ok (Saga.attempt_eq _ _)]
  rw [Saga.atomically_of_ok hlog]
  simp only [Saga.exec, Saga.atomically_of_ok hlog]
  rw [Saga.bind_of_ok (Saga.attempt_eq _ _)]
  exact Saga.atomically_of_ok (markProcessed_of_logged hmark)

end Log

section Property

/-- A validly signed confirmation of the payment. -/
def ChargeFor (reference : ℕ) (d : Delivery) : Prop :=
  d.valid = true ∧ d.payload = ⟨"charge.success", some ⟨some reference⟩⟩

/-- The gateway answers with a positive amount, and nothing throws. -/
def Confirmed (d : Delivery) : Prop :=
  d.reading = .ok ⟨⟩ ∧ d.writing = .ok ⟨⟩ ∧ ∃ provider amountMinor channel,
    d.verification = .ok (.success provider amountMinor channel) ∧ 0 < amountMinor

/-- Nothing throws, and the amount of the answer can be posted. -/
def Credits (db : Db) (reference : ℕ) (d : Delivery) : Prop :=
  d.reading = .ok ⟨⟩ ∧ d.writing = .ok ⟨⟩ ∧ ∃ provider amountMinor channel,
    d.verification = .ok (.success provider amountMinor channel) ∧ amountMinor ≠ 0 ∧
    ∀ i, db.paymentIntents.find reference = some i → 0 ≤ walletBalance db i.userId + amountMinor

/-- From the point on where every answer is a confirmation, each delivery that is
handled leaves the deposit of the intent behind. -/
def NotLost (message : Failure → String) (reference : ℕ) (db : Db) (ds : List Delivery) : Prop :=
  ∀ earlier handled later, ds = earlier ++ handled ++ later → handled ≠ [] →
    (∀ d ∈ handled ++ later, Confirmed d) →
    depositsOf (Sequential.run (receive message) db (earlier ++ handled)) reference ≠ []

/-- An intent without a deposit, and the accounts to post one to. -/
structure Ready (reference : ℕ) (db : Db) : Prop where
  intent : ∃ i wallet, db.paymentIntents.find reference = some i ∧ i.status ≠ .succeeded ∧
    WalletAccounts.ofUser db.ledger.accounts i.userId .userAvailable "NGN" = some wallet
  clearing : ∃ clearing, WalletAccounts.ofSystem db.ledger.accounts .gatewayClearing = some clearing
  unposted : db.ledger.entryByKey (depositKey reference) = none

/-- No confirmation of the payment has been delivered yet either. -/
structure Awaiting (reference : ℕ) (db : Db) : Prop extends Ready reference db where
  unlogged : ¬ Logged db (dedupeRef ⟨"charge.success", some ⟨some reference⟩⟩)

end Property

section First
variable {reference : ℕ} {db : Db} {d : Delivery}

/-- A deposit under a fresh key is posted exactly when its amount counts and the
wallet stays non-negative. -/
theorem post_deposit_ok_iff {intent : PaymentIntent} {provider channel : String}
    {amountMinor : ℤ} {wallet clearing : LedgerAccount}
    (hwallet : WalletAccounts.ofUser db.ledger.accounts intent.userId .userAvailable "NGN" =
      some wallet)
    (hclearing : WalletAccounts.ofSystem db.ledger.accounts .gatewayClearing = some clearing)
    (hkey : db.ledger.entryByKey (depositKey intent.id) = none) (r : ℕ × Ledger) :
    Ledger.post (depositInput intent provider amountMinor channel clearing wallet) db.ledger = .ok r ↔
      (amountMinor ≠ 0 ∧ 0 ≤ wallet.balanceMinor + amountMinor) ∧
        r = (db.ledger.journal.fresh, Ledger.posted db.ledger
          (depositInput intent provider amountMinor channel clearing wallet)) := by
  obtain ⟨hmem, _, htype, _⟩ := WalletAccounts.ofUser_some hwallet
  obtain ⟨hcmem, hctype, _⟩ := WalletAccounts.ofSystem_some hclearing
  have hfind : db.ledger.accounts.find wallet.id = some wallet := db.ledger.accounts.find_id hmem
  have hcfind : db.ledger.accounts.find clearing.id = some clearing :=
    db.ledger.accounts.find_id hcmem
  have hne : wallet.id ≠ clearing.id := by
    intro heq
    have hsame := Table.eq_of_id_eq _ hmem hcmem heq
    rw [hsame, hctype] at htype
    cases htype
  have hvalid : Ledger.validateLines (depositInput intent provider amountMinor channel clearing
      wallet).lines = .ok () ↔ amountMinor ≠ 0 := by
    rw [Ledger.validateLines_ok_iff]
    simp [depositInput, Ledger.lineTotal]
  have hon : Ledger.amountOn wallet.id (depositInput intent provider amountMinor channel clearing
      wallet).lines = amountMinor := (amountOn_deposit hne).trans (if_pos rfl)
  have hnonneg : wallet.type ∈ Ledger.nonNegativeAccountTypes := by
    rw [htype]
    decide
  constructor
  · intro h
    obtain ⟨id, l⟩ := r
    obtain ⟨hv, ⟨j, hj, _⟩ | ⟨_, rfl, rfl, _, hcovers⟩⟩ := Ledger.post_ok_cases h
    · cases hkey.symm.trans hj
    · have hcover := hcovers ⟨wallet.id, amountMinor⟩ (by simp [depositInput]) wallet hfind hnonneg
      rw [hon] at hcover
      exact ⟨⟨hvalid.1 hv, hcover⟩, rfl⟩
  · rintro ⟨⟨hzero, hcover⟩, rfl⟩
    apply Ledger.post_of_nodup (hvalid.2 hzero) hkey
    · simpa [depositInput] using hne.symm
    · simp [depositInput, hfind, hcfind]
    · intro line hline a ha hatype
      simp only [depositInput, List.mem_cons, List.not_mem_nil, or_false] at hline
      obtain rfl | rfl := hline
      · rw [hcfind] at ha
        cases ha
        rw [hctype] at hatype
        exact absurd hatype (by decide)
      · rw [hfind] at ha
        cases ha
        rw [hon]
        exact hcover

theorem depositsOf_congr {db' : Db} (h : db'.ledger = db.ledger) (k : ℕ) :
    depositsOf db' k = depositsOf db k := by
  unfold depositsOf
  rw [h]

theorem Ready.depositsOf_eq_nil (h : Ready reference db) : depositsOf db reference = [] := by
  rw [depositsOf, Table.findMany_eq_nil_iff]
  rintro j hmem ⟨_, hkey⟩
  exact (Ledger.entryByKey_eq_none_iff _ _).1 h.unposted j hmem hkey

/-- The writes of a success leave the deposit exactly when they go through. -/
theorem deposited_write_iff (h : Ready reference db) {i : PaymentIntent}
    (hfind : db.paymentIntents.find reference = some i) (now : DateTime)
    (writing : Except Failure PUnit) (provider channel : String) (amountMinor : ℤ) :
    depositsOf (commit (do check writing; settleTx now i (.success provider amountMinor channel))
      db) reference ≠ [] ↔
      writing = .ok ⟨⟩ ∧ amountMinor ≠ 0 ∧ 0 ≤ walletBalance db i.userId + amountMinor := by
  obtain ⟨i', wallet, hfind', _, hwallet⟩ := h.intent
  obtain rfl : i' = i := Option.some.inj (hfind'.symm.trans hfind)
  obtain ⟨clearing, hclearing⟩ := h.clearing
  obtain rfl : i'.id = reference := ((Table.find_eq_some_iff _ _ i').1 hfind).2
  have hbalance : walletBalance db i'.userId = wallet.balanceMinor := by
    unfold walletBalance
    rw [hwallet]
    rfl
  constructor
  · intro hdeposit
    obtain ⟨status, db', hrun, _⟩ | ⟨_, _, hcommit⟩ := commit_cases
      (do check writing; settleTx now i' (.success provider amountMinor channel)) db
    · obtain ⟨_, _, hwriting, hrun⟩ := (bind_ok_iff _ _ _ _).1 hrun
      obtain ⟨hok, rfl⟩ := (check_ok_iff _ _ _ _).1 hwriting
      obtain ⟨wallet', clearing', id, l, hwallet', hclearing', hpost, _⟩ :=
        (settleTx_success_ok_iff now i' provider amountMinor channel status).1 hrun
      obtain rfl : wallet = wallet' := Option.some.inj (hwallet.symm.trans hwallet')
      obtain ⟨⟨hzero, hcover⟩, _⟩ := (post_deposit_ok_iff hwallet hclearing' h.unposted _).1 hpost
      exact ⟨hok, hzero, hbalance ▸ hcover⟩
    · rw [hcommit, h.depositsOf_eq_nil] at hdeposit
      exact absurd rfl hdeposit
  · rintro ⟨hwriting, hzero, hcover⟩
    have hpost : Ledger.post (depositInput i' provider amountMinor channel clearing wallet)
        db.ledger = .ok _ :=
      (post_deposit_ok_iff hwallet hclearing h.unposted _).2 ⟨⟨hzero, hbalance ▸ hcover⟩, rfl⟩
    have hrun := (settleTx_success_ok_iff now i' provider amountMinor channel .succeeded).2
      ⟨wallet, clearing, _, _, hwallet, hclearing, hpost, by rw [hfind]; rintro ⟨⟩, rfl, rfl⟩
    have hbind := (bind_ok_iff (check writing) (fun _ =>
      settleTx now i' (.success provider amountMinor channel)) db _).2
      ⟨⟨⟩, db, (check_ok_iff _ _ _ _).2 ⟨hwriting, rfl⟩, hrun⟩
    rw [commit_of_ok hbind]
    change depositsOf (postedDb db _) i'.id ≠ []
    rw [depositsOf_postedDb, if_pos rfl]
    exact List.append_ne_nil_of_right_ne_nil _ (List.cons_ne_nil _ _)

/-- A call of `settle` for a waiting intent leaves its deposit exactly when it credits. -/
theorem deposited_settle_iff (h : Ready reference db) (d : Delivery) :
    depositsOf (Saga.exec (settle d reference) db) reference ≠ [] ↔ Credits db reference d := by
  obtain ⟨i, _, hfind, hstatus, _⟩ := h.intent
  have haside : ∀ {db' : Db}, db'.ledger = db.ledger → ¬ depositsOf db' reference ≠ [] := by
    intro db' hl hdeposit
    rw [depositsOf_congr hl, h.depositsOf_eq_nil] at hdeposit
    exact hdeposit rfl
  have hread : atomically (settleRead reference) db = (.ok (some i), db) :=
    Saga.atomically_of_ok ((settleRead_some_iff reference i db db).2 ⟨hfind, hstatus, rfl⟩)
  unfold settle Credits
  cases d.reading with
  | error e =>
    rw [Saga.exec_bind_of_error (Saga.atomically_check_error e db)]
    exact iff_of_false (haside rfl) (fun hcredits => by cases hcredits.1)
  | ok u =>
    rw [Saga.exec_bind_of_ok (Saga.atomically_check_ok u db), Saga.exec_bind_of_ok hread]
    cases d.verification with
    | error e =>
      simp only []
      rw [Saga.exec_bind_of_error (Saga.atomically_check_error e db)]
      refine iff_of_false (haside rfl) ?_
      rintro ⟨_, _, _, _, _, ⟨⟩, _⟩
    | ok verification =>
      simp only []
      rw [Saga.exec_bind_of_ok (Saga.atomically_check_ok verification db)]
      cases verification with
      | pending =>
        refine iff_of_false (haside rfl) ?_
        rintro ⟨_, _, _, _, _, ⟨⟩, _⟩
      | failed =>
        simp only [Saga.exec_atomically]
        refine iff_of_false (haside ?_) ?_
        · obtain ⟨status, db', hrun, hcommit⟩ | ⟨_, _, hcommit⟩ := commit_cases
            (do check d.writing; settleTx d.now i .failed) db
          · rw [hcommit]
            obtain ⟨_, _, hwriting, hrun⟩ := (bind_ok_iff _ _ _ _).1 hrun
            obtain ⟨_, rfl⟩ := (check_ok_iff _ _ _ _).1 hwriting
            obtain ⟨_, _, rfl⟩ := (settleTx_failed_ok_iff d.now i status).1 hrun
            rfl
          · rw [hcommit]
        · rintro ⟨_, _, _, _, _, ⟨⟩, _⟩
      | success provider amountMinor channel =>
        simp only [Saga.exec_atomically]
        rw [deposited_write_iff h hfind]
        constructor
        · rintro ⟨hwriting, hzero, hcover⟩
          refine ⟨trivial, hwriting, provider, amountMinor, channel, rfl, hzero, ?_⟩
          intro i' hfind'
          rwa [← Option.some.inj (hfind.symm.trans hfind')]
        · rintro ⟨_, hwriting, _, _, _, ⟨⟩, hzero, hcover⟩
          exact ⟨hwriting, hzero, hcover i hfind⟩

end First

section Runs
variable {message : Failure → String} {reference : ℕ} {db : Db} {d : Delivery}

theorem receive_of_logged (hd : ChargeFor reference d)
    (h : Logged db (dedupeRef ⟨"charge.success", some ⟨some reference⟩⟩)) :
    receive message d db = db := by
  rw [← hd.2] at h
  unfold receive Saga.exec
  rw [handlePaystack_of_logged hd.1 h]

/-- Once the pair is in the log, further deliveries change nothing. -/
theorem run_of_logged {ds : List Delivery} (hds : ∀ d ∈ ds, ChargeFor reference d)
    (h : Logged db (dedupeRef ⟨"charge.success", some ⟨some reference⟩⟩)) :
    Sequential.run (receive message) db ds = db := by
  induction ds with
  | nil => rfl
  | cons d ds ih =>
    rw [Sequential.run_cons, receive_of_logged (hds d List.mem_cons_self) h]
    exact ih (fun d' hd' => hds d' (List.mem_cons_of_mem d hd'))

theorem receive_of_first (message : Failure → String) (hd : ChargeFor reference d)
    (h : ¬ Logged db (dedupeRef ⟨"charge.success", some ⟨some reference⟩⟩)) :
    Logged (receive message d db) (dedupeRef ⟨"charge.success", some ⟨some reference⟩⟩) ∧
      (receive message d db).ledger = (Saga.exec (settle d reference) (logged (dedupeRef
        ⟨"charge.success", some ⟨some reference⟩⟩) db)).ledger := by
  have hprocess : ∀ db, Saga.exec (process d) db = Saga.exec (settle d reference) db := by
    intro db
    have hreference : atomically (check (referenceOf d.payload)) db = (.ok (some reference), db) := by
      rw [hd.2]
      rfl
    unfold process
    rw [if_pos (congrArg Payload.event hd.2), Saga.exec_bind_of_ok hreference]
    unfold Saga.exec
    cases hsettle : settle d reference db with
    | mk r db' =>
      cases r with
      | ok status =>
        simp only []
        rw [Saga.bind_of_ok hsettle]
        rfl
      | error e =>
        simp only []
        rw [Saga.bind_of_error hsettle]
  rw [← hd.2] at h ⊢
  unfold receive
  rw [Saga.exec, handlePaystack_of_first hd.1 h, ← hprocess]
  refine ⟨logged_of_same (same_marked _ _ _ _) ?_, rfl⟩
  exact (logged_congr (webhookEvents_process d _) _).2 (logged_logged _ db)

/-- The first delivery decides whether the deposit is there. -/
theorem deposited_run_iff (h : Awaiting reference db) {ds : List Delivery}
    (hds : ∀ x ∈ d :: ds, ChargeFor reference x) :
    depositsOf (Sequential.run (receive message) db (d :: ds)) reference ≠ [] ↔
      Credits db reference d := by
  obtain ⟨hlogged, hledger⟩ :=
    receive_of_first message (hds d List.mem_cons_self) h.unlogged
  rw [Sequential.run_cons, run_of_logged (fun x hx => hds x (List.mem_cons_of_mem d hx)) hlogged,
    depositsOf_congr hledger]
  have hready : Ready reference
      (logged (dedupeRef ⟨"charge.success", some ⟨some reference⟩⟩) db) :=
    ⟨h.intent, h.clearing, h.unposted⟩
  exact deposited_settle_iff hready d

/-- A confirmed deposit is not lost exactly when the first delivery of all credits it,
or none of the last ones is a confirmation. -/
theorem notLost_iff (message : Failure → String) (h : Awaiting reference db) {ds : List Delivery}
    (hds : ∀ d ∈ ds, ChargeFor reference d) :
    NotLost message reference db ds ↔
      ∀ last, ds.getLast? = some last → Confirmed last →
        ∀ first, ds.head? = some first → Credits db reference first := by
  constructor
  · intro hnotLost last hlast hconfirmed first hfirst
    cases ds with
    | nil => cases hlast
    | cons d ds =>
      obtain rfl : d = first := Option.some.inj hfirst
      rw [← deposited_run_iff h hds]
      have hsplit := List.dropLast_append_getLast? last hlast
      have hone := hnotLost (d :: ds).dropLast [last] [] (by rw [List.append_nil, hsplit]) (by simp)
        (by simpa using hconfirmed)
      rwa [hsplit] at hone
  · intro hfirst earlier handled later hsplit hne hconfirmed
    have hlast : ds.getLast? = (handled ++ later).getLast? := by
      rw [hsplit, List.append_assoc]
      exact List.getLast?_append_of_ne_nil _ (by simp [hne])
    obtain ⟨last, hlast'⟩ := Option.ne_none_iff_exists'.1
      (mt List.getLast?_eq_none_iff.1 (by simp [hne] : handled ++ later ≠ []))
    have hcredits := hfirst last (hlast.trans hlast')
      (hconfirmed last (List.mem_of_getLast? hlast'))
    cases hfront : earlier ++ handled with
    | nil => exact absurd (List.append_eq_nil_iff.1 hfront).2 hne
    | cons d rest =>
      rw [hfront] at hsplit
      rw [deposited_run_iff h (fun x hx => hds x (hsplit ▸ List.mem_append_left _ hx))]
      exact hcredits d (by rw [hsplit]; rfl)

end Runs

section Sample

/-- A checkout that waits for its payment. -/
def waitingDb : Db :=
  { checkoutWorld.db with
    paymentIntents := Table.empty.insert (fun id =>
      { newIntent "PAYSTACK" 7 50000 id with providerRef := "ref-0", status := .pending })
      (fun _ => rfl) }

def delivery (verification : DepositVerification) : Delivery where
  now := 10
  valid := true
  payload := ⟨"charge.success", some ⟨some 0⟩⟩
  reading := .ok ⟨⟩
  verification := .ok verification
  writing := .ok ⟨⟩

def confirmed : Delivery := delivery (.success "PAYSTACK" 50000 "card")

theorem waitingDb_awaiting : Awaiting 0 waitingDb where
  intent := ⟨_, _, rfl, by decide, rfl⟩
  clearing := ⟨_, rfl⟩
  unposted := rfl
  unlogged := by decide

/-- The first delivery is credited and redelivered, with an answer that is behind and one that
throws in between. -/
def redelivered : List Delivery :=
  [confirmed, delivery .pending, { confirmed with now := 11 },
    { confirmed with reading := .error (.error "timeout") }, { confirmed with now := 12 }]

/-- The redeliveries change nothing about the one deposit. -/
theorem notLost_iff_redelivered :
    NotLost (fun _ => "") 0 waitingDb redelivered ∧
      (depositsOf (Sequential.run (receive (fun _ => "")) waitingDb redelivered) 0).length = 1 := by
  refine ⟨(notLost_iff (fun _ => "") waitingDb_awaiting ?_).2 ?_, by decide +kernel⟩
  · simp [ChargeFor, redelivered, confirmed, delivery]
  · rintro _ _ _ _ ⟨⟩
    refine ⟨rfl, rfl, "PAYSTACK", 50000, "card", rfl, by decide, ?_⟩
    rintro i ⟨⟩
    decide +kernel

/-- The gateway still says PENDING when the first delivery comes; the confirmation
that follows is a duplicate to the log. -/
theorem lost_after_pending :
    ¬ NotLost (fun _ => "") 0 waitingDb [delivery .pending, confirmed] := by
  intro h
  have hall : ∀ d ∈ [confirmed] ++ [], Confirmed d := by
    simp [Confirmed, confirmed, delivery]
  apply h [delivery .pending] [confirmed] [] rfl (List.cons_ne_nil _ _) hall
  decide +kernel

end Sample

end WebhookInbox
end FootballIQ
