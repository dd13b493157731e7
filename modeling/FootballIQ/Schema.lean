import FootballIQ.LedgerPosting

/-!
# The database

One record per table of the Prisma schema that the modelled services read or
write, with the columns they use. A generated id is a fresh natural number. The
entry fee of a contest is positive by the create request's schema, which is its
only writer, and the row carries that proof.
-/

namespace FootballIQ

open Transaction Relational

abbrev DateTime := ℕ

inductive FixtureStatus where
  | scheduled | live | finished | postponed | cancelled
  deriving DecidableEq

inductive EntryStatus where
  | active | refunded | settled
  deriving DecidableEq

inductive PaymentStatus where
  | initiated | pending | succeeded | failed | abandoned
  deriving DecidableEq

inductive WithdrawalStatus where
  | requested | underReview | approved | processing | paid | failed | rejected | reversed
  deriving DecidableEq

def WithdrawalStatus.name : WithdrawalStatus → String
  | .requested => "REQUESTED"
  | .underReview => "UNDER_REVIEW"
  | .approved => "APPROVED"
  | .processing => "PROCESSING"
  | .paid => "PAID"
  | .failed => "FAILED"
  | .rejected => "REJECTED"
  | .reversed => "REVERSED"

structure Contest where
  id : ℕ
  title : String
  status : ContestStatus
  entryFeeMinor : ℤ
  fee_pos : 0 < entryFeeMinor
  currency : String
  commissionBps : ℤ
  maxEntries : Option ℕ
  lockAt : Option DateTime
  publishedAt : Option DateTime
  lockedAt : Option DateTime
  scoredAt : Option DateTime
  settledAt : Option DateTime
  cancelledAt : Option DateTime
  deletedAt : Option DateTime
  ruleSetId : ℕ
  payoutTemplateId : ℕ
  createdById : ℕ
  deriving DecidableEq

instance : Row Contest := ⟨Contest.id⟩

structure ContestMatch where
  id : ℕ
  contestId : ℕ
  fixtureId : ℕ
  order : ℕ
  deriving DecidableEq

instance : Row ContestMatch := ⟨ContestMatch.id⟩

structure ContestSlot where
  id : ℕ
  contestId : ℕ
  contestMatchId : ℕ
  slotNo : ℕ
  tier : DifficultyTier
  deriving DecidableEq

instance : Row ContestSlot := ⟨ContestSlot.id⟩

structure Entry where
  id : ℕ
  contestId : ℕ
  userId : ℕ
  status : EntryStatus
  feeJournalId : ℕ
  submittedAt : DateTime
  totalPointsX10 : ℕ
  correctCount : ℕ
  correctExpert : ℕ
  correctHard : ℕ
  finalRank : Option ℕ
  prizeMinor : ℤ
  riskProfile : Option RiskProfile
  riskPct : Option ℤ
  deriving DecidableEq

instance : Row Entry := ⟨Entry.id⟩

structure Prediction where
  id : ℕ
  entryId : ℕ
  slotId : ℕ
  marketType : MarketType
  selection : String
  isCorrect : Option Bool
  pointsX10 : ℕ
  scoredAt : Option DateTime
  deriving DecidableEq

instance : Row Prediction := ⟨Prediction.id⟩

structure Fixture where
  id : ℕ
  kickoffAt : DateTime
  status : FixtureStatus
  homeGoals : Option ℕ
  awayGoals : Option ℕ
  htHomeGoals : Option ℕ
  htAwayGoals : Option ℕ
  firstToScore : Option FirstToScore
  resultFinalizedAt : Option DateTime
  deriving DecidableEq

instance : Row Fixture := ⟨Fixture.id⟩

/-- The mapping row of one fixture at one provider; its key is the pair of references. -/
structure FixtureProviderRef where
  fixtureId : ℕ
  provider : String
  providerRef : String
  deriving DecidableEq

structure FixtureDifficulty where
  fixtureId : ℕ
  stars : ℤ
  overrideStars : Option ℤ
  deriving DecidableEq

instance : Row FixtureDifficulty := ⟨FixtureDifficulty.fixtureId⟩

structure MarketRule where
  marketType : MarketType
  pointsX10 : ℕ
  deriving DecidableEq

/-- Lookup in the map built from the rules, where a later rule overwrites an earlier one. -/
def pointsByMarket (rules : List MarketRule) (marketType : MarketType) : Option ℕ :=
  (rules.reverse.find? (fun r => r.marketType = marketType)).map (·.pointsX10)

structure RuleSet where
  id : ℕ
  isActive : Bool
  marketRules : List MarketRule
  deriving DecidableEq

instance : Row RuleSet := ⟨RuleSet.id⟩

structure PayoutRow where
  from_ : ℕ
  to_ : ℕ
  shareBps : ℕ
  deriving DecidableEq

structure PayoutTemplate where
  id : ℕ
  isActive : Bool
  structure_ : List PayoutRow
  deriving DecidableEq

instance : Row PayoutTemplate := ⟨PayoutTemplate.id⟩

structure User where
  id : ℕ
  email : String
  deriving DecidableEq

instance : Row User := ⟨User.id⟩

structure PaymentIntent where
  id : ℕ
  userId : ℕ
  provider : String
  providerRef : String
  amountMinor : ℤ
  status : PaymentStatus
  channel : Option String
  failReason : Option String
  settledAt : Option DateTime
  deriving DecidableEq

instance : Row PaymentIntent := ⟨PaymentIntent.id⟩

structure Withdrawal where
  id : ℕ
  userId : ℕ
  bankAccountId : ℕ
  amountMinor : ℤ
  fraudScore : ℕ
  status : WithdrawalStatus
  reviewedById : Option ℕ
  provider : Option String
  providerRef : Option String
  failReason : Option String
  resolvedAt : Option DateTime
  deriving DecidableEq

instance : Row Withdrawal := ⟨Withdrawal.id⟩

structure BankAccount where
  id : ℕ
  userId : ℕ
  bankCode : String
  bankName : String
  accountNumber : String
  accountName : String
  deletedAt : Option DateTime
  deriving DecidableEq

instance : Row BankAccount := ⟨BankAccount.id⟩

/-- The raw log of inbound webhooks; the pair of provider and reference is unique. -/
structure WebhookEvent where
  id : ℕ
  provider : String
  providerRef : String
  processedAt : Option DateTime
  error : Option String
  deriving DecidableEq

instance : Row WebhookEvent := ⟨WebhookEvent.id⟩

structure Notification where
  userId : ℕ
  type : String
  title : String
  body : String
  data : List (String × String)
  deriving DecidableEq

structure AuditRecord where
  actorId : ℕ
  action : String
  entityId : ℕ
  before : List (String × String)
  after : List (String × String)
  deriving DecidableEq

structure Db where
  users : Table User
  ledger : Ledger
  contests : Table Contest
  contestMatches : Table ContestMatch
  contestSlots : Table ContestSlot
  entries : Table Entry
  predictions : Table Prediction
  fixtures : Table Fixture
  fixtureProviderRefs : List FixtureProviderRef
  fixtureDifficulties : Table FixtureDifficulty
  ruleSets : Table RuleSet
  payoutTemplates : Table PayoutTemplate
  paymentIntents : Table PaymentIntent
  withdrawals : Table Withdrawal
  bankAccounts : Table BankAccount
  webhookEvents : Table WebhookEvent
  notifications : List Notification
  auditLog : List AuditRecord
  outbox : List DomainEvent
  deriving DecidableEq

namespace Db

def empty : Db where
  users := Table.empty
  ledger := ⟨Table.empty, Table.empty⟩
  contests := Table.empty
  contestMatches := Table.empty
  contestSlots := Table.empty
  entries := Table.empty
  predictions := Table.empty
  fixtures := Table.empty
  fixtureProviderRefs := []
  fixtureDifficulties := Table.empty
  ruleSets := Table.empty
  payoutTemplates := Table.empty
  paymentIntents := Table.empty
  withdrawals := Table.empty
  bankAccounts := Table.empty
  webhookEvents := Table.empty
  notifications := []
  auditLog := []
  outbox := []

/-- Append an event to the outbox in the surrounding transaction. -/
def emit (event : DomainEvent) : Tx Failure Db PUnit :=
  modify (fun db => { db with outbox := db.outbox ++ [event] })

def notify (notification : Notification) : Tx Failure Db PUnit :=
  modify (fun db => { db with notifications := db.notifications ++ [notification] })

def record (entry : AuditRecord) : Tx Failure Db PUnit :=
  modify (fun db => { db with auditLog := db.auditLog ++ [entry] })

/-- A ledger posting inside a larger transaction. -/
def post (input : PostJournalInput) : Tx Failure Db ℕ :=
  zoom Db.ledger (fun l db => { db with ledger := l }) (Ledger.post input)

/-- `update` by primary key: the row must exist. -/
def amend {ρ : Type} [Row ρ] (view : Db → Table ρ) (put : Table ρ → Db → Db) (id : ℕ) (f : ρ → ρ)
    (hf : ∀ r, Row.id (f r) = Row.id r) : Tx Failure Db PUnit := do
  let db ← get
  throwIf ((view db).find id = none) .recordNotFound
  set (put ((view db).update id f hf) db)

def updateContest := amend Db.contests (fun t db => { db with contests := t })

def updateEntry := amend Db.entries (fun t db => { db with entries := t })

def updateFixture := amend Db.fixtures (fun t db => { db with fixtures := t })

def updateIntent := amend Db.paymentIntents (fun t db => { db with paymentIntents := t })

def updateWithdrawal := amend Db.withdrawals (fun t db => { db with withdrawals := t })

section Outcomes
variable (db : Db)

@[simp] theorem emit_ok_iff (event : DomainEvent) (r : PUnit × Db) :
    emit event db = .ok r ↔ { db with outbox := db.outbox ++ [event] } = r.2 := by
  unfold emit
  rw [modify_ok_iff]

@[simp] theorem notify_ok_iff (n : Notification) (r : PUnit × Db) :
    notify n db = .ok r ↔ { db with notifications := db.notifications ++ [n] } = r.2 := by
  unfold notify
  rw [modify_ok_iff]

@[simp] theorem record_ok_iff (a : AuditRecord) (r : PUnit × Db) :
    record a db = .ok r ↔ { db with auditLog := db.auditLog ++ [a] } = r.2 := by
  unfold record
  rw [modify_ok_iff]

@[simp] theorem post_ok_iff (input : PostJournalInput) (id : ℕ) (db' : Db) :
    post input db = .ok (id, db') ↔
      ∃ l, Ledger.post input db.ledger = .ok (id, l) ∧ { db with ledger := l } = db' := by
  unfold post
  rw [zoom_ok_iff]

theorem amend_ok_iff {ρ : Type} [Row ρ] (view : Db → Table ρ) (put : Table ρ → Db → Db) (id : ℕ)
    (f : ρ → ρ) (hf : ∀ r, Row.id (f r) = Row.id r) (r : PUnit × Db) :
    amend view put id f hf db = .ok r ↔
      (view db).find id ≠ none ∧ put ((view db).update id f hf) db = r.2 := by
  unfold amend
  simp only [bind_ok_iff, get_ok_iff, throwIf_ok_iff, set_ok_iff]
  constructor
  · rintro ⟨_, _, ⟨rfl, rfl⟩, _, _, ⟨hex, rfl⟩, hput⟩
    exact ⟨hex, hput⟩
  · rintro ⟨hex, hput⟩
    exact ⟨db, db, ⟨rfl, rfl⟩, ⟨⟩, db, ⟨hex, rfl⟩, hput⟩

@[simp] theorem updateContest_ok_iff (id : ℕ) (f : Contest → Contest)
    (hf : ∀ c, Row.id (f c) = Row.id c) (r : PUnit × Db) :
    updateContest id f hf db = .ok r ↔ db.contests.find id ≠ none ∧
      { db with contests := db.contests.update id f hf } = r.2 :=
  amend_ok_iff db _ _ id f hf r

@[simp] theorem updateEntry_ok_iff (id : ℕ) (f : Entry → Entry)
    (hf : ∀ e, Row.id (f e) = Row.id e) (r : PUnit × Db) :
    updateEntry id f hf db = .ok r ↔ db.entries.find id ≠ none ∧
      { db with entries := db.entries.update id f hf } = r.2 :=
  amend_ok_iff db _ _ id f hf r

@[simp] theorem updateFixture_ok_iff (id : ℕ) (f : Fixture → Fixture)
    (hf : ∀ x, Row.id (f x) = Row.id x) (r : PUnit × Db) :
    updateFixture id f hf db = .ok r ↔ db.fixtures.find id ≠ none ∧
      { db with fixtures := db.fixtures.update id f hf } = r.2 :=
  amend_ok_iff db _ _ id f hf r

@[simp] theorem updateIntent_ok_iff (id : ℕ) (f : PaymentIntent → PaymentIntent)
    (hf : ∀ i, Row.id (f i) = Row.id i) (r : PUnit × Db) :
    updateIntent id f hf db = .ok r ↔ db.paymentIntents.find id ≠ none ∧
      { db with paymentIntents := db.paymentIntents.update id f hf } = r.2 :=
  amend_ok_iff db _ _ id f hf r

@[simp] theorem updateWithdrawal_ok_iff (id : ℕ) (f : Withdrawal → Withdrawal)
    (hf : ∀ w, Row.id (f w) = Row.id w) (r : PUnit × Db) :
    updateWithdrawal id f hf db = .ok r ↔ db.withdrawals.find id ≠ none ∧
      { db with withdrawals := db.withdrawals.update id f hf } = r.2 :=
  amend_ok_iff db _ _ id f hf r

end Outcomes

end Db
end FootballIQ
