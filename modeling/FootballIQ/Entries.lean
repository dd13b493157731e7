import FootballIQ.Contests

/-!
# Entering a contest

`submitSlip` reads the contest and validates the slip first. Its transaction
then charges the fee into the escrow under the client's idempotency key and
creates the entry with its predictions; it does not read the contest again.
-/

namespace FootballIQ
namespace Entries

open Transaction Relational WalletAccounts Contests

structure SubmitSlipRequest where
  contestId : ℕ
  predictions : List SlipPrediction
  idempotencyKey : String
  deriving DecidableEq

/-- What the read step of a submission hands to its transaction. -/
structure PreparedSlip where
  userId : ℕ
  dto : SubmitSlipRequest
  contest : Contest
  risk : RiskMeterResult
  deriving DecidableEq

structure SubmitSlipResult where
  entryId : ℕ
  contestId : ℕ
  submittedAt : DateTime
  risk : RiskMeterResult
  predictions : List SlipPrediction
  deriving DecidableEq

section Read

def slotsOf (db : Db) (contestId : ℕ) : List ContestSlot :=
  db.contestSlots.findMany (fun s => s.contestId = contestId)

def fixtureStars (db : Db) (fixtureId : ℕ) : Option ℤ :=
  (db.fixtureDifficulties.find fixtureId).map (fun d => d.overrideStars.getD d.stars)

def riskInput (db : Db) (contest : Contest) (p : SlipPrediction) : Option RiskSlotInput := do
  let slot ← (slotsOf db contest.id).find? (fun s => s.id = p.slotId)
  let contestMatch ← db.contestMatches.find slot.contestMatchId
  let ruleSet ← db.ruleSets.find contest.ruleSetId
  return {
    marketType := p.marketType
    stars := (fixtureStars db contestMatch.fixtureId).getD 3
    pointsX10 := (pointsByMarket ruleSet.marketRules p.marketType).getD
      (defaultTierPointsX10 slot.tier) }

def submitRead (now : DateTime) (userId : ℕ) (dto : SubmitSlipRequest) :
    Tx Failure Db PreparedSlip := do
  let db ← get
  let contest ← orThrow (findContest db dto.contestId) (.notFound "CONTEST_NOT_FOUND" none)
  throwIf (contest.status ≠ .published ∨ contest.lockAt.all (fun lockAt => lockAt ≤ now))
    (.conflict "CONTEST_CLOSED" (some "This contest is locked — first kickoff has passed"))
  throwIf (contest.maxEntries.any
      (fun m => m ≠ 0 ∧ m ≤ (activeEntries db contest.id).length))
    (.conflict "CONTEST_FULL" (some "Contest is full"))
  let violations := SlipValidator.validateSlip
    ((slotsOf db contest.id).map (fun s => ⟨s.id, s.tier⟩)) dto.predictions
  throwIf (violations ≠ []) (.invalidSlip "INVALID_SLIP" violations)
  return ⟨userId, dto, contest, computeRiskMeter (dto.predictions.filterMap (riskInput db contest))⟩

theorem submitRead_ok {now userId : ℕ} {dto : SubmitSlipRequest} {db db' : Db}
    {slip : PreparedSlip} (h : submitRead now userId dto db = .ok (slip, db')) :
    slip.userId = userId ∧ slip.dto = dto ∧
      db.contests.find slip.contest.id = some slip.contest ∧ slip.contest.id = dto.contestId ∧
      slip.contest.status = .published ∧ db' = db := by
  simp only [submitRead, bind_ok_iff, get_ok_iff, orThrow_ok_iff, throwIf_ok_iff,
    pure_ok_iff] at h
  obtain ⟨_, _, ⟨rfl, rfl⟩, c, _, ⟨hfind, rfl⟩, _, _, ⟨hopen, rfl⟩, _, _, ⟨_, rfl⟩, _, _, ⟨_, rfl⟩,
    rfl, rfl⟩ := h
  obtain ⟨hc, hid, _⟩ := findContest_some hfind
  exact ⟨rfl, rfl, hid ▸ hc, hid, by_contra (fun hs => hopen (Or.inl hs)), rfl⟩

/-- The lazy check of a submission: the contest's lock time is set and lies ahead. -/
theorem submitRead_lockAt {now userId : ℕ} {dto : SubmitSlipRequest} {db db' : Db}
    {slip : PreparedSlip} (h : submitRead now userId dto db = .ok (slip, db')) :
    ∃ lockAt, slip.contest.lockAt = some lockAt ∧ now < lockAt := by
  simp only [submitRead, bind_ok_iff, get_ok_iff, orThrow_ok_iff, throwIf_ok_iff,
    pure_ok_iff] at h
  obtain ⟨_, _, ⟨rfl, rfl⟩, c, _, ⟨_, rfl⟩, _, _, ⟨hopen, rfl⟩, _, _, ⟨_, rfl⟩, _, _, ⟨_, rfl⟩,
    rfl, rfl⟩ := h
  cases hlock : c.lockAt with
  | none => exact absurd (Or.inr (by rw [hlock]; rfl)) hopen
  | some lockAt =>
    refine ⟨lockAt, rfl, ?_⟩
    by_contra hle
    exact hopen (Or.inr (by simpa [hlock] using hle))

end Read

section Transact

def entryKey (idempotencyKey : String) : String := "entry:" ++ idempotencyKey

def feeInput (slip : PreparedSlip) (wallet escrow : LedgerAccount) : PostJournalInput where
  type := .entryFee
  idempotencyKey := entryKey slip.dto.idempotencyKey
  description := s!"Entry fee — {slip.contest.title}"
  lines := [⟨wallet.id, -slip.contest.entryFeeMinor⟩, ⟨escrow.id, slip.contest.entryFeeMinor⟩]
  metadata := [("contestId", toString slip.contest.id), ("userId", toString slip.userId)]

theorem feeInput_valid (slip : PreparedSlip) (wallet escrow : LedgerAccount) :
    Ledger.validateLines (feeInput slip wallet escrow).lines = .ok () := by
  have hfee := slip.contest.fee_pos
  rw [Ledger.validateLines_ok_iff]
  refine ⟨le_refl 2, ?_, ?_⟩
  · intro line hline
    simp only [feeInput, List.mem_cons, List.not_mem_nil, or_false] at hline
    rcases hline with rfl | rfl
    · simp only
      omega
    · simp only
      omega
  · simp [feeInput, Ledger.lineTotal]

def paidEntry (slip : PreparedSlip) (now feeJournalId id : ℕ) : Entry where
  id := id
  contestId := slip.contest.id
  userId := slip.userId
  status := .active
  feeJournalId := feeJournalId
  submittedAt := now
  totalPointsX10 := 0
  correctCount := 0
  correctExpert := 0
  correctHard := 0
  finalRank := none
  prizeMinor := 0
  riskProfile := some slip.risk.profile
  riskPct := some slip.risk.riskPct

theorem id_paidEntry (slip : PreparedSlip) (now feeJournalId id : ℕ) :
    Row.id (paidEntry slip now feeJournalId id) = id := rfl

/-- The unique index on contest and user. -/
def hasEntered (db : Db) (contestId userId : ℕ) : Prop :=
  ∃ e ∈ db.entries.rows, e.contestId = contestId ∧ e.userId = userId

instance (db : Db) (contestId userId : ℕ) : Decidable (hasEntered db contestId userId) :=
  inferInstanceAs (Decidable (∃ e ∈ db.entries.rows, e.contestId = contestId ∧ e.userId = userId))

def addPrediction (entryId : ℕ) (predictions : Table Prediction) (p : SlipPrediction) :
    Table Prediction :=
  predictions.insert (fun id => ⟨id, entryId, p.slotId, p.marketType, p.selection, none, 0, none⟩)
    (fun _ => rfl)

/-- The nested create of an entry with its predictions; the slots of a prepared
slip are distinct slots of the contest, so only the entry can clash. -/
def createEntry (now : DateTime) (slip : PreparedSlip) (feeJournalId : ℕ) : Tx Failure Db ℕ := do
  let db ← get
  throwIf (hasEntered db slip.contest.id slip.userId) .uniqueViolation
  set { db with
    entries := db.entries.insert (paidEntry slip now feeJournalId)
      (id_paidEntry slip now feeJournalId)
    predictions := slip.dto.predictions.foldl (addPrediction db.entries.fresh) db.predictions }
  return db.entries.fresh

/-- The errors that `submitSlip` translates for the client. -/
def submitFailure : Failure → Failure
  | .insufficientFunds _ => .badRequest "INSUFFICIENT_FUNDS"
      (some "Wallet balance too low for this entry fee — top up first")
  | .uniqueViolation => .conflict "ALREADY_ENTERED"
      (some "You already have an entry in this contest")
  | e => e

def submitTx (now : DateTime) (slip : PreparedSlip) : Tx Failure Db SubmitSlipResult :=
  rescue submitFailure do
    let wallet ← userAvailable slip.userId
    let escrow ← contestEscrow slip.contest.id
    let journalId ← Db.post (feeInput slip wallet escrow)
    let entryId ← createEntry now slip journalId
    Db.emit (.entryPaid slip.contest.id entryId slip.userId slip.contest.entryFeeMinor)
    return ⟨entryId, slip.contest.id, now, slip.risk, slip.dto.predictions⟩

/-- The state that a committed submission leaves, given what its posting left. -/
def entered (db : Db) (now : DateTime) (slip : PreparedSlip) (journalId : ℕ) (l : Ledger) : Db :=
  { db with
    ledger := l
    entries := db.entries.insert (paidEntry slip now journalId) (id_paidEntry slip now journalId)
    predictions := slip.dto.predictions.foldl (addPrediction db.entries.fresh) db.predictions
    outbox := db.outbox ++ [.entryPaid slip.contest.id db.entries.fresh slip.userId
      slip.contest.entryFeeMinor] }

theorem mem_entered (db : Db) (now : DateTime) (slip : PreparedSlip) (journalId : ℕ) (l : Ledger)
    (e : Entry) : e ∈ (entered db now slip journalId l).entries.rows ↔
      e ∈ db.entries.rows ∨ e = paidEntry slip now journalId db.entries.fresh :=
  Table.mem_insert _ _ (id_paidEntry slip now journalId) e

theorem submitTx_ok_iff (now : DateTime) (slip : PreparedSlip) (db db' : Db)
    (res : SubmitSlipResult) :
    submitTx now slip db = .ok (res, db') ↔ ∃ wallet escrow journalId l,
      ofUser db.ledger.accounts slip.userId .userAvailable "NGN" = some wallet ∧
      ofContest db.ledger.accounts slip.contest.id = some escrow ∧
      Ledger.post (feeInput slip wallet escrow) db.ledger = .ok (journalId, l) ∧
      ¬ hasEntered db slip.contest.id slip.userId ∧ db' = entered db now slip journalId l ∧
      res = ⟨db.entries.fresh, slip.contest.id, now, slip.risk, slip.dto.predictions⟩ := by
  simp only [submitTx, createEntry, rescue_ok_iff, bind_ok_iff, userAvailable_ok_iff,
    contestEscrow_ok_iff, Db.post_ok_iff, get_ok_iff, throwIf_ok_iff, set_ok_iff, pure_ok_iff,
    Db.emit_ok_iff]
  constructor
  · rintro ⟨wallet, _, ⟨hw, rfl⟩, escrow, _, ⟨he, rfl⟩, journalId, _, ⟨l, hpost, rfl⟩, _, _,
      ⟨_, _, ⟨rfl, rfl⟩, _, _, ⟨hnot, rfl⟩, _, _, rfl, rfl, rfl⟩, _, _, rfl, rfl, rfl⟩
    exact ⟨wallet, escrow, journalId, l, hw, he, hpost, hnot, rfl, rfl⟩
  · rintro ⟨wallet, escrow, journalId, l, hw, he, hpost, hnot, rfl, rfl⟩
    exact ⟨wallet, db, ⟨hw, rfl⟩, escrow, db, ⟨he, rfl⟩, journalId, _, ⟨l, hpost, rfl⟩,
      db.entries.fresh, _, ⟨_, _, ⟨rfl, rfl⟩, ⟨⟩, _, ⟨hnot, rfl⟩, ⟨⟩, _, rfl, rfl, rfl⟩, ⟨⟩, _, rfl,
      rfl, rfl⟩

end Transact

end Entries
end FootballIQ
