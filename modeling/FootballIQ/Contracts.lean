import Mathlib.Data.Rat.Floor
import Mathlib.Tactic

/-!
# Shared contracts: tiers, markets, selections and the risk meter

The enumerations, the selection schema of each market and the point and risk
tables that the API and the scoring engine share.
-/

namespace FootballIQ

inductive DifficultyTier where
  | easy | medium | hard | expert
  deriving DecidableEq, Repr

inductive MarketType where
  | matchWinner | doubleChance
  | overUnder25 | btts | firstHalfWinner | firstTeamToScore
  | winningMargin | cleanSheet | exactGoals
  | correctScore
  deriving DecidableEq, Repr

/-- The value of the enumeration as the database and the wire spell it. -/
def MarketType.name : MarketType → String
  | .matchWinner => "MATCH_WINNER"
  | .doubleChance => "DOUBLE_CHANCE"
  | .overUnder25 => "OVER_UNDER_25"
  | .btts => "BTTS"
  | .firstHalfWinner => "FIRST_HALF_WINNER"
  | .firstTeamToScore => "FIRST_TEAM_TO_SCORE"
  | .winningMargin => "WINNING_MARGIN"
  | .cleanSheet => "CLEAN_SHEET"
  | .exactGoals => "EXACT_GOALS"
  | .correctScore => "CORRECT_SCORE"

def DifficultyTier.name : DifficultyTier → String
  | .easy => "EASY"
  | .medium => "MEDIUM"
  | .hard => "HARD"
  | .expert => "EXPERT"

inductive ContestStatus where
  | draft | published | locked | scoring | scored | settled | archived | cancelled
  deriving DecidableEq, Repr

def ContestStatus.name : ContestStatus → String
  | .draft => "DRAFT"
  | .published => "PUBLISHED"
  | .locked => "LOCKED"
  | .scoring => "SCORING"
  | .scored => "SCORED"
  | .settled => "SETTLED"
  | .archived => "ARCHIVED"
  | .cancelled => "CANCELLED"

inductive RiskProfile where
  | safe | balanced | aggressive
  deriving DecidableEq, Repr

/-- Which side scored first; `none` is a goalless match. -/
inductive FirstToScore where
  | home | away | none
  deriving DecidableEq, Repr

def FirstToScore.name : FirstToScore → String
  | .home => "HOME"
  | .away => "AWAY"
  | .none => "NONE"

def marketTier : MarketType → DifficultyTier
  | .matchWinner | .doubleChance => .easy
  | .overUnder25 | .btts | .firstHalfWinner | .firstTeamToScore => .medium
  | .winningMargin | .cleanSheet | .exactGoals => .hard
  | .correctScore => .expert

def slotDistribution : DifficultyTier → ℕ
  | .easy => 2
  | .medium => 3
  | .hard => 3
  | .expert => 2

def totalSlots : ℕ := 10

def defaultTierPointsX10 : DifficultyTier → ℕ
  | .easy => 50
  | .medium => 100
  | .hard => 150
  | .expert => 325

section Selections

/-- The closed selection lists; a correct score has a pattern instead. -/
def enumSelections : MarketType → List String
  | .matchWinner => ["HOME", "DRAW", "AWAY"]
  | .doubleChance => ["HOME_OR_DRAW", "AWAY_OR_DRAW", "HOME_OR_AWAY"]
  | .overUnder25 => ["OVER", "UNDER"]
  | .btts => ["YES", "NO"]
  | .firstHalfWinner => ["HOME", "DRAW", "AWAY"]
  | .firstTeamToScore => ["HOME", "AWAY", "NO_GOAL"]
  | .winningMargin =>
    ["HOME_BY_1", "HOME_BY_2", "HOME_BY_3_PLUS", "DRAW", "AWAY_BY_1", "AWAY_BY_2",
      "AWAY_BY_3_PLUS"]
  | .cleanSheet => ["HOME", "AWAY", "BOTH", "NONE"]
  | .exactGoals => ["0", "1", "2", "3", "4", "5_PLUS"]
  | .correctScore => []

def correctScoreSelection (selection : String) : Bool :=
  match selection.toList with
  | [home, '-', away] => home.isDigit && away.isDigit
  | _ => false

def isValidSelection (market : MarketType) (selection : String) : Bool :=
  match market with
  | .correctScore => correctScoreSelection selection
  | m => (enumSelections m).contains selection

end Selections

section RiskMeter

def marketBaseRisk : MarketType → ℚ
  | .matchWinner => 35 / 100
  | .doubleChance => 18 / 100
  | .overUnder25 => 42 / 100
  | .btts => 42 / 100
  | .firstHalfWinner => 50 / 100
  | .firstTeamToScore => 48 / 100
  | .winningMargin => 68 / 100
  | .cleanSheet => 62 / 100
  | .exactGoals => 72 / 100
  | .correctScore => 88 / 100

def marketWeight : ℚ := 55 / 100

def fixtureWeight : ℚ := 45 / 100

def safeMax : ℤ := 40

def balancedMax : ℤ := 65

structure RiskSlotInput where
  marketType : MarketType
  stars : ℤ
  pointsX10 : ℕ
  deriving DecidableEq

structure RiskMeterResult where
  profile : RiskProfile
  riskPct : ℤ
  maxPotentialScoreX10 : ℕ
  deriving DecidableEq

def clamp01 (n : ℚ) : ℚ := min 1 (max 0 n)

def slotRisk (marketType : MarketType) (stars : ℤ) : ℚ :=
  let fixtureRisk : ℚ := ((min 5 (max 1 stars) : ℤ) - 1) / 4
  clamp01 (marketWeight * marketBaseRisk marketType + fixtureWeight * fixtureRisk)

/-- The points-weighted mean of the slot risks, in exact arithmetic; rounding is half up. -/
def computeRiskMeter (slots : List RiskSlotInput) : RiskMeterResult :=
  if slots = [] then ⟨.safe, 0, 0⟩
  else
    let totalPoints := (slots.map (·.pointsX10)).sum
    let weighted := (slots.map (fun s => slotRisk s.marketType s.stars * s.pointsX10)).sum
    let riskPct := ⌊weighted / totalPoints * 100 + 1 / 2⌋
    let profile : RiskProfile :=
      if riskPct ≤ safeMax then .safe else if riskPct ≤ balancedMax then .balanced else .aggressive
    ⟨profile, riskPct, totalPoints⟩

end RiskMeter

section EventTopics

/-- The outbox events of the modelled services, each with its payload. -/
inductive DomainEvent where
  | contestPublished (contestId : ℕ) (lockAt : ℕ)
  | contestLocked (contestId : ℕ)
  | contestCancelled (contestId : ℕ) (reason : String)
  | contestScored (contestId : ℕ)
  | entryPaid (contestId entryId userId : ℕ) (amountMinor : ℤ)
  | matchResultFinalized (fixtureId : ℕ)
  | predictionScored (contestId : ℕ)
  | prizesDistributed (contestId : ℕ)
  | walletCredited (userId : ℕ) (amountMinor : ℤ) (source : String) (reference : ℕ)
  | withdrawalRequested (withdrawalId userId : ℕ) (amountMinor : ℤ) (fraudScore : ℕ)
  | withdrawalPaid (withdrawalId userId : ℕ) (amountMinor : ℤ)
  | paymentWebhookReceived (provider event : String) (reference : ℕ)
  | fixtureSynced (fixtureId : ℕ)
  deriving DecidableEq

end EventTopics

end FootballIQ
