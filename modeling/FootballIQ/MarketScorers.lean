import FootballIQ.Schema

/-!
# Market scorers

A scorer decides whether a selection is correct from the final result alone.
-/

namespace FootballIQ
namespace Scoring

/-- The finalized result, the only input that the scorers see. -/
structure FinalResult where
  homeGoals : ℕ
  awayGoals : ℕ
  htHomeGoals : ℕ
  htAwayGoals : ℕ
  firstToScore : FirstToScore
  deriving DecidableEq

def outcome (h a : ℕ) : String := if h > a then "HOME" else if h < a then "AWAY" else "DRAW"

def matchWinner (sel : String) (r : FinalResult) : Bool := sel = outcome r.homeGoals r.awayGoals

def doubleChance (sel : String) (r : FinalResult) : Bool :=
  let o := outcome r.homeGoals r.awayGoals
  if sel = "HOME_OR_DRAW" then o ≠ "AWAY"
  else if sel = "AWAY_OR_DRAW" then o ≠ "HOME"
  else if sel = "HOME_OR_AWAY" then o ≠ "DRAW"
  else false

def overUnder25 (sel : String) (r : FinalResult) : Bool :=
  let total := r.homeGoals + r.awayGoals
  if sel = "OVER" then total ≥ 3 else if sel = "UNDER" then total ≤ 2 else false

def btts (sel : String) (r : FinalResult) : Bool :=
  let both : Bool := r.homeGoals > 0 ∧ r.awayGoals > 0
  if sel = "YES" then both else if sel = "NO" then !both else false

def firstHalfWinner (sel : String) (r : FinalResult) : Bool :=
  sel = outcome r.htHomeGoals r.htAwayGoals

def firstTeamToScore (sel : String) (r : FinalResult) : Bool :=
  (if sel = "NO_GOAL" then "NONE" else sel) = r.firstToScore.name

def winningMargin (sel : String) (r : FinalResult) : Bool :=
  let diff : ℤ := r.homeGoals - r.awayGoals
  if diff = 0 then sel = "DRAW"
  else
    let side := if diff > 0 then "HOME" else "AWAY"
    let margin := diff.natAbs
    let band := if margin ≥ 3 then "3_PLUS" else toString margin
    sel = side ++ "_BY_" ++ band

def cleanSheet (sel : String) (r : FinalResult) : Bool :=
  let homeCs : Bool := r.awayGoals = 0
  let awayCs : Bool := r.homeGoals = 0
  sel = (if homeCs && awayCs then "BOTH" else if homeCs then "HOME" else if awayCs then "AWAY"
    else "NONE")

def exactGoals (sel : String) (r : FinalResult) : Bool :=
  let total := r.homeGoals + r.awayGoals
  sel = if total ≥ 5 then "5_PLUS" else toString total

def correctScore (sel : String) (r : FinalResult) : Bool :=
  sel = toString r.homeGoals ++ "-" ++ toString r.awayGoals

def marketScorers : MarketType → String → FinalResult → Bool
  | .matchWinner => matchWinner
  | .doubleChance => doubleChance
  | .overUnder25 => overUnder25
  | .btts => btts
  | .firstHalfWinner => firstHalfWinner
  | .firstTeamToScore => firstTeamToScore
  | .winningMargin => winningMargin
  | .cleanSheet => cleanSheet
  | .exactGoals => exactGoals
  | .correctScore => correctScore

structure ScoredPick where
  isCorrect : Bool
  pointsX10 : ℕ
  deriving DecidableEq

def scorePrediction (marketType : MarketType) (selection : String) (result : FinalResult)
    (pointsX10 : ℕ) : ScoredPick :=
  let isCorrect := marketScorers marketType selection result
  ⟨isCorrect, if isCorrect then pointsX10 else 0⟩

example : scorePrediction .correctScore "2-1" ⟨2, 1, 1, 0, .home⟩ 325 = ⟨true, 325⟩ := by decide

end Scoring
end FootballIQ
