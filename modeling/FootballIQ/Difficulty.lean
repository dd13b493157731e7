import FootballIQ.Settings
import FootballIQ.WeightedMean

/-!
# The difficulty engine

Each signal rates the unpredictability of a match from 0 to 1. The score is the mean of the signals
that are there under their weights, and the stars are its fifth of the scale.
-/

namespace FootballIQ
namespace Difficulty

open Transaction Relational WeightedMean

section Engine

inductive FormResult where
  | win | draw | loss
  deriving DecidableEq

structure TeamFormInput where
  last5 : List FormResult
  leaguePosition : Option ℚ
  goalDifference : Option ℚ
  goalsScoredLast5 : Option ℚ
  goalsConcededLast5 : Option ℚ
  injuriesCount : Option ℚ
  suspensionsCount : Option ℚ
  deriving DecidableEq

structure HeadToHead where
  homeWins : ℚ
  awayWins : ℚ
  draws : ℚ
  matchCount : ℚ
  deriving DecidableEq

structure DifficultyInput where
  home : Option TeamFormInput
  away : Option TeamFormInput
  headToHead : Option HeadToHead
  homeWinRate : Option ℚ
  tableSize : Option ℚ
  deriving DecidableEq

inductive SignalName where
  | form | homeAdvantage | leaguePosition | goalDifference | headToHead | recentGoals
  | defensiveRecord | injuries | suspensions | historical
  deriving DecidableEq

def SignalName.name : SignalName → String
  | .form => "form"
  | .homeAdvantage => "homeAdvantage"
  | .leaguePosition => "leaguePosition"
  | .goalDifference => "goalDifference"
  | .headToHead => "headToHead"
  | .recentGoals => "recentGoals"
  | .defensiveRecord => "defensiveRecord"
  | .injuries => "injuries"
  | .suspensions => "suspensions"
  | .historical => "historical"

def allSignals : List SignalName :=
  [.form, .homeAdvantage, .leaguePosition, .goalDifference, .headToHead, .recentGoals,
    .defensiveRecord, .injuries, .suspensions, .historical]

/-- A partial record of weights; a missing weight counts as zero. -/
abbrev Weights := SignalName → Option ℚ

abbrev Signals := SignalName → Option ℚ

def formPoints (last5 : List FormResult) : ℚ :=
  last5.foldl (fun s r => s + match r with
    | .win => 3
    | .draw => 1
    | .loss => 0) 0

/-- The two sides' values of a field, where both sides have one. -/
def both (input : DifficultyInput) (field : TeamFormInput → Option ℚ) : Option (ℚ × ℚ) := do
  let home ← input.home
  let away ← input.away
  return (← field home, ← field away)

/-- One less the distance of the two sides as a share of `scale`. -/
def closeness (input : DifficultyInput) (field : TeamFormInput → Option ℚ) (scale : ℚ) :
    Option ℚ :=
  (both input field).map (fun v => clamp01 (1 - |v.1 - v.2| / scale))

/-- What both sides are missing as a share of `scale`. -/
def absences (input : DifficultyInput) (field : TeamFormInput → Option ℚ) (scale : ℚ) :
    Option ℚ :=
  (both input field).map (fun v => clamp01 ((v.1 + v.2) / scale))

/-- Absent data leaves its signal absent; nothing supplies the historical one. -/
def computeSignals (input : DifficultyInput) : Signals
  | .form => do
    let home ← input.home
    let away ← input.away
    if home.last5 ≠ [] ∧ away.last5 ≠ [] then
      some (clamp01 (1 - |formPoints home.last5 - formPoints away.last5| / 15))
    else none
  | .homeAdvantage => input.homeWinRate.map (fun r => clamp01 (1 - |r - 1 / 2| * 2))
  | .leaguePosition =>
    closeness input (·.leaguePosition) (max 2 (input.tableSize.getD 20 - 1))
  | .goalDifference => closeness input (·.goalDifference) 30
  | .headToHead => do
    let h2h ← input.headToHead
    if h2h.matchCount > 0 then
      some (clamp01 (1 - |h2h.homeWins - h2h.awayWins| / h2h.matchCount))
    else none
  | .recentGoals => closeness input (·.goalsScoredLast5) 10
  | .defensiveRecord => closeness input (·.goalsConcededLast5) 10
  | .injuries => absences input (·.injuriesCount) 10
  | .suspensions => absences input (·.suspensionsCount) 6
  | .historical => none

def weightOf (weights : Weights) (k : SignalName) : ℚ := (weights k).getD 0

/-- The signals that are there and count. -/
def present (signals : Signals) (weights : Weights) : List SignalName :=
  allSignals.filter (fun k => signals k ≠ none ∧ weightOf weights k > 0)

def weightedScore (signals : Signals) (weights : Weights) : ℚ :=
  let weightSum := ((present signals weights).map (weightOf weights)).sum
  if weightSum = 0 then 1 / 2
  else ((present signals weights).map
    (fun k => (signals k).getD 0 * (weightOf weights k / weightSum))).sum

def scoreToStars (score : ℚ) : ℤ :=
  if score < 2 / 10 then 1
  else if score < 4 / 10 then 2
  else if score < 6 / 10 then 3
  else if score < 8 / 10 then 4
  else 5

structure Rating where
  stars : ℤ
  score : ℚ
  signals : Signals

def computeStars (input : DifficultyInput) (weights : Weights) : Rating :=
  let signals := computeSignals input
  let score := weightedScore signals weights
  ⟨scoreToStars score, score, signals⟩

end Engine

section Signals

theorem clamp01_mem (n : ℚ) : 0 ≤ clamp01 n ∧ clamp01 n ≤ 1 := by
  unfold clamp01
  exact ⟨le_min zero_le_one (le_max_left 0 n), min_le_left 1 _⟩

/-- Every signal that the engine computes is on the scale from 0 to 1. -/
theorem computeSignals_mem {input : DifficultyInput} {k : SignalName} {v : ℚ}
    (h : computeSignals input k = some v) : 0 ≤ v ∧ v ≤ 1 := by
  have hclamped : ∃ n, v = clamp01 n := by
    cases k with
    | form =>
      simp only [computeSignals, Option.bind_eq_bind, Option.bind_eq_some_iff] at h
      obtain ⟨home, _, away, _, h⟩ := h
      split_ifs at h
      exact ⟨_, (Option.some.inj h).symm⟩
    | headToHead =>
      simp only [computeSignals, Option.bind_eq_bind, Option.bind_eq_some_iff] at h
      obtain ⟨h2h, _, h⟩ := h
      split_ifs at h
      exact ⟨_, (Option.some.inj h).symm⟩
    | historical => cases h
    | homeAdvantage | leaguePosition | goalDifference | recentGoals | defensiveRecord | injuries
    | suspensions =>
      obtain ⟨_, _, rfl⟩ := Option.map_eq_some_iff.1 h
      exact ⟨_, rfl⟩
  obtain ⟨n, rfl⟩ := hclamped
  exact clamp01_mem n

end Signals

section Score
variable {signals : Signals} {weights : Weights}

theorem mem_allSignals (k : SignalName) : k ∈ allSignals := by
  cases k <;> decide

theorem mem_present {k : SignalName} :
    k ∈ present signals weights ↔ signals k ≠ none ∧ 0 < weightOf weights k := by
  rw [present, List.mem_filter, decide_eq_true_iff]
  exact and_iff_right (mem_allSignals k)

theorem weightOf_nonneg : ∀ k ∈ present signals weights, 0 ≤ weightOf weights k :=
  fun _ hk => (mem_present.1 hk).2.le

theorem weightedScore_eq (signals : Signals) (weights : Weights) : weightedScore signals weights =
    if total (present signals weights) (weightOf weights) = 0 then 1 / 2
    else mean (present signals weights) (weightOf weights) (fun k => (signals k).getD 0) := rfl

/-- Where some signal counts the score is the weighted mean of those that do. -/
theorem weightedScore_eq_mean {k : SignalName} (hk : k ∈ present signals weights) :
    total (present signals weights) (weightOf weights) ≠ 0 ∧ weightedScore signals weights =
      mean (present signals weights) (weightOf weights) (fun k => (signals k).getD 0) := by
  have hpos : 0 < total (present signals weights) (weightOf weights) :=
    total_pos (fun _ hj => (mem_present.1 hj).2) hk
  rw [weightedScore_eq]
  exact ⟨hpos.ne', if_neg hpos.ne'⟩

/-- The same signals that count give the score, whatever the other weights are. -/
theorem weightedScore_congr {weights' : Weights}
    (h : ∀ k, signals k ≠ none → weights' k = weights k) :
    weightedScore signals weights' = weightedScore signals weights := by
  have hweight : ∀ k, signals k ≠ none → weightOf weights' k = weightOf weights k := by
    intro k hk
    rw [weightOf, weightOf, h k hk]
  have hpresent : present signals weights' = present signals weights := by
    apply List.filter_congr
    intro k _
    by_cases hk : signals k = none
    · simp [hk]
    · rw [hweight k hk]
  have hcounted : ∀ k ∈ present signals weights, weightOf weights' k = weightOf weights k :=
    fun k hk => hweight k (mem_present.1 hk).1
  rw [weightedScore_eq, weightedScore_eq, hpresent, total_congr hcounted, mean_congr hcounted]

/-- All weights times a factor. -/
def scale (c : ℚ) (weights : Weights) : Weights := fun k => (weights k).map (c * ·)

theorem weightOf_scale (c : ℚ) (k : SignalName) :
    weightOf (scale c weights) k = c * weightOf weights k := by
  unfold weightOf scale
  cases weights k with
  | none => simp
  | some w => rfl

theorem weightedScore_scale {c : ℚ} (hc : 0 < c) :
    weightedScore signals (scale c weights) = weightedScore signals weights := by
  have hpresent : present signals (scale c weights) = present signals weights := by
    apply List.filter_congr
    intro k _
    rw [weightOf_scale]
    simp only [gt_iff_lt, mul_pos_iff_of_pos_left hc]
  have hweight : weightOf (scale c weights) = fun k => c * weightOf weights k :=
    funext (weightOf_scale c)
  rw [weightedScore_eq, weightedScore_eq, hpresent, hweight, total_scale, mean_scale _ _ _ hc.ne']
  simp only [mul_eq_zero, hc.ne', false_or]

/-- Raising one signal that is there keeps the signals that count and does not lower the score. -/
theorem weightedScore_raise {k : SignalName} {v v' : ℚ} (hk : signals k = some v) (hv : v ≤ v') :
    weightedScore signals weights ≤
      weightedScore (Function.update signals k (some v')) weights := by
  have hpresent : present (Function.update signals k (some v')) weights =
      present signals weights := by
    apply List.filter_congr
    intro j _
    by_cases hj : j = k
    · rw [hj, Function.update_self]
      simp [hk]
    · rw [Function.update_of_ne hj]
  rw [weightedScore_eq, weightedScore_eq, hpresent]
  split_ifs with hzero
  · exact le_refl _
  · apply mean_mono weightOf_nonneg
    intro j _
    by_cases hj : j = k
    · rw [hj, Function.update_self, hk]
      exact hv
    · rw [Function.update_of_ne hj]

/-- The score is between the least and the greatest of the signals that count. -/
theorem weightedScore_between (h : present signals weights ≠ []) :
    ∃ lo ∈ present signals weights, ∃ hi ∈ present signals weights,
      (∀ k ∈ present signals weights, (signals lo).getD 0 ≤ (signals k).getD 0 ∧
        (signals k).getD 0 ≤ (signals hi).getD 0) ∧
      (signals lo).getD 0 ≤ weightedScore signals weights ∧
        weightedScore signals weights ≤ (signals hi).getD 0 := by
  obtain ⟨k, hk⟩ := List.exists_mem_of_ne_nil _ h
  have hne : {j | j ∈ present signals weights}.Nonempty := ⟨k, hk⟩
  have hfinite : {j | j ∈ present signals weights}.Finite := List.finite_toSet _
  obtain ⟨lo, hlo, hmin⟩ := Set.exists_min_image _ (fun j => (signals j).getD 0) hfinite hne
  obtain ⟨hi, hhi, hmax⟩ := Set.exists_max_image _ (fun j => (signals j).getD 0) hfinite hne
  obtain ⟨hpos, hscore⟩ := weightedScore_eq_mean hk
  rw [hscore]
  exact ⟨lo, hlo, hi, hhi, fun j hj => ⟨hmin j hj, hmax j hj⟩, le_mean weightOf_nonneg hpos hmin,
    mean_le weightOf_nonneg hpos hmax⟩

end Score

section Stars

theorem scoreToStars_mem (score : ℚ) : 1 ≤ scoreToStars score ∧ scoreToStars score ≤ 5 := by
  unfold scoreToStars
  split_ifs <;> decide

theorem scoreToStars_mono {score score' : ℚ} (h : score ≤ score') :
    scoreToStars score ≤ scoreToStars score' := by
  unfold scoreToStars
  split_ifs <;> first | decide | linarith

theorem weightedScore_mem {input : DifficultyInput} {weights : Weights}
    (h : present (computeSignals input) weights ≠ []) :
    0 ≤ weightedScore (computeSignals input) weights ∧
      weightedScore (computeSignals input) weights ≤ 1 := by
  have hmem : ∀ k ∈ present (computeSignals input) weights,
      0 ≤ (computeSignals input k).getD 0 ∧ (computeSignals input k).getD 0 ≤ 1 := by
    intro k hk
    obtain ⟨v, hv⟩ := Option.ne_none_iff_exists'.1 (mem_present.1 hk).1
    rw [hv, Option.getD_some]
    exact computeSignals_mem hv
  obtain ⟨lo, hlo, hi, hhi, _, hle, hge⟩ := weightedScore_between h
  exact ⟨(hmem lo hlo).1.trans hle, hge.trans (hmem hi hhi).2⟩

/-- Under any weights the score is a convex combination of the signals that count, on the scale
from 0 to 1 for an input of the engine. A common factor of the weights and the weights of absent
signals do not matter, and raising a signal lowers neither the score nor the stars, which are
from 1 to 5. -/
theorem score_blends (weights : Weights) :
    (∀ signals, present signals weights ≠ [] →
      ∃ lo ∈ present signals weights, ∃ hi ∈ present signals weights,
        (∀ k ∈ present signals weights, (signals lo).getD 0 ≤ (signals k).getD 0 ∧
          (signals k).getD 0 ≤ (signals hi).getD 0) ∧
        (signals lo).getD 0 ≤ weightedScore signals weights ∧
          weightedScore signals weights ≤ (signals hi).getD 0) ∧
      (∀ input, present (computeSignals input) weights ≠ [] →
        0 ≤ weightedScore (computeSignals input) weights ∧
          weightedScore (computeSignals input) weights ≤ 1) ∧
      (∀ signals c, 0 < c →
        weightedScore signals (scale c weights) = weightedScore signals weights) ∧
      (∀ signals weights', (∀ k, signals k ≠ none → weights' k = weights k) →
        weightedScore signals weights' = weightedScore signals weights) ∧
      (∀ signals k v v', signals k = some v → v ≤ v' →
        weightedScore signals weights ≤
          weightedScore (Function.update signals k (some v')) weights) ∧
      (∀ input, 1 ≤ (computeStars input weights).stars ∧ (computeStars input weights).stars ≤ 5) ∧
      ∀ input input' k v v', computeSignals input k = some v → v ≤ v' →
        computeSignals input' = Function.update (computeSignals input) k (some v') →
        (computeStars input weights).stars ≤ (computeStars input' weights).stars := by
  refine ⟨fun signals h => weightedScore_between h, fun input h => weightedScore_mem h,
    fun signals c hc => weightedScore_scale hc, fun signals weights' h => weightedScore_congr h,
    fun signals k v v' hk hv => weightedScore_raise hk hv,
    fun input => scoreToStars_mem _, fun input input' k v v' hk hv hinput => ?_⟩
  apply scoreToStars_mono
  rw [hinput]
  exact weightedScore_raise hk hv

/-- Leaders against the side at the bottom, and the same match with the bottom side in form. -/
def walkover : DifficultyInput where
  home := some ⟨[.win, .win, .win, .win, .win], some 1, none, none, none, none, none⟩
  away := some ⟨[.loss, .loss, .loss, .loss, .loss], some 20, none, none, none, none, none⟩
  headToHead := some ⟨9, 0, 1, 10⟩
  homeWinRate := none
  tableSize := some 20

def upset : DifficultyInput :=
  { walkover with
    away := some ⟨[.win, .win, .draw, .win, .win], some 20, none, none, none, none, none⟩ }

def equalWeights : Weights
  | .form | .leaguePosition | .headToHead | .injuries => some (1 / 5)
  | _ => none

theorem computeSignals_upset :
    computeSignals upset = Function.update (computeSignals walkover) .form (some (13 / 15)) := by
  funext k
  cases k <;> decide +kernel

theorem score_blends_upset :
    (∃ lo ∈ present (computeSignals walkover) equalWeights,
      (computeSignals walkover lo).getD 0 ≤ weightedScore (computeSignals walkover) equalWeights) ∧
      weightedScore (computeSignals walkover) equalWeights ≤ 1 ∧
      weightedScore (computeSignals walkover) (scale 10 equalWeights) =
        weightedScore (computeSignals walkover) equalWeights ∧
      weightedScore (computeSignals walkover) (Function.update equalWeights .injuries (some 7)) =
        weightedScore (computeSignals walkover) equalWeights ∧
      weightedScore (computeSignals walkover) equalWeights ≤
        weightedScore (Function.update (computeSignals walkover) .form (some 1)) equalWeights ∧
      (computeStars walkover equalWeights).stars ≤ (computeStars upset equalWeights).stars := by
  have hcounts : present (computeSignals walkover) equalWeights ≠ [] := by decide +kernel
  have hform : computeSignals walkover .form = some 0 := by decide +kernel
  have habsent : ∀ k, computeSignals walkover k ≠ none →
      Function.update equalWeights .injuries (some 7) k = equalWeights k := by
    intro k hk
    apply Function.update_of_ne
    rintro rfl
    exact hk (by decide)
  obtain ⟨hbetween, hscale, hfactor, hcongr, hrise, _, hraise⟩ := score_blends equalWeights
  obtain ⟨lo, hlo, _, _, _, hle, _⟩ := hbetween _ hcounts
  exact ⟨⟨lo, hlo, hle⟩, (hscale walkover hcounts).2, hfactor _ 10 (by norm_num),
    hcongr _ _ habsent, hrise _ .form 0 1 hform (by norm_num),
    hraise walkover upset .form 0 (13 / 15) hform (by norm_num) computeSignals_upset⟩

example : (computeStars walkover equalWeights).stars = 1 ∧
    (computeStars upset equalWeights).stars = 2 := by decide +kernel

end Stars

section Job

/-- The weights of a stored weight set. -/
def weightsOf (weights : List (String × ℚ)) : Weights := fun k => weights.lookup k.name

/-- The engine on the signals of one fixture, as the difficulty job runs it. -/
def engine (input : DifficultyInput) (weights : List (String × ℚ)) : ℤ :=
  (computeStars input (weightsOf weights)).stars

end Job

end Difficulty
end FootballIQ
