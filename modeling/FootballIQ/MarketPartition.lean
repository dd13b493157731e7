import FootballIQ.MarketScorers
import Mathlib.Data.Set.Card

/-!
# Every market partitions the results

The contracts list the selections of a market, the scorers build a string from the
result and compare. Whatever the result, the string is one of the list, so that one
selection is correct; a double chance covers two of the three outcomes, and a correct
score has one digit a side.
-/

namespace FootballIQ
namespace Scoring

/-- The selections of the market that the contracts accept and the scorer takes as correct. -/
def correctSelections (market : MarketType) (r : FinalResult) : Set String :=
  {sel | isValidSelection market sel = true ∧ marketScorers market sel r = true}

def expectedCorrect (market : MarketType) (r : FinalResult) : ℕ :=
  match market with
  | .doubleChance => 2
  | .correctScore => if r.homeGoals ≤ 9 ∧ r.awayGoals ≤ 9 then 1 else 0
  | _ => 1

section Answers
variable {market : MarketType} {r : FinalResult}

theorem isValidSelection_iff (hm : market ≠ .correctScore) (sel : String) :
    isValidSelection market sel = true ↔ sel ∈ enumSelections market := by
  cases market with
  | correctScore => exact absurd rfl hm
  | _ => exact List.contains_iff_mem

/-- The result has the one answer `x` among the accepted selections. -/
structure Answer (market : MarketType) (r : FinalResult) (x : String) : Prop where
  valid : isValidSelection market x = true
  correct_iff : ∀ sel, isValidSelection market sel = true →
    (marketScorers market sel r = true ↔ sel = x)

theorem Answer.correctSelections_eq {x : String} (h : Answer market r x) :
    correctSelections market r = {x} := by
  ext sel
  constructor
  · rintro ⟨hvalid, hcorrect⟩
    exact (h.correct_iff sel hvalid).1 hcorrect
  · intro hsel
    rw [Set.mem_singleton_iff] at hsel
    subst hsel
    exact ⟨h.valid, (h.correct_iff sel h.valid).2 rfl⟩

theorem outcome_cases (h a : ℕ) :
    outcome h a = "HOME" ∧ a < h ∨ outcome h a = "AWAY" ∧ h < a ∨ outcome h a = "DRAW" ∧ h = a := by
  unfold outcome
  split_ifs with hgt hlt
  · exact Or.inl ⟨rfl, hgt⟩
  · exact Or.inr (Or.inl ⟨rfl, hlt⟩)
  · exact Or.inr (Or.inr ⟨rfl, by omega⟩)

theorem outcome_mem (h a : ℕ) : outcome h a ∈ ["HOME", "DRAW", "AWAY"] := by
  rcases outcome_cases h a with ⟨ho, _⟩ | ⟨ho, _⟩ | ⟨ho, _⟩ <;> simp [ho]

theorem matchWinner_answer (r : FinalResult) :
    Answer .matchWinner r (outcome r.homeGoals r.awayGoals) where
  valid := (isValidSelection_iff (by decide) _).2 (outcome_mem _ _)
  correct_iff _ _ := decide_eq_true_iff

theorem firstHalfWinner_answer (r : FinalResult) :
    Answer .firstHalfWinner r (outcome r.htHomeGoals r.htAwayGoals) where
  valid := (isValidSelection_iff (by decide) _).2 (outcome_mem _ _)
  correct_iff _ _ := decide_eq_true_iff

theorem overUnder25_answer (r : FinalResult) :
    Answer .overUnder25 r (if r.homeGoals + r.awayGoals ≥ 3 then "OVER" else "UNDER") where
  valid := by split_ifs <;> decide
  correct_iff sel hsel := by
    rw [isValidSelection_iff (by decide)] at hsel
    simp only [enumSelections, List.mem_cons, List.not_mem_nil, or_false] at hsel
    rcases hsel with rfl | rfl
    · by_cases hover : r.homeGoals + r.awayGoals ≥ 3 <;> simp [marketScorers, overUnder25, hover]
    · by_cases hover : r.homeGoals + r.awayGoals ≥ 3 <;>
        simp [marketScorers, overUnder25, hover] <;> omega

theorem btts_answer (r : FinalResult) :
    Answer .btts r (if r.homeGoals > 0 ∧ r.awayGoals > 0 then "YES" else "NO") where
  valid := by split_ifs <;> decide
  correct_iff sel hsel := by
    rw [isValidSelection_iff (by decide)] at hsel
    simp only [enumSelections, List.mem_cons, List.not_mem_nil, or_false] at hsel
    rcases hsel with rfl | rfl <;>
      by_cases hboth : r.homeGoals > 0 ∧ r.awayGoals > 0 <;> simp [marketScorers, btts, hboth]

/-- A goalless match is `NONE` in the result and `NO_GOAL` on the slip. -/
def firstScorerSelection : FirstToScore → String
  | .home => "HOME"
  | .away => "AWAY"
  | .none => "NO_GOAL"

theorem firstTeamToScore_answer (r : FinalResult) :
    Answer .firstTeamToScore r (firstScorerSelection r.firstToScore) where
  valid := by cases r.firstToScore <;> decide
  correct_iff sel hsel := by
    rw [isValidSelection_iff (by decide)] at hsel
    simp only [enumSelections, List.mem_cons, List.not_mem_nil, or_false] at hsel
    rcases hsel with rfl | rfl | rfl <;> cases hfirst : r.firstToScore <;>
      simp [marketScorers, firstTeamToScore, hfirst, firstScorerSelection, FirstToScore.name]

theorem cleanSheet_answer (r : FinalResult) : Answer .cleanSheet r
    (if r.awayGoals = 0 ∧ r.homeGoals = 0 then "BOTH" else if r.awayGoals = 0 then "HOME"
      else if r.homeGoals = 0 then "AWAY" else "NONE") where
  valid := by split_ifs <;> decide
  correct_iff sel _ := by
    by_cases haway : r.awayGoals = 0 <;> by_cases hhome : r.homeGoals = 0 <;>
      simp [marketScorers, cleanSheet, haway, hhome]

theorem exactGoals_answer (r : FinalResult) : Answer .exactGoals r
    (if r.homeGoals + r.awayGoals ≥ 5 then "5_PLUS"
      else toString (r.homeGoals + r.awayGoals)) where
  valid := by
    rw [isValidSelection_iff (by decide)]
    by_cases hfive : r.homeGoals + r.awayGoals ≥ 5
    · rw [if_pos hfive]
      decide
    · rw [if_neg hfive]
      have htotal : r.homeGoals + r.awayGoals < 5 := by omega
      generalize r.homeGoals + r.awayGoals = total at htotal
      interval_cases total <;> decide
  correct_iff _ _ := decide_eq_true_iff

/-- The string that the winner's margin is compared with, for a match with a winner. -/
def marginSelection (side : String) (margin : ℕ) : String :=
  side ++ "_BY_" ++ (if margin ≥ 3 then "3_PLUS" else toString margin)

theorem marginSelection_mem {side : String} (hside : side = "HOME" ∨ side = "AWAY") {margin : ℕ}
    (hpos : 0 < margin) : marginSelection side margin ∈ enumSelections .winningMargin := by
  unfold marginSelection
  by_cases hthree : margin ≥ 3
  · rw [if_pos hthree]
    rcases hside with rfl | rfl <;> decide
  · rw [if_neg hthree]
    have hlt : margin < 3 := by omega
    interval_cases margin <;> rcases hside with rfl | rfl <;> decide

theorem winningMargin_answer (r : FinalResult) : ∃ x, Answer .winningMargin r x := by
  by_cases hdiff : (r.homeGoals : ℤ) - r.awayGoals = 0
  · refine ⟨"DRAW", by decide, fun sel _ => ?_⟩
    simp only [marketScorers, winningMargin, if_pos hdiff, decide_eq_true_iff]
  · refine ⟨marginSelection (if (r.homeGoals : ℤ) - r.awayGoals > 0 then "HOME" else "AWAY")
      ((r.homeGoals : ℤ) - r.awayGoals).natAbs, ?_, fun sel _ => ?_⟩
    · apply (isValidSelection_iff (by decide) _).2
      apply marginSelection_mem
      · split_ifs
        · exact Or.inl rfl
        · exact Or.inr rfl
      · omega
    · simp only [marketScorers, winningMargin, if_neg hdiff, decide_eq_true_iff, marginSelection]

end Answers

section DoubleChance
variable {r : FinalResult}

theorem correctSelections_pair {x y : String}
    (hx : x ∈ enumSelections .doubleChance) (hy : y ∈ enumSelections .doubleChance)
    (hcorrect : ∀ sel ∈ enumSelections .doubleChance,
      (doubleChance sel r = true ↔ sel = x ∨ sel = y)) :
    correctSelections .doubleChance r = {x, y} := by
  have hvalid := isValidSelection_iff (show MarketType.doubleChance ≠ .correctScore by decide)
  ext sel
  rw [Set.mem_insert_iff, Set.mem_singleton_iff]
  constructor
  · rintro ⟨hsel, htrue⟩
    exact (hcorrect sel ((hvalid sel).1 hsel)).1 htrue
  · intro hsel
    have hmem : sel ∈ enumSelections .doubleChance := by
      rcases hsel with rfl | rfl
      · exact hx
      · exact hy
    exact ⟨(hvalid sel).2 hmem, (hcorrect sel hmem).2 hsel⟩

/-- The double chance that leaves the outcome out is the one that is wrong. -/
theorem doubleChance_correct (r : FinalResult) :
    ∃ x y, x ≠ y ∧ correctSelections .doubleChance r = {x, y} := by
  rcases outcome_cases r.homeGoals r.awayGoals with ⟨ho, _⟩ | ⟨ho, _⟩ | ⟨ho, _⟩
  · refine ⟨"HOME_OR_DRAW", "HOME_OR_AWAY", by decide,
      correctSelections_pair (by decide) (by decide) ?_⟩
    simp [enumSelections, doubleChance, ho]
  · refine ⟨"AWAY_OR_DRAW", "HOME_OR_AWAY", by decide,
      correctSelections_pair (by decide) (by decide) ?_⟩
    simp [enumSelections, doubleChance, ho]
  · refine ⟨"HOME_OR_DRAW", "AWAY_OR_DRAW", by decide,
      correctSelections_pair (by decide) (by decide) ?_⟩
    simp [enumSelections, doubleChance, ho]

end DoubleChance

section CorrectScore

theorem isDigit_digitChar {n : ℕ} (hn : n ≤ 9) : n.digitChar.isDigit = true := by
  interval_cases n <;> decide

/-- A score is written with one character for each side exactly if both are below ten. -/
theorem correctScoreSelection_iff (home away : ℕ) :
    correctScoreSelection (toString home ++ "-" ++ toString away) = true ↔
      home ≤ 9 ∧ away ≤ 9 := by
  have hlist : (toString home ++ "-" ++ toString away).toList =
      Nat.toDigits 10 home ++ '-' :: Nat.toDigits 10 away := by
    simp [Nat.toString_eq_repr, Nat.toList_repr]
  unfold correctScoreSelection
  rw [hlist]
  constructor
  · intro h
    split at h
    · rename_i x y hxy
      have hlen := congrArg List.length hxy
      have hhome := Nat.length_toDigits_pos (b := 10) (n := home)
      have haway := Nat.length_toDigits_pos (b := 10) (n := away)
      simp only [List.length_append, List.length_cons, List.length_nil] at hlen
      have hhome' := (Nat.length_toDigits_le_iff (n := home) (b := 10) (k := 1) (by omega)
        (by omega)).1 (by omega)
      have haway' := (Nat.length_toDigits_le_iff (n := away) (b := 10) (k := 1) (by omega)
        (by omega)).1 (by omega)
      omega
    · cases h
  · rintro ⟨hhome, haway⟩
    rw [Nat.toDigits_of_lt_base (by omega), Nat.toDigits_of_lt_base (by omega)]
    simp [isDigit_digitChar hhome, isDigit_digitChar haway]

theorem correctScore_correct (r : FinalResult) : correctSelections .correctScore r =
    if r.homeGoals ≤ 9 ∧ r.awayGoals ≤ 9 then
      {toString r.homeGoals ++ "-" ++ toString r.awayGoals} else ∅ := by
  ext sel
  have hsel : sel ∈ correctSelections .correctScore r ↔ correctScoreSelection sel = true ∧
      sel = toString r.homeGoals ++ "-" ++ toString r.awayGoals :=
    and_congr_right' decide_eq_true_iff
  rw [hsel]
  split_ifs with hsmall
  · rw [Set.mem_singleton_iff]
    constructor
    · exact fun h => h.2
    · rintro rfl
      exact ⟨(correctScoreSelection_iff _ _).2 hsmall, rfl⟩
  · apply iff_of_false _ (Set.notMem_empty sel)
    rintro ⟨hvalid, rfl⟩
    exact hsmall ((correctScoreSelection_iff _ _).1 hvalid)

end CorrectScore

/-- Whatever the goals, two double chances are correct, one correct score if both sides have
one digit and none otherwise, and one selection of every other market. The refinements of a
finalized result are not needed for it. -/
theorem correctSelections_encard (market : MarketType) (r : FinalResult) :
    (correctSelections market r).encard = expectedCorrect market r := by
  have hone : ∀ x, Answer market r x → (correctSelections market r).encard = 1 := by
    intro x hx
    rw [hx.correctSelections_eq, Set.encard_singleton]
  cases market with
  | matchWinner => exact hone _ (matchWinner_answer r)
  | overUnder25 => exact hone _ (overUnder25_answer r)
  | btts => exact hone _ (btts_answer r)
  | firstHalfWinner => exact hone _ (firstHalfWinner_answer r)
  | firstTeamToScore => exact hone _ (firstTeamToScore_answer r)
  | cleanSheet => exact hone _ (cleanSheet_answer r)
  | exactGoals => exact hone _ (exactGoals_answer r)
  | winningMargin =>
    obtain ⟨x, hx⟩ := winningMargin_answer r
    exact hone x hx
  | doubleChance =>
    obtain ⟨x, y, hne, heq⟩ := doubleChance_correct r
    rw [heq, Set.encard_pair hne]
    norm_num [expectedCorrect]
  | correctScore =>
    rw [correctScore_correct]
    unfold expectedCorrect
    split_ifs with hsmall
    · rw [Set.encard_singleton, Nat.cast_one]
    · rw [Set.encard_empty, Nat.cast_zero]

end Scoring
end FootballIQ
