import Mathlib.Algebra.BigOperators.Group.List.Basic
import Mathlib.Algebra.Order.BigOperators.Group.List
import Mathlib.Algebra.BigOperators.Ring.List
import Mathlib.Algebra.Order.Field.Basic
import Mathlib.Tactic.FieldSimp

/-!
# Weighted means

The mean of finitely many values under non-negative weights that are divided by their sum. It
lies between any bounds of the values, rises with them, and depends on the weights up to a factor.
-/

namespace FootballIQ
namespace WeightedMean

variable {ι K : Type*} [Field K]

def total (l : List ι) (w : ι → K) : K := (l.map w).sum

def mean (l : List ι) (w x : ι → K) : K := (l.map (fun i => x i * (w i / total l w))).sum

theorem mean_const {l : List ι} {w : ι → K} (h : total l w ≠ 0) (c : K) :
    mean l w (fun _ => c) = c := by
  have hdiv : (l.map (fun i => w i / total l w)).sum = total l w / total l w := by
    simp only [div_eq_mul_inv, List.sum_map_mul_right]
    rfl
  rw [mean, List.sum_map_mul_left, hdiv, div_self h, mul_one]

theorem total_scale (l : List ι) (w : ι → K) (c : K) :
    total l (fun i => c * w i) = c * total l w := List.sum_map_mul_left ..

/-- A common factor of the weights cancels. -/
theorem mean_scale (l : List ι) (w x : ι → K) {c : K} (hc : c ≠ 0) :
    mean l (fun i => c * w i) x = mean l w x := by
  unfold mean
  simp only [total_scale, mul_div_mul_left _ _ hc]

theorem total_congr {l : List ι} {w w' : ι → K} (h : ∀ i ∈ l, w' i = w i) :
    total l w' = total l w :=
  congrArg List.sum (List.map_congr_left h)

theorem mean_congr {l : List ι} {w w' : ι → K} (h : ∀ i ∈ l, w' i = w i) (x : ι → K) :
    mean l w' x = mean l w x := by
  unfold mean
  rw [total_congr h]
  apply congrArg List.sum
  apply List.map_congr_left
  intro i hi
  rw [h i hi]

variable [LinearOrder K] [IsStrictOrderedRing K] {l : List ι} {w x y : ι → K}

theorem total_nonneg (hw : ∀ i ∈ l, 0 ≤ w i) : 0 ≤ total l w := by
  apply List.sum_nonneg
  intro a ha
  obtain ⟨i, hi, rfl⟩ := List.mem_map.1 ha
  exact hw i hi

theorem total_pos (hw : ∀ i ∈ l, 0 < w i) {i : ι} (hi : i ∈ l) : 0 < total l w :=
  (hw i hi).trans_le (List.single_le_sum (fun a ha => by
    obtain ⟨j, hj, rfl⟩ := List.mem_map.1 ha
    exact (hw j hj).le) _ (List.mem_map_of_mem hi))

/-- Where no value falls, the mean does not. -/
theorem mean_mono (hw : ∀ i ∈ l, 0 ≤ w i) (h : ∀ i ∈ l, x i ≤ y i) : mean l w x ≤ mean l w y := by
  apply List.sum_le_sum
  intro i hi
  exact mul_le_mul_of_nonneg_right (h i hi) (div_nonneg (hw i hi) (total_nonneg hw))

theorem mean_le (hw : ∀ i ∈ l, 0 ≤ w i) (hpos : total l w ≠ 0) {c : K} (h : ∀ i ∈ l, x i ≤ c) :
    mean l w x ≤ c :=
  (mean_mono hw h).trans_eq (mean_const hpos c)

theorem le_mean (hw : ∀ i ∈ l, 0 ≤ w i) (hpos : total l w ≠ 0) {c : K} (h : ∀ i ∈ l, c ≤ x i) :
    c ≤ mean l w x :=
  (mean_const hpos c).symm.trans_le (mean_mono hw h)

end WeightedMean
end FootballIQ
