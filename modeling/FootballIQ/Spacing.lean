import Mathlib.Data.List.Chain
import Mathlib.Tactic

/-!
# Spaced times

Times of which each is at least a gap after the one before it. A window holds no more of them
than fit into it.
-/

namespace FootballIQ
namespace Spacing

/-- Each time is at least `gap` after the one before it. -/
def Spaced (gap : ℕ) (times : List ℕ) : Prop := times.IsChain (fun s t => s + gap ≤ t)

/-- The times in the closed window of the given width. -/
def inWindow (start width : ℕ) (times : List ℕ) : List ℕ :=
  times.filter (fun t => start ≤ t ∧ t ≤ start + width)

variable {gap : ℕ} {times : List ℕ}

theorem spaced_nil (gap : ℕ) : Spaced gap [] := List.isChain_nil

theorem Spaced.concat (h : Spaced gap times) {t : ℕ}
    (ht : ∀ s ∈ times.getLast?, s + gap ≤ t) : Spaced gap (times ++ [t]) := by
  refine List.isChain_append.2 ⟨h, List.isChain_singleton t, fun s hs u hu => ?_⟩
  rw [List.head?_cons, Option.mem_some_iff] at hu
  rw [← hu]
  exact ht s hs

theorem Spaced.pairwise (h : Spaced gap times) : times.Pairwise (fun s t => s + gap ≤ t) := by
  have htrans : IsTrans ℕ (fun s t => s + gap ≤ t) := ⟨fun s t u hst htu => by omega⟩
  exact List.isChain_iff_pairwise.1 h

/-- Spaced times that begin no sooner than `start` and end by `stop` are few. -/
theorem length_mul_le {start stop : ℕ} (h : times.Pairwise (fun s t => s + gap ≤ t))
    (hstart : ∀ t ∈ times, start ≤ t) (hstop : ∀ t ∈ times, t ≤ stop) (hne : times ≠ []) :
    start + gap * (times.length - 1) ≤ stop := by
  induction times generalizing start with
  | nil => exact absurd rfl hne
  | cons t times ih =>
    rw [List.pairwise_cons] at h
    have ht := hstart t List.mem_cons_self
    have hle := hstop t List.mem_cons_self
    by_cases hnil : times = []
    · rw [hnil]
      simp only [List.length_cons, List.length_nil, Nat.zero_add, Nat.sub_self, Nat.mul_zero]
      omega
    · have hnext : ∀ u ∈ times, t + gap ≤ u := h.1
      have hrest := ih h.2 hnext (fun u hu => hstop u (List.mem_cons_of_mem _ hu)) hnil
      have hpos := List.length_pos_iff.2 hnil
      have hlen : (t :: times).length - 1 = times.length - 1 + 1 := by
        rw [List.length_cons]
        omega
      rw [hlen, Nat.mul_add]
      omega

/-- A window holds at most one time more than the number of gaps that fit into it. -/
theorem Spaced.length_inWindow_le (h : Spaced gap times) (hgap : 0 < gap) (start width : ℕ) :
    (inWindow start width times).length ≤ width / gap + 1 := by
  by_cases hnil : inWindow start width times = []
  · rw [hnil]
    exact Nat.zero_le _
  · have hmem : ∀ t ∈ inWindow start width times, start ≤ t ∧ t ≤ start + width := by
      intro t ht
      exact of_decide_eq_true (List.mem_filter.1 ht).2
    have hspaced : (inWindow start width times).Pairwise (fun s t => s + gap ≤ t) :=
      h.pairwise.sublist List.filter_sublist
    have hle := length_mul_le hspaced (fun t ht => (hmem t ht).1) (fun t ht => (hmem t ht).2) hnil
    have hdiv : (inWindow start width times).length - 1 ≤ width / gap := by
      rw [Nat.le_div_iff_mul_le hgap, Nat.mul_comm]
      omega
    omega

end Spacing
end FootballIQ
