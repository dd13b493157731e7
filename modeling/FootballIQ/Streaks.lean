import Mathlib.Data.List.Induction
import Mathlib.Order.Bounds.Basic

/-!
# Streaks

One pass over a list with two counters, the streak that is running and the best one so far. The
first is the length of the longest suffix of hits, the second that of the longest block of hits.
-/

namespace FootballIQ
namespace Streaks

variable {α : Type*} (hit : α → Prop)

/-- The lengths of the suffixes of hits. -/
def runs (l : List α) : Set ℕ := {n | ∃ s, s <:+ l ∧ (∀ a ∈ s, hit a) ∧ s.length = n}

/-- The lengths of the contiguous blocks of hits. -/
def blocks (l : List α) : Set ℕ := {n | ∃ s, s <:+: l ∧ (∀ a ∈ s, hit a) ∧ s.length = n}

theorem runs_subset_blocks (l : List α) : runs hit l ⊆ blocks hit l := by
  rintro n ⟨s, hs, hhit, hlen⟩
  exact ⟨s, hs.isInfix, hhit, hlen⟩

theorem le_length_of_mem_blocks {l : List α} {n : ℕ} (h : n ∈ blocks hit l) : n ≤ l.length := by
  obtain ⟨s, hs, _, rfl⟩ := h
  exact hs.length_le

theorem blocks_concat (l : List α) (a : α) :
    blocks hit (l ++ [a]) = runs hit (l ++ [a]) ∪ blocks hit l := by
  ext n
  constructor
  · rintro ⟨s, hs, hhit, hlen⟩
    rcases List.infix_concat_iff.1 hs with hs | hs
    · exact Or.inl ⟨s, hs, hhit, hlen⟩
    · exact Or.inr ⟨s, hs, hhit, hlen⟩
  · rintro (⟨s, hs, hhit, hlen⟩ | ⟨s, hs, hhit, hlen⟩)
    · exact ⟨s, List.infix_concat_iff.2 (Or.inl hs), hhit, hlen⟩
    · exact ⟨s, List.infix_concat_iff.2 (Or.inr hs), hhit, hlen⟩

/-- A hit makes every run one longer. -/
theorem isGreatest_runs_hit {l : List α} {a : α} {n : ℕ} (ha : hit a)
    (h : IsGreatest (runs hit l) n) : IsGreatest (runs hit (l ++ [a])) (n + 1) := by
  constructor
  · obtain ⟨s, hs, hhit, rfl⟩ := h.1
    refine ⟨s ++ [a], List.suffix_concat_iff.2 (Or.inr ⟨s, rfl, hs⟩), ?_, by simp⟩
    intro b hb
    rcases List.mem_append.1 hb with hb | hb
    · exact hhit b hb
    · rw [List.mem_singleton.1 hb]
      exact ha
  · rintro m ⟨s, hs, hhit, rfl⟩
    rcases List.suffix_concat_iff.1 hs with rfl | ⟨t, rfl, ht⟩
    · exact Nat.zero_le _
    · have hle := h.2 ⟨t, ht, fun b hb => hhit b (List.mem_append_left _ hb), rfl⟩
      rw [List.length_append, List.length_singleton]
      omega

/-- A miss leaves the empty run. -/
theorem isGreatest_runs_miss (l : List α) {a : α} (ha : ¬ hit a) :
    IsGreatest (runs hit (l ++ [a])) 0 := by
  constructor
  · exact ⟨[], List.nil_suffix, by simp, rfl⟩
  · rintro m ⟨s, hs, hhit, rfl⟩
    rcases List.suffix_concat_iff.1 hs with rfl | ⟨t, rfl, _⟩
    · exact le_refl _
    · exact absurd (hhit a (by simp)) ha

variable [DecidablePred hit]

def step (acc : ℕ × ℕ) (a : α) : ℕ × ℕ :=
  let current := if hit a then acc.1 + 1 else 0
  (current, max acc.2 current)

/-- The two counters after a pass are the longest run and the longest block. -/
theorem foldl_step (l : List α) : IsGreatest (runs hit l) (l.foldl (step hit) (0, 0)).1 ∧
    IsGreatest (blocks hit l) (l.foldl (step hit) (0, 0)).2 := by
  induction l using List.reverseRecOn with
  | nil =>
    refine ⟨⟨⟨[], List.nil_suffix, by simp, rfl⟩, ?_⟩, ⟨[], List.nil_infix, by simp, rfl⟩, ?_⟩
    · intro n hn
      exact le_length_of_mem_blocks hit (runs_subset_blocks hit [] hn)
    · intro n hn
      exact le_length_of_mem_blocks hit hn
  | append_singleton l a ih =>
    obtain ⟨hrun, hblock⟩ := ih
    rw [List.foldl_append, List.foldl_cons, List.foldl_nil]
    have hcurrent : IsGreatest (runs hit (l ++ [a]))
        (step hit (l.foldl (step hit) (0, 0)) a).1 := by
      unfold step
      by_cases ha : hit a
      · simp only [if_pos ha]
        exact isGreatest_runs_hit hit ha hrun
      · simp only [if_neg ha]
        exact isGreatest_runs_miss hit l ha
    refine ⟨hcurrent, ?_⟩
    have hbest := hcurrent.union hblock
    rw [← blocks_concat, max_comm] at hbest
    exact hbest

end Streaks
end FootballIQ
