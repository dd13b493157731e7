import FootballIQ.Sequential
import Mathlib.Data.List.Sort

/-!
# A queue that is served through a window at its head

Each round takes the first items up to the width of a window and finishes those that can
be finished; the others keep their places at the head. New items arrive at the end. An
item gets its turn exactly when fewer unfinishable items are before it than the window
is wide, and then after a number of rounds that the items before it bound.
-/

namespace Backlog

variable {α : Type*}

inductive Event (α : Type*) where
  | round
  | arrive (a : α)

section Service
variable (w : ℕ) (bad : α → Prop) [DecidablePred bad]

/-- One round: what is finished leaves the window. -/
def round (xs : List α) : List α := (xs.take w).filter bad ++ xs.drop w

def step : Event α → List α → List α
  | .round, xs => round w bad xs
  | .arrive a, xs => xs ++ [a]

def rounds (es : List (Event α)) : ℕ := es.countP (fun e => match e with
  | .round => true
  | .arrive _ => false)

@[simp] theorem rounds_nil : rounds ([] : List (Event α)) = 0 := rfl

@[simp] theorem rounds_round (es : List (Event α)) : rounds (.round :: es) = rounds es + 1 :=
  List.countP_cons_of_pos rfl

@[simp] theorem rounds_arrive (a : α) (es : List (Event α)) :
    rounds (.arrive a :: es) = rounds es := List.countP_cons_of_neg (by simp)

/-- Beyond the window everything keeps its place. -/
theorem round_behind {l r : List α} {a : α} (h : w ≤ l.length) :
    round w bad (l ++ a :: r) = round w bad l ++ a :: r := by
  unfold round
  rw [List.take_append_of_le_length h, List.drop_append_of_le_length h, List.append_assoc]

theorem mem_of_mem_round {xs : List α} {a : α} (h : a ∈ round w bad xs) : a ∈ xs := by
  rcases List.mem_append.1 h with h | h
  · exact List.mem_of_mem_take (List.mem_of_mem_filter h)
  · exact List.mem_of_mem_drop h

/-- An item in the window that can be finished is finished. -/
theorem not_mem_round {l r : List α} {a : α} (ha : ¬ bad a) (hr : a ∉ r) (h : l.length < w) :
    a ∉ round w bad (l ++ a :: r) := by
  intro hmem
  rcases List.mem_append.1 hmem with hmem | hmem
  · exact ha (by simpa using List.of_mem_filter hmem)
  · obtain ⟨k, rfl⟩ : ∃ k, w = l.length + (k + 1) := ⟨w - l.length - 1, by omega⟩
    rw [List.drop_append, List.drop_eq_nil_of_le (by omega), List.nil_append,
      show l.length + (k + 1) - l.length = k + 1 by omega, List.drop_succ_cons] at hmem
    exact hr (List.mem_of_mem_drop hmem)

theorem countP_bad_round (xs : List α) :
    (round w bad xs).countP (fun a => bad a) = xs.countP (fun a => bad a) := by
  unfold round
  rw [List.countP_append, List.countP_filter]
  simp only [Bool.and_self]
  rw [← List.countP_append, List.take_append_drop]

/-- A full window finishes as many items as it has room beside the unfinishable ones. -/
theorem countP_good_round {xs : List α} (h : w ≤ xs.length) :
    (round w bad xs).countP (fun a => ¬ bad a) + (w - xs.countP (fun a => bad a)) ≤
      xs.countP (fun a => ¬ bad a) := by
  have hnone : ((xs.take w).filter (fun a => bad a)).countP (fun a => ¬ bad a) = 0 := by
    rw [List.countP_eq_zero]
    intro a ha
    simpa using List.of_mem_filter ha
  have hrest : (round w bad xs).countP (fun a => ¬ bad a) =
      (xs.drop w).countP (fun a => ¬ bad a) := by
    unfold round
    rw [List.countP_append, hnone, Nat.zero_add]
  have hwindow := List.length_eq_countP_add_countP (fun a => decide (bad a)) (l := xs.take w)
  have hlength : (xs.take w).length = w := by rw [List.length_take]; omega
  have hbad : (xs.take w).countP (fun a => bad a) ≤ xs.countP (fun a => bad a) :=
    (List.take_sublist w xs).countP_le
  have hsplit : xs.countP (fun a => ¬ bad a) =
      (xs.take w).countP (fun a => ¬ bad a) + (xs.drop w).countP (fun a => ¬ bad a) := by
    rw [← List.countP_append, List.take_append_drop]
  have hneg : (xs.take w).countP (fun a => ¬ decide (bad a) = true) =
      (xs.take w).countP (fun a => ¬ bad a) := by
    apply List.countP_congr
    intro a _
    simp
  rw [hneg] at hwindow
  omega

end Service

section Turns
variable {w : ℕ} {bad : α → Prop} [DecidablePred bad] {es : List (Event α)}

/-- What has left and does not arrive again stays away. -/
theorem not_mem_run {xs : List α} {a : α} (h : a ∉ xs) (hes : .arrive a ∉ es) :
    a ∉ Sequential.run (step w bad) xs es := by
  induction es generalizing xs with
  | nil => exact h
  | cons e es ih =>
    have hrest : .arrive a ∉ es := fun hmem => hes (List.mem_cons_of_mem _ hmem)
    cases e with
    | round => exact ih (fun hmem => h (mem_of_mem_round w bad hmem)) hrest
    | arrive b =>
      refine ih ?_ hrest
      intro hmem
      rcases List.mem_append.1 hmem with hmem | hmem
      · exact h hmem
      · apply hes
        rw [List.mem_singleton.1 hmem]
        exact List.mem_cons_self

/-- With room beside the unfinishable items before it, an item is finished once the
rounds have had room for all items before it. -/
theorem served {l r : List α} {a : α} (ha : ¬ bad a) (hl : a ∉ l) (hr : a ∉ r)
    (hes : .arrive a ∉ es)
    (hn : l.countP (fun b => ¬ bad b) < rounds es * (w - l.countP (fun b => bad b))) :
    a ∉ Sequential.run (step w bad) (l ++ a :: r) es := by
  induction es generalizing l r with
  | nil => simp at hn
  | cons e es ih =>
    have hrest : .arrive a ∉ es := fun hmem => hes (List.mem_cons_of_mem _ hmem)
    cases e with
    | arrive b =>
      have hb : a ∉ r ++ [b] := by
        intro hmem
        rcases List.mem_append.1 hmem with hmem | hmem
        · exact hr hmem
        · apply hes
          rw [List.mem_singleton.1 hmem]
          exact List.mem_cons_self
      rw [rounds_arrive] at hn
      have := ih hl hb hrest hn
      rwa [Sequential.run_cons, step, List.append_assoc, List.cons_append]
    | round =>
      rw [Sequential.run_cons, step]
      by_cases hw : l.length < w
      · refine not_mem_run ?_ hrest
        exact not_mem_round w bad ha hr hw
      · have hw' : w ≤ l.length := by omega
        rw [round_behind w bad hw']
        have hgood := countP_good_round w bad hw'
        have hbad := countP_bad_round w bad l
        refine ih (fun hmem => hl (mem_of_mem_round w bad hmem)) hr hrest ?_
        rw [rounds_round, Nat.add_mul, Nat.one_mul] at hn
        rw [hbad]
        omega

/-- Behind a window full of unfinishable items an item waits for ever. -/
theorem starved {l r : List α} {a : α} (hw : w ≤ l.countP (fun b => bad b)) :
    a ∈ Sequential.run (step w bad) (l ++ a :: r) es := by
  induction es generalizing l r with
  | nil => exact List.mem_append_right _ List.mem_cons_self
  | cons e es ih =>
    cases e with
    | arrive b =>
      have := ih (r := r ++ [b]) hw
      rwa [Sequential.run_cons, step, List.append_assoc, List.cons_append]
    | round =>
      rw [Sequential.run_cons, step, round_behind w bad (hw.trans List.countP_le_length)]
      exact ih (by rwa [countP_bad_round])

end Turns

section Sorting
variable {β : Type*} (r : α → α → Prop) [DecidableRel r]

/-- An item that follows all others is sorted to the end. -/
theorem insertionSort_concat {l : List α} {x : α} (h : ∀ a ∈ l, r a x) :
    (l ++ [x]).insertionSort r = l.insertionSort r ++ [x] := by
  have horder : ∀ (a : α) (s : List α), r a x →
      (s ++ [x]).orderedInsert r a = s.orderedInsert r a ++ [x] := by
    intro a s hax
    induction s with
    | nil => simp [hax]
    | cons b s ih =>
      by_cases hab : r a b
      · simp [hab]
      · simp [hab, ih]
  induction l with
  | nil => rfl
  | cons a l ih =>
    rw [List.cons_append, List.insertionSort_cons, ih (fun b hb => h b (List.mem_cons_of_mem _ hb)),
      horder a _ (h a List.mem_cons_self), List.insertionSort_cons]

/-- The stable sort commutes with a selection. -/
theorem filter_insertionSort [Std.Total r] [IsTrans α r] (p : α → Bool) (l : List α) :
    (l.filter p).insertionSort r = (l.insertionSort r).filter p := by
  have horder : ∀ (a : α) (s : List α), s.Pairwise r →
      (s.orderedInsert r a).filter p = if p a then (s.filter p).orderedInsert r a else s.filter p := by
    intro a s hs
    induction s with
    | nil => by_cases hp : p a <;> simp [hp]
    | cons b s ih =>
      rw [List.pairwise_cons] at hs
      by_cases hab : r a b
      · by_cases hp : p a
        · have hfirst : ∀ c ∈ (b :: s).filter p, r a c := by
            intro c hc
            rcases List.mem_cons.1 (List.mem_of_mem_filter hc) with rfl | hc
            · exact hab
            · exact IsTrans.trans _ _ _ hab (hs.1 c hc)
          rw [List.orderedInsert_cons_of_le r s hab, if_pos hp, List.filter_cons_of_pos hp]
          cases hf : (b :: s).filter p with
          | nil => rfl
          | cons c cs =>
            rw [hf] at hfirst
            exact (List.orderedInsert_cons_of_le r cs (hfirst c List.mem_cons_self)).symm
        · rw [List.orderedInsert_cons_of_le r s hab, if_neg hp, List.filter_cons_of_neg hp]
      · rw [List.orderedInsert_of_not_le r s hab]
        by_cases hpb : p b
        · rw [List.filter_cons_of_pos hpb, ih hs.2, List.filter_cons_of_pos hpb]
          split_ifs
          · rw [List.orderedInsert_of_not_le r _ hab]
          · rfl
        · rw [List.filter_cons_of_neg hpb, ih hs.2, List.filter_cons_of_neg hpb]
  induction l with
  | nil => rfl
  | cons a l ih =>
    rw [List.insertionSort_cons, horder a _ (List.pairwise_insertionSort r l), ← ih]
    by_cases hp : p a
    · rw [if_pos hp, List.filter_cons_of_pos hp, List.insertionSort_cons]
    · rw [if_neg hp, List.filter_cons_of_neg hp]

end Sorting

end Backlog
