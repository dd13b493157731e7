import Mathlib.Data.List.Sort
import Mathlib.Data.Set.Function

/-!
# Comparators that compare by a key

A comparator that agrees with the order of a key is a strict total order wherever the
key tells values apart, and sorting by it gives the same list from every order of the
input.
-/

namespace KeyOrder
variable {α κ : Type*} [LinearOrder κ] {cmp : α → α → Ordering} {key : α → κ}

def ComparesBy (cmp : α → α → Ordering) (key : α → κ) : Prop :=
  ∀ a b, cmp a b = compare (key a) (key b)

/-- A strict total order on the members of a list. -/
structure StrictTotalOn (cmp : α → α → Ordering) (l : List α) : Prop where
  antisymm : ∀ a ∈ l, ∀ b ∈ l, (cmp a b = .lt ↔ cmp b a = .gt)
  trans : ∀ a ∈ l, ∀ b ∈ l, ∀ c ∈ l, cmp a b = .lt → cmp b c = .lt → cmp a c = .lt
  total : ∀ a ∈ l, ∀ b ∈ l, a ≠ b → cmp a b = .lt ∨ cmp b a = .lt

variable (h : ComparesBy cmp key) {l l' : List α}
include h

theorem lt_iff (a b : α) : cmp a b = .lt ↔ key a < key b := by
  rw [h a b, compare_lt_iff_lt]

theorem ne_gt_iff (a b : α) : cmp a b ≠ .gt ↔ key a ≤ key b := by
  rw [h a b, compare_le_iff_le]

theorem strictTotalOn (hinj : ∀ a ∈ l, ∀ b ∈ l, key a = key b → a = b) : StrictTotalOn cmp l where
  antisymm a _ b _ := by rw [h a b, h b a, compare_lt_iff_lt, compare_gt_iff_gt]
  trans a _ b _ c _ hab hbc := by
    rw [lt_iff h] at hab hbc ⊢
    exact hab.trans hbc
  total a ha b hb hne := by
    rw [lt_iff h, lt_iff h]
    exact lt_or_gt_of_ne (fun heq => hne (hinj a ha b hb heq))

/-- Sorting by the comparator leaves no value before one with a smaller key. -/
theorem pairwise_sort (l : List α) :
    (l.insertionSort (fun a b => cmp a b ≠ .gt)).Pairwise (fun a b => key a ≤ key b) := by
  have htotal : Std.Total (fun a b => cmp a b ≠ .gt) :=
    ⟨fun a b => by rw [ne_gt_iff h, ne_gt_iff h]; exact le_total _ _⟩
  have htrans : IsTrans α (fun a b => cmp a b ≠ .gt) :=
    ⟨fun a b c => by rw [ne_gt_iff h, ne_gt_iff h, ne_gt_iff h]; exact le_trans⟩
  have hsorted := List.pairwise_insertionSort (fun a b => cmp a b ≠ .gt) l
  exact hsorted.imp (fun hab => (ne_gt_iff h _ _).1 hab)

theorem pairwise_lt_sort (hnd : (l.map key).Nodup) :
    (l.insertionSort (fun a b => cmp a b ≠ .gt)).Pairwise (fun a b => key a < key b) := by
  have hperm := List.perm_insertionSort (fun a b => cmp a b ≠ .gt) l
  have hne := List.pairwise_map.1 ((hperm.map key).nodup_iff.2 hnd)
  exact (pairwise_sort h l).imp₂ (fun a b hle hne => lt_of_le_of_ne hle hne) hne

/-- A list in the order of the keys is the sorted list of all its permutations. -/
theorem sort_eq_of_pairwise (hnd : (l.map key).Nodup) (hp : l'.Perm l)
    (hsorted : l'.Pairwise (fun a b => key a ≤ key b)) :
    l.insertionSort (fun a b => cmp a b ≠ .gt) = l' := by
  have hperm := (List.perm_insertionSort (fun a b => cmp a b ≠ .gt) l).trans hp.symm
  apply hperm.eq_of_pairwise _ (pairwise_sort h l) hsorted
  intro a b ha hb hab hba
  have hmem : ∀ x ∈ l', x ∈ l := fun x hx => hp.subset hx
  exact List.inj_on_of_nodup_map hnd (hmem a (hperm.subset ha)) (hmem b hb) (le_antisymm hab hba)

theorem sort_eq_of_perm (hnd : (l.map key).Nodup) (hp : l'.Perm l) :
    l'.insertionSort (fun a b => cmp a b ≠ .gt) = l.insertionSort (fun a b => cmp a b ≠ .gt) := by
  have hsorted := (List.perm_insertionSort (fun a b => cmp a b ≠ .gt) l').trans hp
  exact (sort_eq_of_pairwise h hnd hsorted (pairwise_sort h l')).symm

end KeyOrder
