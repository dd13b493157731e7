import Mathlib.Data.List.Forall2
import Mathlib.Data.Set.Function
import Mathlib.Tactic

/-!
# Hash chains

The rows of a chain carry a hash of their own and the hash of the row before them.
A replay computes every hash again from the beginning, each from the one computed
before it, and compares it with the stored one.
-/

namespace HashChain
variable {ρ η ω : Type*}

section Links
variable (prev hash : ρ → η)

/-- Every row points to the hash of the row before it, and the first row to `g`. -/
def Linked : η → List ρ → Prop
  | _, [] => True
  | g, r :: rs => prev r = g ∧ Linked (hash r) rs

/-- The hash that the next row has to point to. -/
def lastHash (g : η) (rs : List ρ) : η := (rs.getLast?.map hash).getD g

theorem lastHash_cons (g : η) (r : ρ) (rs : List ρ) :
    lastHash hash g (r :: rs) = lastHash hash (hash r) rs := by
  unfold lastHash
  rw [List.getLast?_cons]
  cases rs.getLast? with
  | none => rfl
  | some q => rfl

theorem lastHash_append_singleton (g : η) (rs : List ρ) (r : ρ) :
    lastHash hash g (rs ++ [r]) = hash r := by
  unfold lastHash
  rw [List.getLast?_concat]
  rfl

/-- The hash to point to comes after the hashes of all rows but the last. -/
theorem getElem?_lastHash (g : η) (rs : List ρ) :
    (g :: rs.map hash)[rs.length]? = some (lastHash hash g rs) := by
  induction rs generalizing g with
  | nil => rfl
  | cons r rs ih =>
    rw [lastHash_cons, List.map_cons, List.length_cons, List.getElem?_cons_succ]
    exact ih (hash r)

instance decidableLinked [DecidableEq η] : ∀ (g : η) (rs : List ρ), Decidable (Linked prev hash g rs)
  | _, [] => .isTrue trivial
  | g, r :: rs =>
    have := decidableLinked (hash r) rs
    inferInstanceAs (Decidable (prev r = g ∧ Linked prev hash (hash r) rs))

/-- A chain grows by a row exactly when the row points to the end of the chain. -/
theorem linked_append_singleton (g : η) (rs : List ρ) (r : ρ) :
    Linked prev hash g (rs ++ [r]) ↔ Linked prev hash g rs ∧ prev r = lastHash hash g rs := by
  induction rs generalizing g with
  | nil => simp [Linked, lastHash]
  | cons q rs ih =>
    rw [List.cons_append, lastHash_cons]
    simp only [Linked, ih, and_assoc]

end Links

section Replay
variable (object : η → ρ → ω) (digest : ω → η) (hash : ρ → η)

/-- Every hash that a replay from `g` computes is the stored one. -/
def Verifies : η → List ρ → Prop
  | _, [] => True
  | g, r :: rs => digest (object g r) = hash r ∧ Verifies (digest (object g r)) rs

/-- The objects that a replay from `g` hashes. -/
def replayed : η → List ρ → List ω
  | _, [] => []
  | g, r :: rs => object g r :: replayed (digest (object g r)) rs

instance decidableVerifies [DecidableEq η] :
    ∀ (g : η) (rs : List ρ), Decidable (Verifies object digest hash g rs)
  | _, [] => .isTrue trivial
  | g, r :: rs =>
    have := decidableVerifies (digest (object g r)) rs
    inferInstanceAs (Decidable (digest (object g r) = hash r ∧
      Verifies object digest hash (digest (object g r)) rs))

theorem verifies_iff_zip (g : η) (rs : List ρ) :
    Verifies object digest hash g rs ↔
      ∀ p ∈ (replayed object digest g rs).zip rs, digest p.1 = hash p.2 := by
  induction rs generalizing g with
  | nil => simp [Verifies, replayed]
  | cons r rs ih =>
    simp only [Verifies, replayed, List.zip_cons_cons, List.forall_mem_cons, ih]

variable {χ : Type*} {object' : η → χ → ω} {object} {digest} {hash}

/-- Rows under the hashes that were computed from `xs` verify exactly when every row gives
the object that was hashed, as long as no two of the objects hashed collide. -/
theorem verifies_iff_of_hashes
    (hobject : ∀ p q x r, object p r = object' p x → object q r = object' q x)
    {g : η} {xs : List χ} {rs : List ρ}
    (hhash : rs.map hash = (replayed object' digest g xs).map digest)
    (hfree : Set.InjOn digest
      {o | o ∈ replayed object' digest g xs ∨ o ∈ replayed object digest g rs}) :
    Verifies object digest hash g rs ↔
      List.Forall₂ (fun x r => ∀ p, object p r = object' p x) xs rs := by
  induction xs generalizing g rs with
  | nil =>
    cases List.map_eq_nil_iff.1 hhash
    exact iff_of_true trivial .nil
  | cons x xs ih =>
    obtain ⟨r, rs, rfl, hr, hrs⟩ := List.map_eq_cons_iff.1 hhash
    rw [List.forall₂_cons]
    have hrest : object g r = object' g x →
        (Verifies object digest hash (digest (object g r)) rs ↔
          List.Forall₂ (fun x r => ∀ p, object p r = object' p x) xs rs) := by
      intro hsame
      rw [hsame]
      apply ih hrs
      apply hfree.mono
      rintro o (ho | ho)
      · exact Or.inl (List.mem_cons_of_mem _ ho)
      · refine Or.inr (List.mem_cons_of_mem _ ?_)
        rwa [hsame]
    constructor
    · rintro ⟨hhead, htail⟩
      have hsame : object g r = object' g x :=
        hfree (Or.inr List.mem_cons_self) (Or.inl List.mem_cons_self) (hhead.trans hr)
      exact ⟨fun p => hobject g p x r hsame, (hrest hsame).1 htail⟩
    · rintro ⟨hall, htail⟩
      refine ⟨?_, (hrest (hall g)).2 htail⟩
      rw [hall g, hr]

end Replay

end HashChain
