import Mathlib.Logic.Function.Basic
import Mathlib.Tactic

/-!
# A cache whose values expire

Readers that miss load a value themselves and put it in for a fixed time; anyone may
delete a key. What is found was loaded for its key, and no longer ago than a load may take
and a value may live.
-/

namespace ReadThrough

structure Slot (ν : Type*) where
  value : ν
  expiresAt : ℕ

abbrev Cache (κ ν : Type*) : Type _ := κ → Option (Slot ν)

namespace Cache
variable {κ ν : Type*}

def empty : Cache κ ν := fun _ => none

def get (now : ℕ) (c : Cache κ ν) (k : κ) : Option ν :=
  (c k).bind (fun slot => if now < slot.expiresAt then some slot.value else none)

variable [DecidableEq κ]

def set (now ttl : ℕ) (k : κ) (v : ν) (c : Cache κ ν) : Cache κ ν :=
  Function.update c k (some ⟨v, now + ttl⟩)

def del (k : κ) (c : Cache κ ν) : Cache κ ν := Function.update c k none

def delWhere (p : κ → Prop) [DecidablePred p] (c : Cache κ ν) : Cache κ ν :=
  fun k => if p k then none else c k

/-- Every value was loaded for its key by a load that began no more than `age` before the
value expires. -/
def Justified (Loaded : κ → ν → ℕ → Prop) (age : ℕ) (c : Cache κ ν) : Prop :=
  ∀ k slot, c k = some slot → ∃ t, Loaded k slot.value t ∧ slot.expiresAt ≤ t + age

variable {Loaded Loaded' : κ → ν → ℕ → Prop} {age now ttl span : ℕ} {c : Cache κ ν} {k : κ} {v : ν}

omit [DecidableEq κ] in
theorem justified_empty : Justified Loaded age (empty : Cache κ ν) := by
  intro k slot h
  cases h

omit [DecidableEq κ] in
theorem Justified.mono (h : Justified Loaded age c)
    (hmono : ∀ k v t, Loaded k v t → Loaded' k v t) : Justified Loaded' age c := by
  intro k slot hslot
  obtain ⟨t, hloaded, hle⟩ := h k slot hslot
  exact ⟨t, hmono _ _ _ hloaded, hle⟩

/-- A value that is put in within `span` of the beginning of its load. -/
theorem Justified.set (h : Justified Loaded (span + ttl) c) {t : ℕ} (hloaded : Loaded k v t)
    (hspan : now ≤ t + span) : Justified Loaded (span + ttl) (set now ttl k v c) := by
  intro k' slot hslot
  by_cases hk : k' = k
  · subst hk
    rw [Cache.set, Function.update_self, Option.some.injEq] at hslot
    subst hslot
    exact ⟨t, hloaded, by simp only; omega⟩
  · rw [Cache.set, Function.update_of_ne hk] at hslot
    exact h k' slot hslot

theorem Justified.del (h : Justified Loaded age c) : Justified Loaded age (del k c) := by
  intro k' slot hslot
  by_cases hk : k' = k
  · subst hk
    rw [Cache.del, Function.update_self] at hslot
    cases hslot
  · rw [Cache.del, Function.update_of_ne hk] at hslot
    exact h k' slot hslot

omit [DecidableEq κ] in
theorem Justified.delWhere (h : Justified Loaded age c) (p : κ → Prop) [DecidablePred p] :
    Justified Loaded age (c.delWhere p) := by
  intro k slot hslot
  unfold Cache.delWhere at hslot
  split_ifs at hslot
  exact h k slot hslot

omit [DecidableEq κ] in
/-- What is found was loaded less than `age` ago. -/
theorem Justified.get (h : Justified Loaded age c) (hget : get now c k = some v) :
    ∃ t, Loaded k v t ∧ now < t + age := by
  obtain ⟨slot, hslot, hlive⟩ := Option.bind_eq_some_iff.1 hget
  split_ifs at hlive with hexpires
  cases hlive
  obtain ⟨t, hloaded, hle⟩ := h k slot hslot
  exact ⟨t, hloaded, by omega⟩

end Cache
end ReadThrough
