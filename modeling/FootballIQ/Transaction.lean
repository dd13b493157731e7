import Mathlib.Control.Monad.Basic
import Mathlib.Data.List.Basic

/-!
# Database transactions

A transaction reads and writes a state and either returns a value or fails.
`commit` is what the database keeps of it: the new state of a successful run,
and the old state of a failed one. `Within R` says that every successful run of
a transaction is a step of `R`, and is composed along the program text.
-/

universe u

namespace Transaction

abbrev Tx (ε σ α : Type u) := StateT σ (Except ε) α

section Outcomes
variable {ε σ α β : Type u}

def throwIf (p : Prop) [Decidable p] (e : ε) : Tx ε σ PUnit :=
  if p then throw e else pure ⟨⟩

/-- A failing step that leaves the state alone, such as a check of the arguments. -/
def check (x : Except ε α) : Tx ε σ α := fun s => x.map (fun a => (a, s))

def orThrow (o : Option α) (e : ε) : Tx ε σ α :=
  check (o.elim (.error e) .ok)

/-- Translate the failure of `x`, as a `catch` that always throws again. -/
def rescue (g : ε → ε) (x : Tx ε σ α) : Tx ε σ α := fun s => (x s).mapError g

def commit (x : Tx ε σ α) (s : σ) : σ :=
  match x s with
  | .ok (_, s') => s'
  | .error _ => s

theorem commit_of_ok {x : Tx ε σ α} {s s' : σ} {a : α} (h : x s = .ok (a, s')) :
    commit x s = s' := by simp only [commit, h]

theorem commit_of_error {x : Tx ε σ α} {s : σ} {e : ε} (h : x s = .error e) :
    commit x s = s := by simp only [commit, h]

/-- A transaction either commits a successful run or changes nothing. -/
theorem commit_cases (x : Tx ε σ α) (s : σ) :
    (∃ a s', x s = .ok (a, s') ∧ commit x s = s') ∨
      (∃ e, x s = .error e ∧ commit x s = s) := by
  cases h : x s with
  | ok r => exact Or.inl ⟨r.1, r.2, rfl, commit_of_ok h⟩
  | error e => exact Or.inr ⟨e, rfl, commit_of_error h⟩

@[simp] theorem bind_ok_iff (x : Tx ε σ α) (f : α → Tx ε σ β) (s : σ) (r : β × σ) :
    (x >>= f) s = .ok r ↔ ∃ a s₁, x s = .ok (a, s₁) ∧ f a s₁ = .ok r := by
  change (x s).bind (fun p => f p.1 p.2) = .ok r ↔ _
  cases x s with
  | ok p =>
    obtain ⟨a, s₁⟩ := p
    simp [Except.bind]
  | error e => simp [Except.bind]

@[simp] theorem pure_ok_iff (a b : α) (s s' : σ) :
    (pure a : Tx ε σ α) s = .ok (b, s') ↔ a = b ∧ s = s' := by
  change Except.ok (a, s) = .ok (b, s') ↔ _
  simp

@[simp] theorem pure_unit_ok_iff (s : σ) (r : PUnit × σ) :
    (pure ⟨⟩ : Tx ε σ PUnit) s = .ok r ↔ s = r.2 := by
  obtain ⟨⟨⟩, s'⟩ := r
  rw [pure_ok_iff]
  simp

@[simp] theorem throw_ok_iff (e : ε) (s : σ) (r : α × σ) :
    (throw e : Tx ε σ α) s = .ok r ↔ False := by
  change Except.error e = .ok r ↔ _
  simp

@[simp] theorem get_ok_iff (s t s' : σ) :
    (get : Tx ε σ σ) s = .ok (t, s') ↔ s = t ∧ s = s' := by
  change Except.ok (s, s) = .ok (t, s') ↔ _
  simp

@[simp] theorem set_ok_iff (t s : σ) (r : PUnit × σ) :
    (set t : Tx ε σ PUnit) s = .ok r ↔ t = r.2 := by
  obtain ⟨⟨⟩, s'⟩ := r
  change Except.ok (PUnit.unit, t) = .ok (PUnit.unit, s') ↔ _
  simp

@[simp] theorem modify_ok_iff (f : σ → σ) (s : σ) (r : PUnit × σ) :
    (modify f : Tx ε σ PUnit) s = .ok r ↔ f s = r.2 := by
  obtain ⟨⟨⟩, s'⟩ := r
  change Except.ok (PUnit.unit, f s) = .ok (PUnit.unit, s') ↔ _
  simp

@[simp] theorem throwIf_ok_iff (p : Prop) [Decidable p] (e : ε) (s : σ) (r : PUnit × σ) :
    (throwIf p e : Tx ε σ PUnit) s = .ok r ↔ ¬ p ∧ s = r.2 := by
  obtain ⟨⟨⟩, s'⟩ := r
  unfold throwIf
  by_cases hp : p
  · simp [hp]
  · simp [hp]

@[simp] theorem check_ok_iff (x : Except ε α) (s s' : σ) (a : α) :
    (check x : Tx ε σ α) s = .ok (a, s') ↔ x = .ok a ∧ s = s' := by
  unfold check
  cases x with
  | ok b => simp [Except.map]
  | error e => simp [Except.map]

@[simp] theorem orThrow_ok_iff (o : Option α) (e : ε) (s s' : σ) (a : α) :
    (orThrow o e : Tx ε σ α) s = .ok (a, s') ↔ o = some a ∧ s = s' := by
  unfold orThrow
  rw [check_ok_iff]
  cases o with
  | some b => simp
  | none => simp

@[simp] theorem rescue_ok_iff (g : ε → ε) (x : Tx ε σ α) (s : σ) (r : α × σ) :
    rescue g x s = .ok r ↔ x s = .ok r := by
  unfold rescue
  cases x s with
  | ok p => simp [Except.mapError]
  | error e => simp [Except.mapError]

theorem bind_of_ok {x : Tx ε σ α} {f : α → Tx ε σ β} {s s₁ : σ} {a : α}
    (h : x s = .ok (a, s₁)) : (x >>= f) s = f a s₁ := by
  change (x s).bind (fun p => f p.1 p.2) = _
  rw [h]
  rfl

theorem bind_of_error {x : Tx ε σ α} {f : α → Tx ε σ β} {s : σ} {e : ε} (h : x s = .error e) :
    (x >>= f) s = .error e := by
  change (x s).bind (fun p => f p.1 p.2) = _
  rw [h]
  rfl

end Outcomes

section Loops
variable {ε σ : Type u} {ι : Type u}

@[simp] theorem forM_nil_ok_iff (f : ι → Tx ε σ PUnit) (s : σ) (r : PUnit × σ) :
    (forM [] f : Tx ε σ PUnit) s = .ok r ↔ s = r.2 := by
  obtain ⟨⟨⟩, s'⟩ := r
  simp

@[simp] theorem forM_cons_ok_iff (f : ι → Tx ε σ PUnit) (i : ι) (is : List ι) (s : σ)
    (r : PUnit × σ) :
    (forM (i :: is) f : Tx ε σ PUnit) s = .ok r ↔
      ∃ s₁, f i s = .ok (⟨⟩, s₁) ∧ (forM is f : Tx ε σ PUnit) s₁ = .ok r := by
  rw [List.forM_cons, bind_ok_iff]
  constructor
  · rintro ⟨⟨⟩, s₁, hi, his⟩
    exact ⟨s₁, hi, his⟩
  · rintro ⟨s₁, hi, his⟩
    exact ⟨⟨⟩, s₁, hi, his⟩

end Loops

section Zoom
variable {ε σ τ α : Type u}

/-- Run a transaction on one component of a larger state. -/
def zoom (view : σ → τ) (put : τ → σ → σ) (x : Tx ε τ α) : Tx ε σ α := fun s =>
  (x (view s)).map (fun p => (p.1, put p.2 s))

@[simp] theorem zoom_ok_iff (view : σ → τ) (put : τ → σ → σ) (x : Tx ε τ α) (s s' : σ) (a : α) :
    zoom view put x s = .ok (a, s') ↔ ∃ t, x (view s) = .ok (a, t) ∧ put t s = s' := by
  unfold zoom
  cases h : x (view s) with
  | ok p =>
    obtain ⟨b, t⟩ := p
    simp only [Except.map, Except.ok.injEq, Prod.mk.injEq]
    constructor
    · rintro ⟨rfl, rfl⟩
      exact ⟨t, ⟨rfl, rfl⟩, rfl⟩
    · rintro ⟨_, ⟨rfl, rfl⟩, rfl⟩
      exact ⟨rfl, rfl⟩
  | error e => simp [Except.map]

end Zoom

section Within
variable {ε σ α β : Type u} {R : σ → σ → Prop}

/-- Every successful run of `x` is a step of `R`. -/
def Within (R : σ → σ → Prop) (x : Tx ε σ α) : Prop :=
  ∀ s a s', x s = .ok (a, s') → R s s'

/-- A rolled-back transaction makes no step, so a reflexive relation bounds its commit too. -/
theorem Within.commit (hrefl : ∀ s, R s s) {x : Tx ε σ α} (hx : Within R x) (s : σ) :
    R s (commit x s) := by
  rcases commit_cases x s with ⟨a, s', hok, hc⟩ | ⟨e, _, hc⟩
  · rw [hc]
    exact hx s a s' hok
  · rw [hc]
    exact hrefl s

end Within

end Transaction
