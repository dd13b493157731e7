import FootballIQ.Transaction

/-!
# Calls that commit transaction by transaction

A saga runs transactions one after the other, each committed before the next
begins. A failure ends the saga and undoes only the transaction that failed. A
triple bounds both ends: `Q` where the saga returns, `E` where it has failed.
-/

universe u

namespace Transaction

def Saga (ε σ α : Type u) : Type u := σ → Except ε α × σ

namespace Saga
variable {ε σ α β : Type u}

instance : Monad (Saga ε σ) where
  pure a := fun s => (.ok a, s)
  bind x f := fun s =>
    match x s with
    | (.ok a, s') => f a s'
    | (.error e, s') => (.error e, s')

/-- One transaction, committed before the saga goes on. -/
def atomically (x : Tx ε σ α) : Saga ε σ α := fun s =>
  match x s with
  | .ok (a, s') => (.ok a, s')
  | .error e => (.error e, s)

/-- The outcome of a saga as a value, as a `try` that catches everything. -/
def attempt (x : Saga ε σ α) : Saga ε σ (Except ε α) := fun s => (.ok (x s).1, (x s).2)

/-- The state that the saga leaves, whether it returned or failed. -/
def exec (x : Saga ε σ α) (s : σ) : σ := (x s).2

section Steps
variable {x : Saga ε σ α} {f : α → Saga ε σ β} {t : Tx ε σ α} {s s' : σ} {a : α} {e : ε}

theorem bind_of_ok (h : x s = (.ok a, s')) : (x >>= f) s = f a s' := by
  change (match x s with
    | (.ok a, s') => f a s'
    | (.error e, s') => (.error e, s')) = _
  rw [h]

theorem bind_of_error (h : x s = (.error e, s')) : (x >>= f) s = (.error e, s') := by
  change (match x s with
    | (.ok a, s') => f a s'
    | (.error e, s') => (.error e, s')) = _
  rw [h]

theorem exec_bind_of_ok (h : x s = (.ok a, s')) : exec (x >>= f) s = exec (f a) s' := by
  unfold exec
  rw [bind_of_ok h]

theorem exec_bind_of_error (h : x s = (.error e, s')) : exec (x >>= f) s = s' := by
  unfold exec
  rw [bind_of_error h]

theorem atomically_of_ok (h : t s = .ok (a, s')) : atomically t s = (.ok a, s') := by
  simp only [atomically, h]

theorem atomically_of_error (h : t s = .error e) : atomically t s = (.error e, s) := by
  simp only [atomically, h]

theorem atomically_check_ok (a : α) (s : σ) :
    atomically (check (.ok a) : Tx ε σ α) s = (.ok a, s) := rfl

theorem atomically_check_error (e : ε) (s : σ) :
    atomically (check (.error e) : Tx ε σ α) s = (.error e, s) := rfl

/-- The first transaction of a saga commits and the saga goes on, or it fails and that is all. -/
theorem exec_bind_cases (t : Tx ε σ α) (f : α → Saga ε σ β) (s : σ) :
    (∃ a s', t s = .ok (a, s') ∧ exec (atomically t >>= f) s = exec (f a) s') ∨
      ((∃ e, t s = .error e) ∧ exec (atomically t >>= f) s = s) := by
  unfold exec
  cases h : t s with
  | ok r => exact Or.inl ⟨r.1, r.2, rfl, by rw [bind_of_ok (atomically_of_ok h)]⟩
  | error e => exact Or.inr ⟨⟨e, rfl⟩, by rw [bind_of_error (atomically_of_error h)]⟩

/-- A saga that returns has run both of its parts. -/
theorem bind_returns {b : β} (h : ((x >>= f) s).1 = .ok b) :
    ∃ a s', x s = (.ok a, s') ∧ (f a s').1 = .ok b ∧ exec (x >>= f) s = exec (f a) s' := by
  cases hx : x s with
  | mk r s' =>
    cases r with
    | ok a =>
      rw [bind_of_ok hx] at h
      exact ⟨a, s', rfl, h, exec_bind_of_ok hx⟩
    | error e =>
      rw [bind_of_error hx] at h
      cases h

theorem atomically_returns (h : atomically t s = (.ok a, s')) : t s = .ok (a, s') := by
  unfold atomically at h
  cases ht : t s with
  | ok r =>
    rw [ht] at h
    cases h
    rfl
  | error e =>
    rw [ht] at h
    cases h

theorem attempt_eq (x : Saga ε σ α) (s : σ) : attempt x s = (.ok (x s).1, exec x s) := rfl

theorem exec_atomically (t : Tx ε σ α) (s : σ) : exec (atomically t) s = commit t s := by
  unfold exec atomically commit
  cases t s with
  | ok r => rfl
  | error e => rfl

end Steps

section Within
variable {R : σ → σ → Prop} {x : Saga ε σ α} {f : α → Saga ε σ β}

/-- However the saga ends, it has made a step of `R`. -/
def Within (R : σ → σ → Prop) (x : Saga ε σ α) : Prop := ∀ s, R s (exec x s)

theorem Within.pure (hrefl : ∀ s, R s s) (a : α) : Within R (pure a : Saga ε σ α) :=
  fun s => hrefl s

theorem Within.bind (htrans : ∀ s t u, R s t → R t u → R s u) (hx : Within R x)
    (hf : ∀ a, Within R (f a)) : Within R (x >>= f) := by
  intro s
  have hfirst := hx s
  cases hxs : x s with
  | mk r s' =>
    rw [show exec x s = s' from congrArg Prod.snd hxs] at hfirst
    cases r with
    | ok a =>
      rw [exec_bind_of_ok hxs]
      exact htrans s s' _ hfirst (hf a s')
    | error e =>
      rw [exec_bind_of_error hxs]
      exact hfirst

theorem Within.atomically (hrefl : ∀ s, R s s) {t : Tx ε σ α} (ht : Transaction.Within R t) :
    Within R (atomically t) := by
  intro s
  rw [exec_atomically]
  exact ht.commit hrefl s

end Within

section Triples

structure Triple (P : σ → Prop) (x : Saga ε σ α) (Q : α → σ → Prop) (E : σ → Prop) : Prop where
  returns : ∀ s a s', P s → x s = (.ok a, s') → Q a s'
  fails : ∀ s e s', P s → x s = (.error e, s') → E s'

variable {P P' : σ → Prop} {x : Saga ε σ α} {f : α → Saga ε σ β} {Q : α → σ → Prop}
  {R : β → σ → Prop} {E : σ → Prop}

theorem Triple.bind (hx : Triple P x Q E) (hf : ∀ a, Triple (Q a) (f a) R E) :
    Triple P (x >>= f) R E := by
  constructor
  · intro s b s'' hP h
    cases hxs : x s with
    | mk r s' =>
      cases r with
      | ok a =>
        rw [bind_of_ok hxs] at h
        exact (hf a).returns s' b s'' (hx.returns s a s' hP hxs) h
      | error e => cases (bind_of_error hxs).symm.trans h
  · intro s e s'' hP h
    cases hxs : x s with
    | mk r s' =>
      cases r with
      | ok a =>
        rw [bind_of_ok hxs] at h
        exact (hf a).fails s' e s'' (hx.returns s a s' hP hxs) h
      | error e' =>
        cases (bind_of_error hxs).symm.trans h
        exact hx.fails s e s'' hP hxs

theorem Triple.pure {a : α} (h : ∀ s, P s → Q a s) : Triple P (pure a : Saga ε σ α) Q E := by
  constructor
  · rintro s b s' hP ⟨⟩
    exact h s hP
  · rintro s e s' _ ⟨⟩

theorem Triple.atomically {t : Tx ε σ α} (hok : ∀ s a s', P s → t s = .ok (a, s') → Q a s')
    (herr : ∀ s, P s → E s) : Triple P (atomically t) Q E := by
  constructor
  · intro s a s' hP h
    cases ht : t s with
    | ok r =>
      cases (atomically_of_ok ht).symm.trans h
      exact hok s _ _ hP ht
    | error e => cases (atomically_of_error ht).symm.trans h
  · intro s e s' hP h
    cases ht : t s with
    | ok r => cases (atomically_of_ok ht).symm.trans h
    | error e' =>
      cases (atomically_of_error ht).symm.trans h
      exact herr s hP

theorem Triple.check (x : Except ε α) : Triple P (Saga.atomically (check x)) (fun _ => P) P := by
  apply Triple.atomically _ (fun _ hP => hP)
  intro s a s' hP h
  obtain ⟨_, rfl⟩ := (check_ok_iff x s s' a).1 h
  exact hP

theorem Triple.of_imp (hx : Triple P x Q E) (h : ∀ s, P' s → P s) : Triple P' x Q E :=
  ⟨fun s a s' hP => hx.returns s a s' (h s hP), fun s e s' hP => hx.fails s e s' (h s hP)⟩

/-- What holds at both ends holds of the state that the saga leaves. -/
theorem Triple.exec (hx : Triple P x (fun _ => E) E) {s : σ} (hP : P s) : E (exec x s) := by
  unfold Saga.exec
  cases hxs : x s with
  | mk r s' =>
    cases r with
    | ok a => exact hx.returns s a s' hP hxs
    | error e => exact hx.fails s e s' hP hxs

end Triples

end Saga
end Transaction
