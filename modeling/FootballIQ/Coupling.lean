import FootballIQ.Interleaving
import FootballIQ.Transaction
import Mathlib.Data.List.Forall2

/-!
# Two runs side by side

Two transactions are coupled when from related states they return related values
and leave related states, or fail with the same error. The rules follow the program
text of both at once. A coupling of the steps of a protocol relates two runs of it
that take the same actions.
-/

universe u

namespace Transaction

section Agreement
variable {ε σ τ α β γ δ ι κ : Type u}

/-- Two outcomes agree: related values and states, or the same failure. -/
def Agree (S : α → β → Prop) (R : σ → τ → Prop) : Except ε (α × σ) → Except ε (β × τ) → Prop
  | .ok p, .ok q => S p.1 q.1 ∧ R p.2 q.2
  | .error e, .error e' => e = e'
  | _, _ => False

def Coupled (R : σ → τ → Prop) (S : α → β → Prop) (x : Tx ε σ α) (y : Tx ε τ β) : Prop :=
  ∀ s t, R s t → Agree S R (x s) (y t)

variable {R : σ → τ → Prop} {S : α → β → Prop} {S' : γ → δ → Prop} {x : Tx ε σ α} {y : Tx ε τ β}
  {f : α → Tx ε σ γ} {g : β → Tx ε τ δ} {s : σ} {t : τ} {p q : Prop} [Decidable p] [Decidable q]

theorem Agree.mono {T : α → β → Prop} (h : Agree S R (x s) (y t)) (hS : ∀ a b, S a b → T a b) :
    Agree T R (x s) (y t) := by
  revert h
  cases x s with
  | ok r =>
    cases y t with
    | ok r' => exact fun h => ⟨hS _ _ h.1, h.2⟩
    | error e => exact id
  | error e =>
    cases y t with
    | ok r' => exact id
    | error e' => exact id

theorem Agree.bind (h : Agree S R (x s) (y t)) (hf : ∀ a b, S a b → Coupled R S' (f a) (g b)) :
    Agree S' R ((x >>= f) s) ((y >>= g) t) := by
  change Agree S' R ((x s).bind (fun p => f p.1 p.2)) ((y t).bind (fun p => g p.1 p.2))
  revert h
  cases x s with
  | ok r =>
    cases y t with
    | ok r' => exact fun h => hf r.1 r'.1 h.1 r.2 r'.2 h.2
    | error e => exact False.elim
  | error e =>
    cases y t with
    | ok r' => exact False.elim
    | error e' => exact id

theorem Coupled.bind (h : Coupled R S x y) (hf : ∀ a b, S a b → Coupled R S' (f a) (g b)) :
    Coupled R S' (x >>= f) (y >>= g) := fun s t hst => (h s t hst).bind hf

/-- After a read both sides go on from the states that they have read. -/
theorem Coupled.read {f : σ → Tx ε σ γ} {g : τ → Tx ε τ δ}
    (h : ∀ s t, R s t → Agree S' R (f s s) (g t t)) :
    Coupled R S' (get >>= f) (get >>= g) := h

theorem Coupled.pure {a : α} {b : β} (h : S a b) :
    Coupled R S (pure a : Tx ε σ α) (pure b : Tx ε τ β) := fun _ _ hst => ⟨h, hst⟩

theorem Coupled.throw (e : ε) : Coupled R S (throw e : Tx ε σ α) (throw e : Tx ε τ β) :=
  fun _ _ _ => rfl

theorem Coupled.check (c : Except ε α) :
    Coupled R Eq (check c : Tx ε σ α) (check c : Tx ε τ α) := by
  intro s t hst
  cases c with
  | ok a => exact ⟨rfl, hst⟩
  | error e => exact rfl

theorem Coupled.throwIf (e : ε) (h : p ↔ q) :
    Coupled R (fun _ _ => True) (throwIf p e : Tx ε σ PUnit) (throwIf q e : Tx ε τ PUnit) := by
  intro s t hst
  unfold Transaction.throwIf
  by_cases hp : p
  · rw [if_pos hp, if_pos (h.1 hp)]
    exact rfl
  · rw [if_neg hp, if_neg (fun hq => hp (h.2 hq))]
    exact ⟨trivial, hst⟩

theorem Coupled.orThrow {o : Option α} {o' : Option β} (e : ε) (h : Option.Rel S o o') :
    Coupled R S (orThrow o e : Tx ε σ α) (orThrow o' e : Tx ε τ β) := by
  intro s t hst
  cases h with
  | some hab => exact ⟨hab, hst⟩
  | none => exact rfl

theorem Coupled.orThrow_same (o : Option α) (e : ε) :
    Coupled R (fun a b => a = b ∧ o = some a) (Transaction.orThrow o e : Tx ε σ α)
      (Transaction.orThrow o e : Tx ε τ α) := by
  apply Coupled.orThrow
  cases o with
  | some a => exact .some ⟨rfl, rfl⟩
  | none => exact .none

/-- A lookup whose result both sides agree on. -/
theorem Coupled.lookup {o : σ → Option α} {o' : τ → Option α} (e : ε)
    (h : ∀ s t, R s t → o s = o' t) :
    Coupled R Eq (get >>= fun s => Transaction.orThrow (o s) e : Tx ε σ α)
      (get >>= fun t => Transaction.orThrow (o' t) e : Tx ε τ α) := by
  apply Coupled.read
  intro s t hst
  rw [h s t hst]
  exact (Coupled.orThrow_same (o' t) e s t hst).mono (fun _ _ hab => hab.1)

theorem Coupled.set {s' : σ} {t' : τ} (h : R s' t') :
    Coupled R (fun _ _ => True) (set s' : Tx ε σ PUnit) (set t' : Tx ε τ PUnit) :=
  fun _ _ _ => ⟨trivial, h⟩

theorem Coupled.modify {m : σ → σ} {n : τ → τ} (h : ∀ s t, R s t → R (m s) (n t)) :
    Coupled R (fun _ _ => True) (modify m : Tx ε σ PUnit) (modify n : Tx ε τ PUnit) :=
  fun s t hst => ⟨trivial, h s t hst⟩

theorem Coupled.ite {x' : Tx ε σ α} {y' : Tx ε τ β} (hpq : p ↔ q) (h : Coupled R S x y)
    (h' : Coupled R S x' y') : Coupled R S (if p then x else x') (if q then y else y') := by
  by_cases hp : p
  · rwa [if_pos hp, if_pos (hpq.1 hp)]
  · rwa [if_neg hp, if_neg (fun hq => hp (hpq.2 hq))]

theorem Coupled.rescue (m : ε → ε) (h : Coupled R S x y) :
    Coupled R S (rescue m x) (rescue m y) := by
  intro s t hst
  have hxy := h s t hst
  unfold Transaction.rescue
  revert hxy
  cases x s with
  | ok r =>
    cases y t with
    | ok r' => exact id
    | error e => exact id
  | error e =>
    cases y t with
    | ok r' => exact id
    | error e' => exact fun he => congrArg m he

theorem Coupled.forM {T : ι → κ → Prop} {is : List ι} {js : List κ} {b : ι → Tx ε σ PUnit}
    {c : κ → Tx ε τ PUnit} (h : List.Forall₂ T is js)
    (hb : ∀ i j, T i j → Coupled R (fun _ _ => True) (b i) (c j)) :
    Coupled R (fun _ _ => True) (forM is b : Tx ε σ PUnit) (forM js c : Tx ε τ PUnit) := by
  induction h with
  | nil => exact Coupled.pure trivial
  | cons hij _ ih =>
    rw [List.forM_cons, List.forM_cons]
    exact (hb _ _ hij).bind (fun _ _ _ => ih)

theorem Coupled.zoom {σ' τ' : Type u} {view : σ → σ'} {put : σ' → σ → σ} {view' : τ → τ'}
    {put' : τ' → τ → τ} {R' : σ' → τ' → Prop} {z : Tx ε σ' α} {w : Tx ε τ' β}
    (hview : ∀ s t, R s t → R' (view s) (view' t)) (h : Coupled R' S z w)
    (hput : ∀ s t u v, R s t → R' u v → R (put u s) (put' v t)) :
    Coupled R S (zoom view put z) (zoom view' put' w) := by
  intro s t hst
  have hzw := h (view s) (view' t) (hview s t hst)
  unfold Transaction.zoom
  revert hzw
  cases z (view s) with
  | ok r =>
    cases w (view' t) with
    | ok r' => exact fun hrel => ⟨hrel.1, hput s t r.2 r'.2 hst hrel.2⟩
    | error e => exact id
  | error e =>
    cases w (view' t) with
    | ok r' => exact id
    | error e' => exact id

/-- A transaction is coupled with itself over equal states. -/
theorem Coupled.self (x : Tx ε σ α) : Coupled Eq Eq x x := by
  rintro s _ rfl
  cases x s with
  | ok r => exact ⟨rfl, rfl⟩
  | error e => exact rfl

end Agreement

end Transaction

namespace Interleaving

variable {σ κ τ ι : Type*}

/-- Two configurations whose states and pending calls are related. -/
structure Config.Rel (R : σ → σ → Prop) (T : τ → τ → Prop) (c c' : Config σ τ) : Prop where
  shared : R c.shared c'.shared
  pending : List.Forall₂ T c.pending c'.pending

theorem forall₂_toList {τ' : Type*} {T : τ → τ' → Prop} {o : Option τ} {o' : Option τ'}
    (h : Option.Rel T o o') :
    List.Forall₂ T o.toList o'.toList := by
  cases h with
  | some ht => exact .cons ht .nil
  | none => exact .nil

namespace Protocol
variable (P : Protocol σ κ τ ι) {R : σ → σ → Prop} {T : τ → τ → Prop}

/-- If steps of related calls in related states are related, so are configurations after the
same action. -/
theorem rel_next (hstep : ∀ inp t t' s s', T t t' → R s s' →
      R (P.step inp t s).1 (P.step inp t' s').1 ∧
        Option.Rel T (P.step inp t s).2 (P.step inp t' s').2)
    {c c' : Config σ τ} (h : c.Rel R T c') (a : Act κ ι)
    (hinit : ∀ k, a = .start k → T (P.init k) (P.init k)) :
    (P.next c a).Rel R T (P.next c' a) := by
  cases a with
  | start k =>
    refine ⟨h.shared, ?_⟩
    exact List.rel_append h.pending (.cons (hinit k rfl) .nil)
  | resume i inp =>
    have hlen := h.pending.length_eq
    by_cases hi : i < c.pending.length
    · have hi' : i < c'.pending.length := hlen ▸ hi
      have htask : T c.pending[i] c'.pending[i] := h.pending.get hi hi'
      obtain ⟨hshared, hnext⟩ := hstep inp _ _ _ _ htask h.shared
      simp only [next, List.getElem?_eq_getElem hi, List.getElem?_eq_getElem hi']
      refine ⟨hshared, ?_⟩
      exact List.rel_append
        (List.rel_append (List.forall₂_take i h.pending) (forall₂_toList hnext))
        (List.forall₂_drop (i + 1) h.pending)
    · have hnone : c.pending[i]? = none := List.getElem?_eq_none (by omega)
      have hnone' : c'.pending[i]? = none := List.getElem?_eq_none (by omega)
      rwa [P.next_resume_none hnone, P.next_resume_none hnone']

end Protocol
end Interleaving
