import FootballIQ.Coupling

/-!
# Protocols in lockstep

Two protocols that take the same actions, each pending call of the one matched with a
pending call of the other. A small protocol can so keep count of what a larger one
does, and a condition on the steps of the one stands for a condition on the other's.
-/

namespace Interleaving
namespace Protocol

variable {σ τ σ' τ' κ ι : Type*}

/-- Matched calls in related states take steps to related states, with their
continuations matched and every other match kept. -/
structure Lockstep (P : Protocol σ κ τ ι) (Q : Protocol σ' κ τ' ι) (R : σ → σ' → Prop)
    (T : σ → σ' → τ → τ' → Prop) : Prop where
  init : ∀ s s' k, R s s' → T s s' (P.init k) (Q.init k)
  shared : ∀ inp t t' s s', R s s' → T s s' t t' → R (P.step inp t s).1 (Q.step inp t' s').1
  cont : ∀ inp t t' s s', R s s' → T s s' t t' →
    Option.Rel (T (P.step inp t s).1 (Q.step inp t' s').1) (P.step inp t s).2 (Q.step inp t' s').2
  stable : ∀ inp t t' s s' u u', R s s' → T s s' t t' → T s s' u u' →
    T (P.step inp t s).1 (Q.step inp t' s').1 u u'

structure Matched (R : σ → σ' → Prop) (T : σ → σ' → τ → τ' → Prop) (c : Config σ τ)
    (d : Config σ' τ') : Prop where
  shared : R c.shared d.shared
  pending : List.Forall₂ (T c.shared d.shared) c.pending d.pending

section Rules
variable {P : Protocol σ κ τ ι} {Q : Protocol σ' κ τ' ι} {R : σ → σ' → Prop}
  {T : σ → σ' → τ → τ' → Prop} {c : Config σ τ} {d : Config σ' τ'}

theorem Lockstep.next_start (h : Lockstep P Q R T) (hm : Matched R T c d) (k : κ) :
    Matched R T (P.next c (.start k)) (Q.next d (.start k)) :=
  ⟨hm.shared, List.rel_append hm.pending (.cons (h.init _ _ k hm.shared) .nil)⟩

theorem Matched.getElem?_some (hm : Matched R T c d) {i : ℕ} {t : τ}
    (ht : c.pending[i]? = some t) : ∃ t', d.pending[i]? = some t' ∧ T c.shared d.shared t t' := by
  obtain ⟨hi, rfl⟩ := List.getElem?_eq_some_iff.1 ht
  have hi' : i < d.pending.length := hm.pending.length_eq ▸ hi
  exact ⟨d.pending[i], List.getElem?_eq_getElem hi', hm.pending.get hi hi'⟩

theorem Matched.getElem?_none (hm : Matched R T c d) {i : ℕ} (ht : c.pending[i]? = none) :
    d.pending[i]? = none := by
  rw [List.getElem?_eq_none_iff] at ht ⊢
  rwa [← hm.pending.length_eq]

theorem Lockstep.next_resume (h : Lockstep P Q R T) (hm : Matched R T c d) (i : ℕ) (inp : ι) :
    Matched R T (P.next c (.resume i inp)) (Q.next d (.resume i inp)) := by
  cases ht : c.pending[i]? with
  | none => rwa [P.next_resume_none ht, Q.next_resume_none (hm.getElem?_none ht)]
  | some t =>
    obtain ⟨t', ht', hmatch⟩ := hm.getElem?_some ht
    simp only [next, ht, ht']
    have hold : List.Forall₂ (T (P.step inp t c.shared).1 (Q.step inp t' d.shared).1)
        c.pending d.pending :=
      hm.pending.imp (fun _ _ hu => h.stable inp t t' _ _ _ _ hm.shared hmatch hu)
    refine ⟨h.shared inp t t' _ _ hm.shared hmatch, ?_⟩
    exact List.rel_append (List.rel_append (List.forall₂_take i hold)
      (forall₂_toList (h.cont inp t t' _ _ hm.shared hmatch)))
      (List.forall₂_drop (i + 1) hold)

/-- What the steps of the one protocol meet, the matched steps of the other meet too. -/
theorem Lockstep.along_of (h : Lockstep P Q R T) {F : ι → τ → σ → Prop} {G : ι → τ' → σ' → Prop}
    (hFG : ∀ inp t t' s s', R s s' → T s s' t t' → G inp t' s' → F inp t s)
    (hm : Matched R T c d) {as : List (Act κ ι)} (hG : Q.Along G d as) : P.Along F c as := by
  induction as generalizing c d with
  | nil => trivial
  | cons a as ih =>
    cases a with
    | start k => exact ih (h.next_start hm k) hG
    | resume i inp =>
      refine ⟨fun t ht => ?_, ih (h.next_resume hm i inp) hG.2⟩
      obtain ⟨t', ht', hmatch⟩ := hm.getElem?_some ht
      exact hFG inp t t' _ _ hm.shared hmatch (hG.1 t' ht')

/-- Conditions on matched steps that agree wherever an invariant holds, which the steps that
meet them keep, agree along every run. -/
theorem Lockstep.along_iff (h : Lockstep P Q R T) {H F : ι → τ → σ → Prop}
    {G : ι → τ' → σ' → Prop} {I : σ → Prop}
    (hI : ∀ inp t s, H inp t s → F inp t s → I s → I (P.step inp t s).1)
    (hFG : ∀ inp t t' s s', H inp t s → I s → R s s' → T s s' t t' →
      (F inp t s ↔ G inp t' s'))
    (hm : Matched R T c d) (hc : I c.shared) {as : List (Act κ ι)} (hH : P.Along H c as) :
    P.Along F c as ↔ Q.Along G d as := by
  induction as generalizing c d with
  | nil => exact Iff.rfl
  | cons a as ih =>
    cases a with
    | start k => exact ih (h.next_start hm k) hc hH
    | resume i inp =>
      have hnext := h.next_resume hm i inp
      cases ht : c.pending[i]? with
      | none =>
        have ht' := hm.getElem?_none ht
        have hrest := hH.2
        simp only [Along, ht, ht', reduceCtorEq, false_implies, implies_true, true_and]
        rw [P.next_resume_none ht] at hnext hrest ⊢
        exact ih hnext hc hrest
      | some t =>
        obtain ⟨t', ht', hmatch⟩ := hm.getElem?_some ht
        have hone := hFG inp t t' _ _ (hH.1 t ht) hc hm.shared hmatch
        simp only [Along, ht, ht', Option.some.injEq, forall_eq', hone]
        refine and_congr_right (fun hG => ih hnext ?_ hH.2)
        rw [P.shared_next_resume ht]
        exact hI inp t c.shared (hH.1 t ht) (hone.2 hG) hc

end Rules

end Protocol
end Interleaving
