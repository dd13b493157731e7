import FootballIQ.Interleaving
import Mathlib.Data.Multiset.AddSub

/-!
# One protocol inside another

A larger protocol embeds a smaller one when each of its steps leaves the smaller
system alone or is a step of it by a call that the larger one has in flight. The larger
system may give up an embedded call at any time, and may start one. Every run of the
larger system then is a run of the smaller one, so whatever holds along the runs of the
smaller system holds in the larger one.
-/

namespace Interleaving
namespace Protocol

variable {σ κ τ ι σ' κ' τ' ι' : Type*}

/-- What a step of the larger protocol, from `s` to `s'` with the call `o` in place of the
embedded one and `next` after it, is for the embedded protocol. -/
inductive Mimics (Q : Protocol σ' κ' τ' ι') (G : ι' → τ' → σ' → Prop) (s s' : σ')
    (o next : Option τ') : Prop where
  | drop (hs : s' = s) (hnext : next = none)
  | keep (hs : s' = s) (hnext : next = o)
  | start (k : κ') (hs : s' = s) (hnext : next = some (Q.init k))
  | step (inp : ι') (t : τ') (ho : o = some t) (hG : G inp t s) (hs : s' = (Q.step inp t s).1)
    (hnext : next = none ∨ next = (Q.step inp t s).2)

/-- The embedded calls in flight are among those of a configuration of the smaller protocol. -/
structure Covers (view : σ → σ') (proj : τ → Option τ') (c : Config σ τ) (d : Config σ' τ') :
    Prop where
  shared : d.shared = view c.shared
  pending : ((c.pending.filterMap proj : List τ') : Multiset τ') ≤ (d.pending : Multiset τ')

section Steps
variable {P : Protocol σ κ τ ι} {Q : Protocol σ' κ' τ' ι'} {G : ι' → τ' → σ' → Prop}
  {view : σ → σ'} {proj : τ → Option τ'}

theorem coe_append_toList (l r : List τ') (o : Option τ') :
    ((l ++ o.toList ++ r : List τ') : Multiset τ') = (o.toList : Multiset τ') + ↑(l ++ r) := by
  rw [← Multiset.coe_add, ← Multiset.coe_add, ← Multiset.coe_add]
  abel

theorem filterMap_split (proj : τ → Option τ') (l r : List τ) (o : Option τ) :
    (((l ++ o.toList ++ r).filterMap proj : List τ') : Multiset τ') =
      ((o.bind proj).toList : Multiset τ') + ↑((l ++ r).filterMap proj) := by
  have ho : o.toList.filterMap proj = (o.bind proj).toList := by
    cases o with
    | none => rfl
    | some t =>
      cases h : proj t with
      | none => simp [h]
      | some u => simp [h]
  rw [List.filterMap_append, List.filterMap_append, ho, List.filterMap_append]
  exact coe_append_toList _ _ _

/-- A step of the larger protocol is matched by none or one action of the smaller one. -/
theorem Mimics.next {c : Config σ τ} {d : Config σ' τ'} {l r : List τ} {t : τ} {s' : σ}
    {next : Option τ} (hc : c.pending = l ++ t :: r) (hcovers : Covers view proj c d)
    (h : Mimics Q G (view c.shared) (view s') (proj t) (next.bind proj)) :
    ∃ bs, Q.Along G d bs ∧ Covers view proj ⟨s', l ++ next.toList ++ r⟩ (Q.run d bs) := by
  have hpending := hcovers.pending
  have hsplit := filterMap_split proj l r (some t)
  rw [Option.bind_some] at hsplit
  rw [hc, show l ++ t :: r = l ++ (some t).toList ++ r by simp, hsplit] at hpending
  cases h with
  | drop hs hnext =>
    refine ⟨[], trivial, hcovers.shared.trans hs.symm, ?_⟩
    rw [filterMap_split, hnext]
    exact le_trans (Multiset.le_add_left _ _) hpending
  | keep hs hnext =>
    refine ⟨[], trivial, hcovers.shared.trans hs.symm, ?_⟩
    rwa [filterMap_split, hnext]
  | start k hs hnext =>
    refine ⟨[.start k], trivial, hcovers.shared.trans hs.symm, ?_⟩
    rw [filterMap_split, hnext]
    change _ ≤ ((d.pending ++ [Q.init k] : List τ') : Multiset τ')
    rw [← Multiset.coe_add, add_comm]
    exact add_le_add (le_trans (Multiset.le_add_left _ _) hpending) le_rfl
  | step inp u ho hG hs hnext =>
    rw [ho] at hpending
    have hu : u ∈ d.pending := Multiset.mem_coe.1
      (Multiset.mem_of_le hpending (Multiset.mem_add.2 (Or.inl (by simp))))
    obtain ⟨i, hi⟩ := List.mem_iff_getElem?.1 hu
    obtain ⟨l', r', hd, hrun⟩ := Q.next_resume_some inp hi
    refine ⟨[.resume i inp], ⟨?_, trivial⟩, ?_⟩
    · intro u' hu'
      rw [Option.some.inj (hu'.symm.trans hi), hcovers.shared]
      exact hG
    rw [run_cons, run_nil, hrun]
    refine ⟨?_, ?_⟩
    · rw [hcovers.shared]
      exact hs.symm
    have hrest : (((l ++ r).filterMap proj : List τ') : Multiset τ') ≤ ↑(l' ++ r') := by
      have hd' : (d.pending : Multiset τ') = ((some u).toList : Multiset τ') + ↑(l' ++ r') := by
        rw [hd, show l' ++ u :: r' = l' ++ (some u).toList ++ r' by simp, coe_append_toList]
      rw [hd'] at hpending
      exact le_of_add_le_add_left hpending
    rw [filterMap_split, coe_append_toList, hcovers.shared]
    refine add_le_add ?_ hrest
    rcases hnext with hnext | hnext
    · rw [hnext]
      exact Multiset.zero_le _
    · rw [hnext]

end Steps

/-- Where every step from a state of an inductive invariant is embedded, every run is. -/
theorem Inductive.embeds {P : Protocol σ κ τ ι} {F : ι → τ → σ → Prop} {I : σ → Prop}
    {L : σ → τ → Prop} (h : P.Inductive F I L) {Q : Protocol σ' κ' τ' ι'}
    {G : ι' → τ' → σ' → Prop} {view : σ → σ'} {proj : τ → Option τ'}
    (hinit : ∀ k, proj (P.init k) = none ∨ ∃ k', proj (P.init k) = some (Q.init k'))
    (hstep : ∀ inp t s, I s → L s t → F inp t s → Mimics Q G (view s) (view (P.step inp t s).1)
      (proj t) ((P.step inp t s).2.bind proj))
    {c : Config σ τ} (hc : Holds I L c) {d : Config σ' τ'} (hcovers : Covers view proj c d)
    {as : List (Act κ ι)} (hA : P.Along F c as) :
    ∃ bs, Q.Along G d bs ∧ Covers view proj (P.run c as) (Q.run d bs) := by
  induction as generalizing c d with
  | nil => exact ⟨[], trivial, hcovers⟩
  | cons a as ih =>
    have hone : ∃ bs, Q.Along G d bs ∧ Covers view proj (P.next c a) (Q.run d bs) := by
      cases a with
      | start k =>
        rcases hinit k with hnone | ⟨k', hk⟩
        · refine ⟨[], trivial, hcovers.shared, ?_⟩
          change ((List.filterMap proj (c.pending ++ [P.init k]) : List τ') : Multiset τ') ≤ _
          rw [List.filterMap_append, List.filterMap_cons_none hnone, List.filterMap_nil,
            List.append_nil]
          exact hcovers.pending
        · refine ⟨[.start k'], trivial, hcovers.shared, ?_⟩
          change ((List.filterMap proj (c.pending ++ [P.init k]) : List τ') : Multiset τ') ≤
            ((d.pending ++ [Q.init k'] : List τ') : Multiset τ')
          rw [List.filterMap_append, List.filterMap_cons_some hk, List.filterMap_nil,
            ← Multiset.coe_add, ← Multiset.coe_add]
          exact add_le_add hcovers.pending le_rfl
      | resume i inp =>
        cases hi : c.pending[i]? with
        | none =>
          rw [P.next_resume_none hi]
          exact ⟨[], trivial, hcovers⟩
        | some t =>
          obtain ⟨l, r, hp, hn⟩ := P.next_resume_some inp hi
          rw [hn]
          have ht : L c.shared t := hc.2 t (by simp [hp])
          exact Mimics.next hp hcovers (hstep inp t c.shared hc.1 ht (hA.1 t hi))
    obtain ⟨bs, hbs, hnext⟩ := hone
    have hrest : Holds I L (P.next c a) ∧ P.Along F (P.next c a) as := by
      cases a with
      | start k => exact ⟨h.next_start hc k, hA⟩
      | resume i inp => exact ⟨h.next_resume hc i inp hA.1, hA.2⟩
    obtain ⟨cs, hcs, hrun⟩ := ih hrest.1 hnext hrest.2
    refine ⟨bs ++ cs, (Q.along_append G d bs cs).2 ⟨hbs, hcs⟩, ?_⟩
    rwa [run_cons, run_append]

end Protocol
end Interleaving
