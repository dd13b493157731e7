import Mathlib.Data.List.Basic
import Mathlib.Tactic

/-!
# Interleaved calls over a shared state

A call in flight is a local state. One atomic step of a call sees an input from
outside (a clock, an answer), its local state and the shared state, and leaves a
new shared state and either a continuation or nothing. A run starts calls and
resumes pending ones in any order; a call that is never resumed again models a
crash or a call still in flight.
-/

namespace Interleaving

structure Protocol (σ κ τ ι : Type*) where
  init : κ → τ
  step : ι → τ → σ → σ × Option τ

structure Config (σ τ : Type*) where
  shared : σ
  pending : List τ

inductive Act (κ ι : Type*) where
  | start (k : κ)
  | resume (i : ℕ) (inp : ι)
  deriving DecidableEq

namespace Protocol
variable {σ κ τ ι : Type*} (P : Protocol σ κ τ ι)

def next (c : Config σ τ) : Act κ ι → Config σ τ
  | .start k => ⟨c.shared, c.pending ++ [P.init k]⟩
  | .resume i inp =>
    match c.pending[i]? with
    | none => c
    | some t =>
      ⟨(P.step inp t c.shared).1,
        c.pending.take i ++ (P.step inp t c.shared).2.toList ++ c.pending.drop (i + 1)⟩

def run (c : Config σ τ) (as : List (Act κ ι)) : Config σ τ := as.foldl P.next c

@[simp] theorem run_nil (c : Config σ τ) : P.run c [] = c := rfl

@[simp] theorem run_cons (c : Config σ τ) (a : Act κ ι) (as : List (Act κ ι)) :
    P.run c (a :: as) = P.run (P.next c a) as := rfl

theorem run_append (c : Config σ τ) (as bs : List (Act κ ι)) :
    P.run c (as ++ bs) = P.run (P.run c as) bs := List.foldl_append

theorem next_resume_none {c : Config σ τ} {i : ℕ} {inp : ι} (h : c.pending[i]? = none) :
    P.next c (.resume i inp) = c := by simp only [next, h]

/-- Resuming a pending call replaces it by its continuation, in place. -/
theorem next_resume_some {c : Config σ τ} {i : ℕ} {t : τ} (inp : ι)
    (h : c.pending[i]? = some t) :
    ∃ l r, c.pending = l ++ t :: r ∧ P.next c (.resume i inp) =
      ⟨(P.step inp t c.shared).1, l ++ (P.step inp t c.shared).2.toList ++ r⟩ := by
  obtain ⟨hi, ht⟩ := List.getElem?_eq_some_iff.1 h
  refine ⟨c.pending.take i, c.pending.drop (i + 1), ?_, ?_⟩
  · rw [← ht, ← List.drop_eq_getElem_cons hi, List.take_append_drop]
  · simp only [next, h]

theorem shared_next_resume {c : Config σ τ} {i : ℕ} {inp : ι} {t : τ}
    (h : c.pending[i]? = some t) :
    (P.next c (.resume i inp)).shared = (P.step inp t c.shared).1 := by
  simp only [next, h]

/-- `G` holds of every executed step: its input, its local state and the shared state before it. -/
def Along (G : ι → τ → σ → Prop) : Config σ τ → List (Act κ ι) → Prop
  | _, [] => True
  | c, .start k :: as => Along G (P.next c (.start k)) as
  | c, .resume i inp :: as =>
    (∀ t, c.pending[i]? = some t → G inp t c.shared) ∧ Along G (P.next c (.resume i inp)) as

instance decidableAlong (G : ι → τ → σ → Prop) [∀ inp t s, Decidable (G inp t s)] :
    ∀ (c : Config σ τ) (as : List (Act κ ι)), Decidable (P.Along G c as)
  | _, [] => .isTrue trivial
  | c, .start k :: as => decidableAlong G (P.next c (.start k)) as
  | c, .resume i inp :: as =>
    have := decidableAlong G (P.next c (.resume i inp)) as
    inferInstanceAs (Decidable ((∀ t ∈ c.pending[i]?, G inp t c.shared) ∧
      P.Along G (P.next c (.resume i inp)) as))

/-- `Q` holds of the shared state of every configuration of the run. -/
def Throughout (Q : σ → Prop) : Config σ τ → List (Act κ ι) → Prop
  | c, [] => Q c.shared
  | c, a :: as => Q c.shared ∧ Throughout Q (P.next c a) as

theorem Along.mono {G G' : ι → τ → σ → Prop} (h : ∀ inp t s, G inp t s → G' inp t s)
    {c : Config σ τ} {as : List (Act κ ι)} (hA : P.Along G c as) : P.Along G' c as := by
  induction as generalizing c with
  | nil => trivial
  | cons a as ih =>
    cases a with
    | start k => exact ih hA
    | resume i inp => exact ⟨fun t ht => h inp t c.shared (hA.1 t ht), ih hA.2⟩

/-- A condition on the inputs alone. -/
theorem along_of_inputs {G : ι → τ → σ → Prop} {as : List (Act κ ι)}
    (h : ∀ i inp, .resume i inp ∈ as → ∀ t s, G inp t s) (c : Config σ τ) : P.Along G c as := by
  induction as generalizing c with
  | nil => trivial
  | cons a as ih =>
    have hrest := ih (fun i inp hmem => h i inp (List.mem_cons_of_mem _ hmem))
    cases a with
    | start k => exact hrest (P.next c (.start k))
    | resume i inp =>
      exact ⟨fun t _ => h i inp List.mem_cons_self t c.shared, hrest (P.next c (.resume i inp))⟩

theorem along_of_forall {G : ι → τ → σ → Prop} (h : ∀ inp t s, G inp t s) (c : Config σ τ)
    (as : List (Act κ ι)) : P.Along G c as := P.along_of_inputs (fun _ inp _ => h inp) c

theorem along_append (G : ι → τ → σ → Prop) (c : Config σ τ) (as bs : List (Act κ ι)) :
    P.Along G c (as ++ bs) ↔ P.Along G c as ∧ P.Along G (P.run c as) bs := by
  induction as generalizing c with
  | nil => simp [Along]
  | cons a as ih =>
    cases a with
    | start k => exact ih (P.next c (.start k))
    | resume i inp =>
      rw [List.cons_append, run_cons]
      simp only [Along, ih, and_assoc]

theorem throughout_iff_prefixes (Q : σ → Prop) (c : Config σ τ) (as : List (Act κ ι)) :
    P.Throughout Q c as ↔ ∀ bs, bs <+: as → Q (P.run c bs).shared := by
  induction as generalizing c with
  | nil =>
    constructor
    · intro h bs hbs
      rw [List.prefix_nil.1 hbs]
      exact h
    · intro h
      exact h [] List.prefix_rfl
  | cons a as ih =>
    constructor
    · rintro ⟨hc, has⟩ bs hbs
      cases bs with
      | nil => exact hc
      | cons b bs =>
        obtain ⟨rfl, htail⟩ := List.cons_prefix_cons.1 hbs
        exact (ih (P.next c b)).1 has bs htail
    · intro h
      refine ⟨h [] List.nil_prefix, (ih _).2 ?_⟩
      intro bs hbs
      exact h (a :: bs) (List.cons_prefix_cons.2 ⟨rfl, hbs⟩)

/-- An invariant of whole configurations that every guarded step keeps holds at the end
of every run whose steps meet the guard. -/
theorem Along.invariant {G : ι → τ → σ → Prop} {I : Config σ τ → Prop}
    (hstart : ∀ c k, I c → I (P.next c (.start k)))
    (hresume : ∀ c i inp t, c.pending[i]? = some t → G inp t c.shared → I c →
      I (P.next c (.resume i inp)))
    {c : Config σ τ} {as : List (Act κ ι)} (hc : I c) (hA : P.Along G c as) : I (P.run c as) := by
  induction as generalizing c with
  | nil => exact hc
  | cons a as ih =>
    cases a with
    | start k => exact ih (hstart c k hc) hA
    | resume i inp =>
      refine ih ?_ hA.2
      cases hi : c.pending[i]? with
      | none => rwa [P.next_resume_none hi]
      | some t => exact hresume c i inp t hi (hA.1 t hi) hc

section Relations
variable {R : σ → σ → Prop}

theorem Along.run_rel (hrefl : ∀ s, R s s) (htrans : ∀ s t u, R s t → R t u → R s u)
    {c : Config σ τ} {as : List (Act κ ι)}
    (hA : P.Along (fun inp t s => R s (P.step inp t s).1) c as) :
    R c.shared (P.run c as).shared := by
  induction as generalizing c with
  | nil => exact hrefl c.shared
  | cons a as ih =>
    cases a with
    | start k => exact ih hA
    | resume i inp =>
      refine htrans _ _ _ ?_ (ih hA.2)
      cases hi : c.pending[i]? with
      | none =>
        rw [P.next_resume_none hi]
        exact hrefl c.shared
      | some t =>
        rw [P.shared_next_resume hi]
        exact hA.1 t hi

/-- A preorder relates any earlier state of a run to any later one exactly when
every executed step is a step of it. -/
theorem along_iff_earlier_later (hrefl : ∀ s, R s s)
    (htrans : ∀ s t u, R s t → R t u → R s u) (c : Config σ τ) (as : List (Act κ ι)) :
    P.Along (fun inp t s => R s (P.step inp t s).1) c as ↔
      ∀ bs cs ds, as = bs ++ cs ++ ds → R (P.run c bs).shared (P.run c (bs ++ cs)).shared := by
  constructor
  · rintro hA bs cs ds rfl
    rw [along_append, along_append] at hA
    rw [run_append]
    exact hA.1.2.run_rel P hrefl htrans
  · intro h
    induction as generalizing c with
    | nil => trivial
    | cons a as ih =>
      have hrest : ∀ bs cs ds, as = bs ++ cs ++ ds →
          R (P.run (P.next c a) bs).shared (P.run (P.next c a) (bs ++ cs)).shared := by
        rintro bs cs ds rfl
        exact h (a :: bs) cs ds (by simp)
      cases a with
      | start k => exact ih _ hrest
      | resume i inp =>
        refine ⟨?_, ih _ hrest⟩
        intro t ht
        have hone := h [] [.resume i inp] as rfl
        simpa [P.shared_next_resume ht] using hone

end Relations

/-- What makes a pair of a shared invariant and facts about each pending call
inductive: calls start with their facts, and a step that meets the guard keeps
the invariant, gives its continuation its facts and leaves every other call's. -/
structure Inductive (G : ι → τ → σ → Prop) (I : σ → Prop) (L : σ → τ → Prop) : Prop where
  init : ∀ s k, I s → L s (P.init k)
  shared : ∀ inp t s, I s → L s t → G inp t s → I (P.step inp t s).1
  cont : ∀ inp t s t', I s → L s t → G inp t s → (P.step inp t s).2 = some t' →
    L (P.step inp t s).1 t'
  stable : ∀ inp t s u, I s → L s t → G inp t s → L s u → L (P.step inp t s).1 u

/-- The shared invariant together with the facts of every pending call. -/
def Holds (I : σ → Prop) (L : σ → τ → Prop) (c : Config σ τ) : Prop :=
  I c.shared ∧ ∀ t ∈ c.pending, L c.shared t

section Rules
variable {P} {F G : ι → τ → σ → Prop} {I : σ → Prop} {L : σ → τ → Prop}

theorem Inductive.next_start (h : P.Inductive G I L) {c : Config σ τ} (hc : Holds I L c) (k : κ) :
    Holds I L (P.next c (.start k)) := by
  refine ⟨hc.1, ?_⟩
  intro t ht
  rcases List.mem_append.1 ht with ht | ht
  · exact hc.2 t ht
  · rw [List.mem_singleton.1 ht]
    exact h.init c.shared k hc.1

theorem Inductive.next_resume (h : P.Inductive G I L) {c : Config σ τ} (hc : Holds I L c) (i : ℕ)
    (inp : ι) (hG : ∀ t, c.pending[i]? = some t → G inp t c.shared) :
    Holds I L (P.next c (.resume i inp)) := by
  cases hi : c.pending[i]? with
  | none => rwa [P.next_resume_none hi]
  | some t =>
    obtain ⟨l, r, hp, hn⟩ := P.next_resume_some inp hi
    have ht : L c.shared t := hc.2 t (by simp [hp])
    have hGt := hG t hi
    have hold : ∀ u ∈ c.pending, L (P.step inp t c.shared).1 u := fun u hu =>
      h.stable inp t c.shared u hc.1 ht hGt (hc.2 u hu)
    rw [hn]
    refine ⟨h.shared inp t c.shared hc.1 ht hGt, ?_⟩
    intro u hu
    rw [List.append_assoc, List.mem_append, List.mem_append, Option.mem_toList] at hu
    rcases hu with hu | hu | hu
    · exact hold u (by simp [hp, hu])
    · exact h.cont inp t c.shared u hc.1 ht hGt hu
    · exact hold u (by simp [hp, hu])

theorem Inductive.run (h : P.Inductive G I L) {c : Config σ τ} (hc : Holds I L c)
    {as : List (Act κ ι)} (hA : P.Along G c as) : Holds I L (P.run c as) := by
  induction as generalizing c with
  | nil => exact hc
  | cons a as ih =>
    cases a with
    | start k => exact ih (h.next_start hc k) hA
    | resume i inp => exact ih (h.next_resume hc i inp hA.1) hA.2

/-- What follows from the invariant holds in every state of a guarded run. -/
theorem Inductive.throughout (h : P.Inductive G I L) {Q : σ → Prop} (hQ : ∀ s, I s → Q s)
    {c : Config σ τ} (hc : Holds I L c) {as : List (Act κ ι)} (hA : P.Along G c as) :
    P.Throughout Q c as := by
  induction as generalizing c with
  | nil => exact hQ c.shared hc.1
  | cons a as ih =>
    cases a with
    | start k => exact ⟨hQ c.shared hc.1, ih (h.next_start hc k) hA⟩
    | resume i inp => exact ⟨hQ c.shared hc.1, ih (h.next_resume hc i inp hA.1) hA.2⟩

/-- Step properties that agree wherever an unguarded invariant holds agree along every run. -/
theorem Inductive.along_congr (h : P.Inductive (fun _ _ _ => True) I L)
    {S S' : ι → τ → σ → Prop} (hS : ∀ inp t s, I s → L s t → (S inp t s ↔ S' inp t s))
    {c : Config σ τ} (hc : Holds I L c) (as : List (Act κ ι)) :
    P.Along S c as ↔ P.Along S' c as := by
  induction as generalizing c with
  | nil => exact Iff.rfl
  | cons a as ih =>
    cases a with
    | start k => exact ih (h.next_start hc k)
    | resume i inp =>
      have hrest := ih (h.next_resume hc i inp (fun _ _ => trivial))
      simp only [Along, hrest]
      refine and_congr_left (fun _ => forall₂_congr ?_)
      intro t ht
      exact hS inp t c.shared hc.1 (hc.2 t (List.mem_of_getElem? ht))

/-- A step property that agrees with the guard wherever the guarded invariant holds
agrees with it along every run. -/
theorem Inductive.along_iff (h : P.Inductive G I L) {S : ι → τ → σ → Prop}
    (hS : ∀ inp t s, I s → L s t → (S inp t s ↔ G inp t s)) {c : Config σ τ} (hc : Holds I L c)
    (as : List (Act κ ι)) : P.Along S c as ↔ P.Along G c as := by
  induction as generalizing c with
  | nil => exact Iff.rfl
  | cons a as ih =>
    cases a with
    | start k => exact ih (h.next_start hc k)
    | resume i inp =>
      have hone : (∀ t, c.pending[i]? = some t → S inp t c.shared) ↔
          ∀ t, c.pending[i]? = some t → G inp t c.shared :=
        forall₂_congr (fun t ht => hS inp t c.shared hc.1 (hc.2 t (List.mem_of_getElem? ht)))
      simp only [Along, hone]
      exact and_congr_right (fun hG => ih (h.next_resume hc i inp hG))

theorem Inductive.guarded (h : P.Inductive F I L) (hG : ∀ inp t s, G inp t s → F inp t s) :
    P.Inductive G I L where
  init := h.init
  shared inp t s hI hL hs := h.shared inp t s hI hL (hG inp t s hs)
  cont inp t s t' hI hL hs := h.cont inp t s t' hI hL (hG inp t s hs)
  stable inp t s u hI hL hs := h.stable inp t s u hI hL (hG inp t s hs)

/-- Along a run that meets `F`, a state property holds throughout exactly when every
step meets the condition under which one step keeps it. -/
theorem Inductive.throughout_iff_along (h : P.Inductive (fun inp t s => F inp t s ∧ G inp t s) I L)
    {Q : σ → Prop} (hQ : ∀ inp t s, F inp t s → I s → L s t → Q s →
      (Q (P.step inp t s).1 ↔ G inp t s))
    {c : Config σ τ} (hc : Holds I L c) (hq : Q c.shared) {as : List (Act κ ι)}
    (hF : P.Along F c as) : P.Throughout Q c as ↔ P.Along G c as := by
  have start : ∀ (c : Config σ τ) (bs : List (Act κ ι)), P.Throughout Q c bs → Q c.shared := by
    intro c bs hbs
    cases bs with
    | nil => exact hbs
    | cons b bs => exact hbs.1
  induction as generalizing c with
  | nil => simp only [Throughout, Along, hq]
  | cons a as ih =>
    cases a with
    | start k =>
      simp only [Throughout, Along, hq, true_and]
      exact ih (h.next_start hc k) hq hF
    | resume i inp =>
      simp only [Throughout, Along, hq, true_and]
      cases hi : c.pending[i]? with
      | none =>
        have hrest := hF.2
        rw [P.next_resume_none hi] at hrest ⊢
        simpa using ih hc hq hrest
      | some t =>
        have ht : L c.shared t := hc.2 t (List.mem_of_getElem? hi)
        have hFt : F inp t c.shared := hF.1 t hi
        have hstep := hQ inp t c.shared hFt hc.1 ht hq
        have hshared : (P.next c (.resume i inp)).shared = (P.step inp t c.shared).1 :=
          P.shared_next_resume hi
        have hboth : G inp t c.shared →
            ∀ u, c.pending[i]? = some u → F inp u c.shared ∧ G inp u c.shared := by
          intro hG u hu
          rw [Option.some.inj (hu.symm.trans hi)]
          exact ⟨hFt, hG⟩
        constructor
        · intro hT
          have hGt : G inp t c.shared := hstep.1 (hshared ▸ start _ as hT)
          refine ⟨?_, (ih (h.next_resume hc i inp (hboth hGt)) (start _ as hT) hF.2).1 hT⟩
          rintro u ⟨⟩
          exact hGt
        · rintro ⟨hall, hA⟩
          have hGt : G inp t c.shared := hall t rfl
          exact (ih (h.next_resume hc i inp (hboth hGt)) (hshared ▸ hstep.2 hGt) hF.2).2 hA

/-- A state property holds throughout a run exactly when every step meets the
condition under which one step keeps it. -/
theorem Inductive.throughout_iff (h : P.Inductive G I L) {Q : σ → Prop}
    (hQ : ∀ inp t s, I s → L s t → Q s → (Q (P.step inp t s).1 ↔ G inp t s))
    {c : Config σ τ} (hc : Holds I L c) (hq : Q c.shared) (as : List (Act κ ι)) :
    P.Throughout Q c as ↔ P.Along G c as :=
  (h.guarded (G := fun inp t s => True ∧ G inp t s) (fun _ _ _ hG => hG.2)).throughout_iff_along
    (fun inp t s _ => hQ inp t s) hc hq (P.along_of_forall (fun _ _ _ => trivial) c as)

/-- An invariant may be strengthened by what every guarded step keeps. -/
theorem Inductive.and_kept (h : P.Inductive G I L) {Q : σ → Prop}
    (hQ : ∀ inp t s, I s → L s t → G inp t s → Q s → Q (P.step inp t s).1) :
    P.Inductive G (fun s => I s ∧ Q s) L where
  init s k hI := h.init s k hI.1
  shared inp t s hI hL hG := ⟨h.shared inp t s hI.1 hL hG, hQ inp t s hI.1 hL hG hI.2⟩
  cont inp t s t' hI := h.cont inp t s t' hI.1
  stable inp t s u hI := h.stable inp t s u hI.1

/-- `goal` holds, or some pending call will bring it about. -/
def Promised (goal : σ → Prop) (will : σ → τ → Prop) (c : Config σ τ) : Prop :=
  goal c.shared ∨ ∃ t ∈ c.pending, will c.shared t

/-- What makes a promise survive every guarded step: the step of a call that will
reach the goal reaches it or leaves a call that will, a goal that is lost again is
promised by the step that loses it, and no step disturbs the promises of others. -/
structure Keeping (P : Protocol σ κ τ ι) (G : ι → τ → σ → Prop) (I : σ → Prop) (L : σ → τ → Prop)
    (goal : σ → Prop) (will : σ → τ → Prop) : Prop where
  lost : ∀ inp t s, I s → L s t → G inp t s → goal s → goal (P.step inp t s).1 ∨
    ∃ t', (P.step inp t s).2 = some t' ∧ will (P.step inp t s).1 t'
  own : ∀ inp t s, I s → L s t → G inp t s → will s t → goal (P.step inp t s).1 ∨
    ∃ t', (P.step inp t s).2 = some t' ∧ will (P.step inp t s).1 t'
  other : ∀ inp t s u, I s → L s t → G inp t s → will s u → will (P.step inp t s).1 u

section Promises
variable {goal : σ → Prop} {will : σ → τ → Prop}

theorem Promised.next_start {c : Config σ τ} (h : Promised goal will c) (k : κ) :
    Promised goal will (P.next c (.start k)) := by
  rcases h with h | ⟨t, ht, hw⟩
  · exact Or.inl h
  · exact Or.inr ⟨t, List.mem_append_left _ ht, hw⟩

theorem Keeping.next_resume (hk : P.Keeping G I L goal will) {c : Config σ τ} (hc : Holds I L c)
    (h : Promised goal will c) (i : ℕ) (inp : ι)
    (hG : ∀ t, c.pending[i]? = some t → G inp t c.shared) :
    Promised goal will (P.next c (.resume i inp)) := by
  cases hi : c.pending[i]? with
  | none => rwa [P.next_resume_none hi]
  | some t =>
    obtain ⟨l, r, hp, hn⟩ := P.next_resume_some inp hi
    have ht : L c.shared t := hc.2 t (by simp [hp])
    have hGt := hG t hi
    rw [hn]
    have hnew : goal (P.step inp t c.shared).1 ∨
        (∃ t', (P.step inp t c.shared).2 = some t' ∧ will (P.step inp t c.shared).1 t') →
        Promised goal will (⟨(P.step inp t c.shared).1,
          l ++ (P.step inp t c.shared).2.toList ++ r⟩ : Config σ τ) := by
      rintro (hg | ⟨t', ht', hw⟩)
      · exact Or.inl hg
      · exact Or.inr ⟨t', by simp [ht'], hw⟩
    rcases h with h | ⟨u, hu, hw⟩
    · exact hnew (hk.lost inp t c.shared hc.1 ht hGt h)
    · rw [hp, List.mem_append, List.mem_cons] at hu
      rcases hu with hu | rfl | hu
      · exact Or.inr ⟨u, by simp [hu], hk.other inp t c.shared u hc.1 ht hGt hw⟩
      · exact hnew (hk.own inp u c.shared hc.1 ht hGt hw)
      · exact Or.inr ⟨u, by simp [hu], hk.other inp t c.shared u hc.1 ht hGt hw⟩

/-- A promise once made is kept to the end of every run that meets the guard. -/
theorem Keeping.run (hk : P.Keeping G I L goal will) (h : P.Inductive G I L) {c : Config σ τ}
    (hc : Holds I L c) (hp : Promised goal will c) {as : List (Act κ ι)} (hA : P.Along G c as) :
    Promised goal will (P.run c as) := by
  induction as generalizing c with
  | nil => exact hp
  | cons a as ih =>
    cases a with
    | start k => exact ih (h.next_start hc k) (hp.next_start k) hA
    | resume i inp => exact ih (h.next_resume hc i inp hA.1) (hk.next_resume hc hp i inp hA.1) hA.2

/-- A call that was started with a promise keeps it to the end of the run. -/
theorem Keeping.run_start (hk : P.Keeping G I L goal will) (h : P.Inductive G I L)
    {c : Config σ τ} (hc : Holds I L c) {k : κ} {as : List (Act κ ι)}
    (hA : P.Along G c (.start k :: as)) (hw : will c.shared (P.init k)) :
    Promised goal will (P.run c (.start k :: as)) := by
  rw [run_cons]
  refine hk.run h (h.next_start hc k) (Or.inr ⟨P.init k, ?_, hw⟩) hA
  exact List.mem_append_right _ (List.mem_singleton.2 rfl)

/-- With nothing pending a promise is the goal. -/
theorem Promised.goal_of_pending {c : Config σ τ} (h : Promised goal will c)
    (hnil : c.pending = []) : goal c.shared := by
  rcases h with h | ⟨t, ht, _⟩
  · exact h
  · rw [hnil] at ht
    cases ht

end Promises

end Rules
end Protocol
end Interleaving
