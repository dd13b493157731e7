import Mathlib.Data.List.Basic
import Mathlib.Tactic

/-!
# Calls that run one after the other

Where calls do not interleave, a run is a list of events, each of which takes the
state to a new one. Conditions on events are followed along a run in the state
that the event meets, properties of states are asked of every state it reaches.
-/

namespace Sequential

variable {σ ε : Type*} (step : ε → σ → σ)

def run (s : σ) (es : List ε) : σ := es.foldl (fun s e => step e s) s

@[simp] theorem run_nil (s : σ) : run step s [] = s := rfl

@[simp] theorem run_cons (s : σ) (e : ε) (es : List ε) :
    run step s (e :: es) = run step (step e s) es := rfl

/-- `G` holds of every event and the state it meets. -/
def Along (G : ε → σ → Prop) : σ → List ε → Prop
  | _, [] => True
  | s, e :: es => G e s ∧ Along G (step e s) es

/-- `Q` holds of every state of the run. -/
def Throughout (Q : σ → Prop) : σ → List ε → Prop
  | s, [] => Q s
  | s, e :: es => Q s ∧ Throughout Q (step e s) es

theorem along_append (G : ε → σ → Prop) (s : σ) (es fs : List ε) :
    Along step G s (es ++ fs) ↔ Along step G s es ∧ Along step G (run step s es) fs := by
  induction es generalizing s with
  | nil => simp [Along]
  | cons e es ih =>
    rw [List.cons_append, run_cons]
    simp only [Along, ih, and_assoc]

instance decidableAlong (G : ε → σ → Prop) [∀ e s, Decidable (G e s)] :
    ∀ (s : σ) (es : List ε), Decidable (Along step G s es)
  | _, [] => .isTrue trivial
  | s, e :: es =>
    have := decidableAlong G (step e s) es
    inferInstanceAs (Decidable (G e s ∧ Along step G (step e s) es))

section Rules
variable {step} {F G : ε → σ → Prop} {I Q : σ → Prop} {s : σ} {es : List ε}

theorem Throughout.start (h : Throughout step Q s es) : Q s := by
  cases es with
  | nil => exact h
  | cons e es => exact h.1

theorem Throughout.mono {R : σ → Prop} (h : Throughout step Q s es) (hQ : ∀ s, Q s → R s) :
    Throughout step R s es := by
  induction es generalizing s with
  | nil => exact hQ s h
  | cons e es ih => exact ⟨hQ s h.1, ih h.2⟩

theorem along_of_forall (h : ∀ e s, G e s) (s : σ) (es : List ε) : Along step G s es := by
  induction es generalizing s with
  | nil => trivial
  | cons e es ih => exact ⟨h e s, ih (step e s)⟩

/-- An invariant that every guarded event keeps holds of every state of a guarded run. -/
theorem Along.throughout (hI : ∀ e s, G e s → I s → I (step e s)) (hs : I s)
    (hG : Along step G s es) : Throughout step I s es := by
  induction es generalizing s with
  | nil => exact hs
  | cons e es ih => exact ⟨hs, ih (hI e s hG.1 hs) hG.2⟩

/-- What a guarded event does where the invariant holds, it does all along the run. -/
theorem Along.imp (hI : ∀ e s, F e s → I s → I (step e s))
    (hG : ∀ e s, F e s → I s → G e s) (hs : I s) (hF : Along step F s es) :
    Along step G s es := by
  induction es generalizing s with
  | nil => trivial
  | cons e es ih => exact ⟨hG e s hF.1 hs, ih (hI e s hF.1 hs) hF.2⟩

/-- Under a guard that keeps an invariant while the property holds, the property holds
throughout exactly when every event meets the condition under which one event keeps it. -/
theorem Along.throughout_iff (hI : ∀ e s, F e s → I s → Q s → I (step e s))
    (hQ : ∀ e s, F e s → I s → Q s → (Q (step e s) ↔ G e s)) (hs : I s) (hq : Q s)
    (hF : Along step F s es) : Throughout step Q s es ↔ Along step G s es := by
  induction es generalizing s with
  | nil => simp only [Throughout, Along, hq]
  | cons e es ih =>
    have hstep := hQ e s hF.1 hs hq
    have hI' := hI e s hF.1 hs hq
    simp only [Throughout, Along, hq, true_and]
    constructor
    · intro hT
      exact ⟨hstep.1 hT.start, (ih hI' hT.start hF.2).1 hT⟩
    · rintro ⟨hG, hA⟩
      exact (ih hI' (hstep.2 hG) hF.2).2 hA

end Rules

end Sequential
