import FootballIQ.Sequential

/-!
# Calls under a key

Every call has a key, and a call that succeeds uses up its key: the calls of that
key that come later change nothing. A run is then the run of those calls alone that
come no later than the first success of their key.
-/

namespace Replay

variable {σ ι κ : Type*} [DecidableEq κ] (step : ι → σ → σ) (key : ι → κ)
  (succeeds : ι → σ → Prop) [∀ i s, Decidable (succeeds i s)]

/-- The calls of each key up to and including its first successful one, where the
keys in `used` have had theirs. -/
def untilSuccess (used : List κ) : σ → List ι → List ι
  | _, [] => []
  | s, i :: is =>
    if key i ∈ used then untilSuccess used (step i s) is
    else i :: untilSuccess (if succeeds i s then key i :: used else used) (step i s) is

/-- A used key stays used, and absorbs the calls under it. -/
structure Absorbing (Used : κ → σ → Prop) : Prop where
  mark : ∀ i s, succeeds i s → Used (key i) (step i s)
  keep : ∀ k i s, Used k s → Used k (step i s)
  absorb : ∀ i s, Used (key i) s → step i s = s

section Runs
variable {step key succeeds} {Used : κ → σ → Prop}

/-- The calls that come after the success of their key leave no trace. -/
theorem Absorbing.run_untilSuccess (h : Absorbing step key succeeds Used) {used : List κ} {s : σ}
    (hused : ∀ k ∈ used, Used k s) (is : List ι) :
    Sequential.run step s (untilSuccess step key succeeds used s is) =
      Sequential.run step s is := by
  induction is generalizing used s with
  | nil => rfl
  | cons i is ih =>
    have hstill : ∀ k ∈ used, Used k (step i s) := by
      intro k hk
      exact h.keep k i s (hused k hk)
    by_cases hkey : key i ∈ used
    · have hsame : step i s = s := h.absorb i s (hused _ hkey)
      simp only [untilSuccess, if_pos hkey, Sequential.run_cons]
      rw [← ih hstill, hsame]
    · simp only [untilSuccess, if_neg hkey, Sequential.run_cons]
      apply ih
      by_cases hok : succeeds i s
      · rw [if_pos hok]
        intro k hk
        rcases List.mem_cons.1 hk with rfl | hk
        · exact h.mark i s hok
        · exact hstill k hk
      · rw [if_neg hok]
        exact hstill

end Runs

end Replay
