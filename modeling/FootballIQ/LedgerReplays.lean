import FootballIQ.LedgerInvariant
import FootballIQ.Replay

/-!
# Replays of postings

A client repeats a posting under its key as often as it likes, after a failure and
after a success, with the same lines or others. The ledger ends as if nothing had
been sent under a key after its first success, and every repetition is answered with
the entry of that success.
-/

namespace FootballIQ
namespace Ledger

open Transaction Relational

section Repetitions

/-- The call returns an id and throws nothing. -/
def Succeeds (input : PostJournalInput) (l : Ledger) : Prop := (post input l).toBool = true

instance (input : PostJournalInput) (l : Ledger) : Decidable (Succeeds input l) :=
  inferInstanceAs (Decidable (_ = true))

theorem succeeds_iff (input : PostJournalInput) (l : Ledger) :
    Succeeds input l ↔ ∃ r, post input l = .ok r := by
  unfold Succeeds
  cases post input l with
  | ok r => simp [Except.toBool]
  | error e => simp [Except.toBool]

/-- The calls that remain when each key loses what comes after its first success. -/
def firstUses (l : Ledger) (inputs : List PostJournalInput) : List PostJournalInput :=
  Replay.untilSuccess (fun input l => attempt l input) (·.idempotencyKey) Succeeds [] l inputs

theorem run_append (l : Ledger) (inputs inputs' : List PostJournalInput) :
    run l (inputs ++ inputs') = run (run l inputs) inputs' := List.foldl_append

end Repetitions

section Keys
variable {l : Ledger} {input : PostJournalInput} {j : JournalEntry} {key : String}

/-- The entry of a key is never replaced. -/
theorem entryByKey_attempt (h : l.entryByKey key = some j) (input : PostJournalInput) :
    (attempt l input).entryByKey key = some j := by
  rcases attempt_cases l input with hsame | ⟨_, _, hposted, _, _⟩
  · rwa [hsame]
  · rw [hposted, entryByKey_posted, h, Option.some_or]

theorem entryByKey_run (h : l.entryByKey key = some j) (inputs : List PostJournalInput) :
    (run l inputs).entryByKey key = some j := by
  induction inputs generalizing l with
  | nil => exact h
  | cons input inputs ih => exact ih (entryByKey_attempt h input)

/-- A call that succeeds leaves the entry it has returned under its key. -/
theorem entryByKey_of_post {id : ℕ} {l' : Ledger} (h : post input l = .ok (id, l')) :
    ∃ j, l'.entryByKey input.idempotencyKey = some j ∧ j.id = id := by
  obtain ⟨_, ⟨j, hj, rfl, rfl⟩ | ⟨hnone, rfl, rfl, _, _⟩⟩ := post_ok_cases h
  · exact ⟨j, hj, rfl⟩
  · refine ⟨entryOf input l.journal.fresh, ?_, rfl⟩
    rw [entryByKey_posted, hnone, if_pos rfl]
    rfl

theorem attempt_of_used (h : l.entryByKey input.idempotencyKey = some j) : attempt l input = l := by
  rcases attempt_cases l input with hsame | ⟨_, hnone, _, _, _⟩
  · exact hsame
  · cases h.symm.trans hnone

theorem absorbing : Replay.Absorbing (fun input l => attempt l input) (·.idempotencyKey) Succeeds
    (fun key l => ∃ j, l.entryByKey key = some j) where
  mark input l h := by
    obtain ⟨⟨id, l'⟩, hok⟩ := (succeeds_iff input l).1 h
    obtain ⟨j, hj, _⟩ := entryByKey_of_post hok
    have hafter : attempt l input = l' := commit_of_ok hok
    exact ⟨j, hafter ▸ hj⟩
  keep key input l h := by
    obtain ⟨j, hj⟩ := h
    exact ⟨j, entryByKey_attempt hj input⟩
  absorb input l h := by
    obtain ⟨j, hj⟩ := h
    exact attempt_of_used hj

end Keys

section Replays

/-- The repetitions of the calls leave no trace in the ledger, and a valid call under
a used key, used at first or by a call of the run, returns the entry of that use. -/
structure ReplaysInvisible (l : Ledger) (inputs : List PostJournalInput) : Prop where
  final : run l (firstUses l inputs) = run l inputs
  opening : ∀ before input after j, inputs = before ++ input :: after →
    l.entryByKey input.idempotencyKey = some j → validateLines input.lines = .ok () →
    post input (run l before) = .ok (j.id, run l before)
  repeated : ∀ before first between input after id l',
    inputs = before ++ first :: between ++ input :: after →
    post first (run l before) = .ok (id, l') → input.idempotencyKey = first.idempotencyKey →
    validateLines input.lines = .ok () →
    post input (run l (before ++ first :: between)) = .ok (id, run l (before ++ first :: between))

/-- Whatever the ledger at first and whatever the calls, their replays are invisible. -/
theorem replays_invisible (l : Ledger) (inputs : List PostJournalInput) :
    ReplaysInvisible l inputs where
  final := absorbing.run_untilSuccess (by simp) inputs
  opening := by
    intro before input after j _ hj hvalid
    exact post_replay hvalid (entryByKey_run hj before)
  repeated := by
    intro before first between input after id l' _ hfirst hkey hvalid
    obtain ⟨j, hj, rfl⟩ := entryByKey_of_post hfirst
    have hafter : attempt (run l before) first = l' := commit_of_ok hfirst
    have hused : (run l (before ++ first :: between)).entryByKey input.idempotencyKey = some j := by
      rw [run_append, hkey]
      change (run (attempt (run l before) first) between).entryByKey _ = _
      rw [hafter]
      exact entryByKey_run hj between
    exact post_replay hvalid hused

example : firstUses openingLedger samplePostings = samplePostings.take 3 := by decide

end Replays

end Ledger
end FootballIQ
