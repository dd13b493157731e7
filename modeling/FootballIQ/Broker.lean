import Mathlib.Data.List.Basic
import Mathlib.Tactic

/-!
# Job queues that deduplicate by id

A producer adds jobs under ids of its own; an id that is still stored is not added
again. A worker takes a waiting job under a lock and ends it with success, or with a
failure that sends it back until its attempts are used up. Whoever has lost the lock
can no longer end the job. Of the completed jobs only the latest stay stored, so an id
can be accepted again once enough other jobs have completed.

What such a queue promises is stated as laws, and everything here follows from them.
-/

namespace Jobs

structure Options where
  attempts : ℕ
  removeOnComplete : ℕ
  maxStalledCount : ℕ

inductive State where
  | waiting
  | active (token : ℕ)
  | completed
  | failed
  deriving DecidableEq

structure Job (κ π : Type*) where
  id : κ
  data : π
  attemptsMade : ℕ
  stalledCounter : ℕ
  state : State
  deriving DecidableEq

namespace Job
variable {κ π : Type*} (opts : Options) (j : Job κ π)

def waits (id : κ) (data : π) : Job κ π := ⟨id, data, 0, 0, .waiting⟩

def lockedBy (token : ℕ) : Job κ π := { j with state := .active token }

def finished : Job κ π := { j with state := .completed }

def failedOnce : Job κ π :=
  { j with
    attemptsMade := j.attemptsMade + 1
    state := if j.attemptsMade + 1 < opts.attempts then .waiting else .failed }

def stalledOnce : Job κ π :=
  { j with
    stalledCounter := j.stalledCounter + 1
    state := if opts.maxStalledCount < j.stalledCounter + 1 then .failed else .waiting }

/-- A job that may still run has attempts left, and one that failed has none or has
stalled too often. -/
def Within : Prop :=
  match j.state with
  | .waiting | .active _ =>
    j.attemptsMade < opts.attempts ∧ j.stalledCounter ≤ opts.maxStalledCount
  | .completed => True
  | .failed => j.attemptsMade = opts.attempts ∨ opts.maxStalledCount < j.stalledCounter

variable {opts j}

theorem Within.lockedBy (h : j.Within opts) (hw : j.state = .waiting) (token : ℕ) :
    (j.lockedBy token).Within opts := by
  simp only [Within, hw] at h
  exact h

theorem Within.failedOnce {token : ℕ} (h : j.Within opts) (ha : j.state = .active token) :
    (j.failedOnce opts).Within opts := by
  simp only [Within, ha] at h
  by_cases hleft : j.attemptsMade + 1 < opts.attempts
  · simp only [Within, Job.failedOnce, if_pos hleft]
    exact ⟨hleft, h.2⟩
  · simp only [Within, Job.failedOnce, if_neg hleft]
    omega

theorem Within.stalledOnce {token : ℕ} (h : j.Within opts) (ha : j.state = .active token) :
    (j.stalledOnce opts).Within opts := by
  simp only [Within, ha] at h
  by_cases hleft : opts.maxStalledCount < j.stalledCounter + 1
  · simp only [Within, Job.stalledOnce, if_pos hleft]
    omega
  · simp only [Within, Job.stalledOnce, if_neg hleft]
    omega

end Job

/-- What can happen to a queue. -/
inductive Op (κ π : Type*) where
  | add (id : κ) (data : π)
  | take (id : κ)
  | complete (id : κ) (token : ℕ)
  | fail (id : κ) (token : ℕ)
  | stall (id : κ)

/-- A queue by its operations: the stored jobs, the stream of completion events, and what a
worker is handed when it takes a job, a lock token and the job's data. -/
structure Broker (κ π : Type) where
  Store : Type
  empty : Store
  jobs : Store → List (Job κ π)
  completions : Store → List κ
  take : κ → Store → Option (ℕ × π)
  perform : Op κ π → Store → Store

/-- The last `keep` completions. -/
def latest {κ : Type*} (keep : ℕ) (ids : List κ) : List κ := ids.drop (ids.length - keep)

section Spacing
variable {κ : Type*}

/-- Two completions of one id are at least `keep` other completions apart. -/
def Spaced (keep : ℕ) (ids : List κ) : Prop :=
  ∀ xs ys zs id, ids = xs ++ id :: (ys ++ id :: zs) → keep ≤ ys.length

theorem Spaced.concat {keep : ℕ} {ids : List κ} (h : Spaced keep ids) {id : κ}
    (hid : id ∉ latest keep ids) : Spaced keep (ids ++ [id]) := by
  intro xs ys zs k heq
  rcases List.eq_nil_or_concat zs with rfl | ⟨zs', z, rfl⟩
  · -- the second of the two is the new one
    have hsplit : ids ++ [id] = (xs ++ k :: ys) ++ [k] := by rw [heq]; simp
    obtain ⟨hids, hk⟩ := List.append_inj' hsplit rfl
    rw [List.singleton_inj] at hk
    subst hk
    by_contra hlt
    apply hid
    rw [hids, latest, List.drop_append_of_le_length]
    · exact List.mem_append_right _ List.mem_cons_self
    · simp only [List.length_append, List.length_cons]
      omega
  · have hsplit : ids ++ [id] = (xs ++ k :: (ys ++ k :: zs')) ++ [z] := by rw [heq]; simp
    exact h xs ys zs' k (List.append_inj' hsplit rfl).1

theorem mem_latest_concat {keep : ℕ} {ids : List κ} {id k : κ}
    (h : k ∈ latest keep (ids ++ [id])) :
    k = id ∨ k ∈ latest keep ids := by
  rw [latest, List.length_append, List.length_singleton, List.drop_append, List.mem_append] at h
  rcases h with h | h
  · exact Or.inr (List.drop_subset_drop_left ids (by omega) h)
  · exact Or.inl (List.mem_singleton.1 (List.mem_of_mem_drop h))

end Spacing

namespace Broker
variable {κ π : Type} (B : Broker κ π)

/-- The job is locked under this token. -/
def Held (id : κ) (token : ℕ) (q : B.Store) : Prop :=
  ∃ j ∈ B.jobs q, j.id = id ∧ j.state = .active token

/-- What the queue promises of every store, for jobs that are added with these options. -/
structure Documented (opts : Options) : Prop where
  jobs_empty : B.jobs B.empty = []
  completions_empty : B.completions B.empty = []
  /-- Ids are unique. -/
  unique : ∀ q, ((B.jobs q).map Job.id).Nodup
  /-- After an addition a job is stored under the id, the new one or one from before. -/
  adds : ∀ q id data, ∃ j ∈ B.jobs (B.perform (.add id data) q), j.id = id
  /-- Jobs come in by additions only, and keep their data. -/
  faithful : ∀ op q, ∀ j' ∈ B.jobs (B.perform op q),
    op = .add j'.id j'.data ∨ ∃ j ∈ B.jobs q, j.id = j'.id ∧ j.data = j'.data
  /-- The store is durable: no job goes before it has completed. -/
  durable : ∀ op q, ∀ j ∈ B.jobs q,
    (∃ j' ∈ B.jobs (B.perform op q), j'.id = j.id) ∨ j.id ∈ B.completions (B.perform op q)
  /-- A job completes by the report of the worker that holds its lock. -/
  completes : ∀ op q, B.completions (B.perform op q) = B.completions q ∨
    ∃ id token, op = .complete id token ∧ B.Held id token q ∧
      B.completions (B.perform op q) = B.completions q ++ [id]
  /-- The latest completed jobs stay stored. -/
  retained : ∀ q, ∀ id ∈ latest opts.removeOnComplete (B.completions q),
    ∃ j ∈ B.jobs q, j.id = id ∧ j.state = .completed
  recorded : ∀ q, ∀ j ∈ B.jobs q, j.state = .completed → j.id ∈ B.completions q
  /-- Attempts and stalls are counted, and end a job when they are used up. -/
  attempts : ∀ q, ∀ j ∈ B.jobs q, j.Within opts
  /-- A worker is handed a stored job. -/
  hands : ∀ q id token data, B.take id q = some (token, data) →
    ∃ j ∈ B.jobs q, j.id = id ∧ j.data = data

/-- An id that was added: its job is stored, or has completed. -/
def Accepted (id : κ) (q : B.Store) : Prop := (∃ j ∈ B.jobs q, j.id = id) ∨ id ∈ B.completions q

/-- What was true of all that was added is true of every job, and every completed id
was added with such data. -/
structure Carries (P : κ → π → Prop) (q : B.Store) : Prop where
  jobs : ∀ j ∈ B.jobs q, P j.id j.data
  completions : ∀ id ∈ B.completions q, ∃ data, P id data

section Rules
variable {B} {opts : Options} (h : B.Documented opts) {q : B.Store}
include h

theorem Documented.eq_of_id {j j' : Job κ π} (hj : j ∈ B.jobs q) (hj' : j' ∈ B.jobs q)
    (hid : j.id = j'.id) : j = j' := List.inj_on_of_nodup_map (h.unique q) hj hj' hid

theorem Documented.accepted_add (id : κ) (data : π) (q : B.Store) :
    B.Accepted id (B.perform (.add id data) q) := Or.inl (h.adds q id data)

theorem Documented.mem_completions (op : Op κ π) {id : κ} (hid : id ∈ B.completions q) :
    id ∈ B.completions (B.perform op q) := by
  rcases h.completes op q with hsame | ⟨k, token, _, _, happend⟩
  · rwa [hsame]
  · rw [happend]
    exact List.mem_append_left _ hid

/-- What was added stays added. -/
theorem Documented.accepted_perform {id : κ} (hid : B.Accepted id q) (op : Op κ π) :
    B.Accepted id (B.perform op q) := by
  rcases hid with ⟨j, hj, rfl⟩ | hid
  · exact h.durable op q j hj
  · exact Or.inr (h.mem_completions op hid)

theorem Documented.carries_perform {P : κ → π → Prop} (hc : B.Carries P q) {op : Op κ π}
    (hadd : ∀ id data, op = .add id data → P id data) : B.Carries P (B.perform op q) := by
  constructor
  · intro j' hj'
    rcases h.faithful op q j' hj' with hop | ⟨j, hj, hid, hdata⟩
    · exact hadd j'.id j'.data hop
    · rw [← hid, ← hdata]
      exact hc.jobs j hj
  · intro k hk
    rcases h.completes op q with hsame | ⟨id, token, _, ⟨j, hj, hid, _⟩, happend⟩
    · exact hc.completions k (hsame ▸ hk)
    · rw [happend, List.mem_append, List.mem_singleton] at hk
      rcases hk with hk | rfl
      · exact hc.completions k hk
      · exact ⟨j.data, hid ▸ hc.jobs j hj⟩

/-- A locked job has not completed, so its completion is a new one. -/
theorem Documented.not_mem_latest {id : κ} {token : ℕ} (hheld : B.Held id token q) :
    id ∉ latest opts.removeOnComplete (B.completions q) := by
  intro hid
  obtain ⟨j, hj, hjid, hdone⟩ := h.retained q id hid
  obtain ⟨j', hj', hid', hactive⟩ := hheld
  rw [h.eq_of_id hj hj' (hjid.trans hid'.symm), hactive] at hdone
  cases hdone

theorem Documented.spaced_perform (hs : Spaced opts.removeOnComplete (B.completions q))
    (op : Op κ π) : Spaced opts.removeOnComplete (B.completions (B.perform op q)) := by
  rcases h.completes op q with hsame | ⟨id, token, _, hheld, happend⟩
  · rwa [hsame]
  · rw [happend]
    exact hs.concat (h.not_mem_latest hheld)

theorem Documented.completions_of_ne {op : Op κ π} (hop : ∀ id token, op ≠ .complete id token) :
    B.completions (B.perform op q) = B.completions q := by
  rcases h.completes op q with hsame | ⟨id, token, heq, _⟩
  · exact hsame
  · exact absurd heq (hop id token)

end Rules

end Broker
end Jobs
