import FootballIQ.Broker
import FootballIQ.Table

/-!
# A job queue in memory

The queue keeps its jobs in a list, in the order of their addition, and hands out lock
tokens in ascending order. It keeps all that a broker promises.
-/

namespace Jobs

/-- The stored jobs, the next lock token and the stream of completion events. -/
structure Queue (κ π : Type*) where
  jobs : List (Job κ π)
  nodup_ids : (jobs.map Job.id).Nodup
  tokens : ℕ
  completions : List κ

namespace Queue
variable {κ π : Type*}

theorem ext_jobs {q q' : Queue κ π} (hj : q.jobs = q'.jobs) (ht : q.tokens = q'.tokens)
    (hc : q.completions = q'.completions) : q = q' := by
  cases q
  cases q'
  cases hj
  cases ht
  cases hc
  rfl

instance [DecidableEq κ] [DecidableEq π] : DecidableEq (Queue κ π) := fun q q' =>
  decidable_of_iff (q.jobs = q'.jobs ∧ q.tokens = q'.tokens ∧ q.completions = q'.completions)
    ⟨fun h => ext_jobs h.1 h.2.1 h.2.2, fun h => h ▸ ⟨rfl, rfl, rfl⟩⟩

def empty : Queue κ π := ⟨[], List.nodup_nil, 0, []⟩

theorem eq_of_id (q : Queue κ π) {j j' : Job κ π} (hj : j ∈ q.jobs) (hj' : j' ∈ q.jobs)
    (h : j.id = j'.id) : j = j' := List.inj_on_of_nodup_map q.nodup_ids hj hj' h

section Operations
variable [DecidableEq κ] (opts : Options) (q : Queue κ π)

def get (id : κ) : Option (Job κ π) := q.jobs.find? (fun j => j.id = id)

/-- Rewrite the job with this id. -/
def change (id : κ) (f : Job κ π → Job κ π) (hf : ∀ j, (f j).id = j.id) : Queue κ π where
  jobs := q.jobs.map (fun j => if j.id = id then f j else j)
  nodup_ids := by
    have hids : (q.jobs.map (fun j => if j.id = id then f j else j)).map Job.id =
        q.jobs.map Job.id := by
      rw [List.map_map]
      apply List.map_congr_left
      intro j _
      simp only [Function.comp_apply]
      split_ifs
      · exact hf j
      · rfl
    rw [hids]
    exact q.nodup_ids
  tokens := q.tokens
  completions := q.completions

theorem nodup_add {id : κ} {data : π} (h : q.get id = none) :
    ((q.jobs ++ [Job.waits id data]).map Job.id).Nodup := by
  rw [List.map_append, List.nodup_append]
  refine ⟨q.nodup_ids, List.nodup_singleton _, ?_⟩
  intro k hk k' hk' heq
  obtain ⟨j, hj, rfl⟩ := List.mem_map.1 hk
  rw [List.map_singleton, List.mem_singleton] at hk'
  have hne := List.find?_eq_none.1 h j hj
  exact hne (by simpa [Job.waits, hk'] using heq)

/-- An id that is stored in any state is not added again. -/
def add (id : κ) (data : π) : Queue κ π :=
  if h : q.get id = none then
    { q with
      jobs := q.jobs ++ [Job.waits id data]
      nodup_ids := q.nodup_add h }
  else q

/-- Lock a waiting job under a new token; the answer is the token and the job's data. -/
def take (id : κ) : Option (ℕ × π) × Queue κ π :=
  match q.get id with
  | some j =>
    if j.state = .waiting then
      (some (q.tokens, j.data),
        { q.change id (Job.lockedBy · q.tokens) (fun _ => rfl) with tokens := q.tokens + 1 })
    else (none, q)
  | none => (none, q)

/-- The job is locked under this token. -/
def Held (id : κ) (token : ℕ) : Prop := ∃ j, q.get id = some j ∧ j.state = .active token

instance (id : κ) (token : ℕ) : Decidable (q.Held id token) :=
  decidable_of_iff ((q.get id).any (fun j => j.state = .active token)) (by
    simp [Held, Option.any_eq_true])

/-- Forget the completed jobs that are not among the latest. -/
def evict : Queue κ π where
  jobs := q.jobs.filter (fun j => j.state = .completed → j.id ∈ latest opts.removeOnComplete q.completions)
  nodup_ids := q.nodup_ids.sublist (List.filter_sublist.map Job.id)
  tokens := q.tokens
  completions := q.completions

/-- The job as completed, and the event of it. -/
def finish (id : κ) : Queue κ π :=
  { q.change id Job.finished (fun _ => rfl) with completions := q.completions ++ [id] }

def complete (id : κ) (token : ℕ) : Queue κ π :=
  if q.Held id token then (q.finish id).evict opts else q

def fail (id : κ) (token : ℕ) : Queue κ π :=
  if q.Held id token then q.change id (Job.failedOnce opts) (fun _ => rfl) else q

/-- The lock of an active job has run out. -/
def stall (id : κ) : Queue κ π :=
  match q.get id with
  | some j =>
    match j.state with
    | .active _ => q.change id (Job.stalledOnce opts) (fun _ => rfl)
    | _ => q
  | none => q

end Operations

section Reading
variable [DecidableEq κ] (q : Queue κ π)

theorem get_eq_some_iff (id : κ) (j : Job κ π) : q.get id = some j ↔ j ∈ q.jobs ∧ j.id = id := by
  constructor
  · intro h
    exact ⟨List.mem_of_find?_eq_some h, by simpa using List.find?_some h⟩
  · rintro ⟨hj, rfl⟩
    exact Relational.find?_of_nodup q.nodup_ids hj

theorem mem_change {id : κ} {f : Job κ π → Job κ π} (hf : ∀ j, (f j).id = j.id) (j' : Job κ π) :
    j' ∈ (q.change id f hf).jobs ↔ ∃ j ∈ q.jobs, (if j.id = id then f j else j) = j' :=
  List.mem_map

theorem mem_add {id : κ} {data : π} {j : Job κ π} (h : j ∈ (q.add id data).jobs) :
    j ∈ q.jobs ∨ (j = Job.waits id data ∧ q.get id = none) := by
  unfold add at h
  split_ifs at h with hnone
  · rcases List.mem_append.1 h with h | h
    · exact Or.inl h
    · exact Or.inr ⟨List.mem_singleton.1 h, hnone⟩
  · exact Or.inl h

end Reading

section Steps
variable [DecidableEq κ] (opts : Options)

def perform : Op κ π → Queue κ π → Queue κ π
  | .add id data, q => q.add id data
  | .take id, q => (q.take id).2
  | .complete id token, q => q.complete opts id token
  | .fail id token, q => q.fail opts id token
  | .stall id, q => q.stall opts id

/-- The job with this id was not completed and is rewritten into one that is not either. -/
structure Rewrites (q q' : Queue κ π) (id : κ) (f : Job κ π → Job κ π) : Prop where
  id_eq : ∀ j, (f j).id = j.id
  data_eq : ∀ j, (f j).data = j.data
  before : ∀ j, q.get id = some j → j.state ≠ .completed
  within : ∀ j, q.get id = some j → j.Within opts → (f j).Within opts
  after : ∀ j, (f j).state ≠ .completed
  jobs : q'.jobs = (q.change id f id_eq).jobs
  completions : q'.completions = q.completions

theorem rewrites_take {q : Queue κ π} {id : κ} {j : Job κ π} (hget : q.get id = some j)
    (hw : j.state = .waiting) :
    Rewrites opts q (q.take id).2 id (Job.lockedBy · q.tokens) := by
  have hrun : (q.take id).2 = { q.change id (Job.lockedBy · q.tokens) (fun _ => rfl) with
      tokens := q.tokens + 1 } := by simp only [take, hget, if_pos hw]
  rw [hrun]
  refine ⟨fun _ => rfl, fun _ => rfl, ?_, ?_, fun _ => State.noConfusion, rfl, rfl⟩
  · intro j' hj'
    rw [Option.some.inj (hj'.symm.trans hget), hw]
    exact State.noConfusion
  · intro j' hj' h
    rw [Option.some.inj (hj'.symm.trans hget)] at h ⊢
    exact h.lockedBy hw q.tokens

theorem rewrites_fail {q : Queue κ π} {id : κ} {token : ℕ} (h : q.Held id token) :
    Rewrites opts q (q.fail opts id token) id (Job.failedOnce opts) := by
  have hrun : q.fail opts id token = q.change id (Job.failedOnce opts) (fun _ => rfl) := if_pos h
  obtain ⟨j, hget, hs⟩ := h
  rw [hrun]
  refine ⟨fun _ => rfl, fun _ => rfl, ?_, ?_, ?_, rfl, rfl⟩
  · intro j' hj'
    rw [Option.some.inj (hj'.symm.trans hget), hs]
    exact State.noConfusion
  · intro j' hj' h
    rw [Option.some.inj (hj'.symm.trans hget)] at h ⊢
    exact h.failedOnce hs
  · intro j
    unfold Job.failedOnce
    split_ifs <;> exact State.noConfusion

theorem rewrites_stall {q : Queue κ π} {id : κ} {token : ℕ} (h : q.Held id token) :
    Rewrites opts q (q.stall opts id) id (Job.stalledOnce opts) := by
  obtain ⟨j, hget, hs⟩ := h
  have hrun : q.stall opts id = q.change id (Job.stalledOnce opts) (fun _ => rfl) := by
    simp only [stall, hget, hs]
  rw [hrun]
  refine ⟨fun _ => rfl, fun _ => rfl, ?_, ?_, ?_, rfl, rfl⟩
  · intro j' hj'
    rw [Option.some.inj (hj'.symm.trans hget), hs]
    exact State.noConfusion
  · intro j' hj' h
    rw [Option.some.inj (hj'.symm.trans hget)] at h ⊢
    exact h.stalledOnce hs
  · intro j
    unfold Job.stalledOnce
    split_ifs <;> exact State.noConfusion

/-- An operation adds a new id, completes a locked job, rewrites one job that is not
completed, or does nothing. -/
theorem perform_cases (op : Op κ π) (q : Queue κ π) :
    (∃ id data, op = .add id data ∧ q.get id = none ∧
        (perform opts op q).jobs = q.jobs ++ [Job.waits id data] ∧
        (perform opts op q).completions = q.completions) ∨
      (∃ id token, op = .complete id token ∧ q.Held id token ∧
        perform opts op q = (q.finish id).evict opts) ∨
      (∃ id f, Rewrites opts q (perform opts op q) id f) ∨ perform opts op q = q := by
  cases op with
  | add id data =>
    by_cases h : q.get id = none
    · refine Or.inl ⟨id, data, rfl, h, ?_⟩
      simp only [perform, add, h, dite_true, and_self]
    · refine Or.inr (Or.inr (Or.inr ?_))
      simp only [perform, add, h, dite_false]
  | take id =>
    cases hget : q.get id with
    | none =>
      refine Or.inr (Or.inr (Or.inr ?_))
      simp only [perform, take, hget]
    | some j =>
      by_cases hw : j.state = .waiting
      · exact Or.inr (Or.inr (Or.inl ⟨id, _, rewrites_take opts hget hw⟩))
      · refine Or.inr (Or.inr (Or.inr ?_))
        simp only [perform, take, hget, if_neg hw]
  | complete id token =>
    by_cases h : q.Held id token
    · exact Or.inr (Or.inl ⟨id, token, rfl, h, if_pos h⟩)
    · exact Or.inr (Or.inr (Or.inr (if_neg h)))
  | fail id token =>
    by_cases h : q.Held id token
    · exact Or.inr (Or.inr (Or.inl ⟨id, _, rewrites_fail opts h⟩))
    · exact Or.inr (Or.inr (Or.inr (if_neg h)))
  | stall id =>
    cases hget : q.get id with
    | none =>
      refine Or.inr (Or.inr (Or.inr ?_))
      simp only [perform, stall, hget]
    | some j =>
      cases hs : j.state with
      | active token => exact Or.inr (Or.inr (Or.inl ⟨id, _, rewrites_stall opts ⟨j, hget, hs⟩⟩))
      | waiting | completed | failed =>
        refine Or.inr (Or.inr (Or.inr ?_))
        simp only [perform, stall, hget, hs]

end Steps

section Invariants
variable {opts : Options} {q : Queue κ π}

/-- The latest completions are stored as completed jobs, so none of their ids can come
back, and every completed job has its event. -/
structure Sound (opts : Options) (q : Queue κ π) : Prop where
  kept : ∀ id ∈ latest opts.removeOnComplete q.completions,
    ∃ j ∈ q.jobs, j.id = id ∧ j.state = .completed
  recorded : ∀ j ∈ q.jobs, j.state = .completed → j.id ∈ q.completions
  within : ∀ j ∈ q.jobs, j.Within opts

theorem Sound.empty (opts : Options) : Sound opts (Queue.empty : Queue κ π) where
  kept id h := by simp [latest, Queue.empty] at h
  recorded j h := by cases h
  within j h := by cases h

variable [DecidableEq κ]

theorem mem_finish_evict {id : κ} {j' : Job κ π} : j' ∈ ((q.finish id).evict opts).jobs ↔
    (∃ j ∈ q.jobs, (if j.id = id then j.finished else j) = j') ∧
      (j'.state = .completed → j'.id ∈ latest opts.removeOnComplete (q.finish id).completions) := by
  unfold evict
  rw [List.mem_filter, decide_eq_true_eq]
  exact and_congr_left (fun _ => List.mem_map)

theorem Sound.complete (h : Sound opts q) {id : κ} {token : ℕ} (hheld : q.Held id token) :
    Sound opts ((q.finish id).evict opts) where
  kept k hk := by
    have hk' : k ∈ latest opts.removeOnComplete (q.finish id).completions := hk
    obtain ⟨jd, hget, hactive⟩ := hheld
    obtain ⟨hjd, hjdid⟩ := (q.get_eq_some_iff id jd).1 hget
    rcases mem_latest_concat hk' with rfl | hold
    · exact ⟨jd.finished, mem_finish_evict.2 ⟨⟨jd, hjd, if_pos hjdid⟩, fun _ => hjdid ▸ hk'⟩,
        hjdid, rfl⟩
    · obtain ⟨j, hj, hjid, hdone⟩ := h.kept k hold
      have hne : j.id ≠ id := by
        rintro rfl
        rw [q.eq_of_id hj hjd hjdid.symm, hactive] at hdone
        cases hdone
      exact ⟨j, mem_finish_evict.2 ⟨⟨j, hj, if_neg hne⟩, fun _ => hjid ▸ hk'⟩, hjid, hdone⟩
  recorded j' hj' hdone := by
    obtain ⟨⟨j, hj, rfl⟩, _⟩ := mem_finish_evict.1 hj'
    by_cases hid : j.id = id
    · rw [if_pos hid]
      exact List.mem_append_right _ (List.mem_singleton.2 hid)
    · rw [if_neg hid] at hdone ⊢
      exact List.mem_append_left _ (h.recorded j hj hdone)
  within j' hj' := by
    obtain ⟨⟨j, hj, rfl⟩, _⟩ := mem_finish_evict.1 hj'
    by_cases hid : j.id = id
    · rw [if_pos hid]
      trivial
    · rw [if_neg hid]
      exact h.within j hj

theorem Sound.rewrite (h : Sound opts q) {q' : Queue κ π} {id : κ} {f : Job κ π → Job κ π}
    (hf : Rewrites opts q q' id f) : Sound opts q' where
  kept k hk := by
    rw [latest, hf.completions] at hk
    obtain ⟨j, hj, hjid, hdone⟩ := h.kept k hk
    have hne : j.id ≠ id := fun heq =>
      hf.before j ((q.get_eq_some_iff id j).2 ⟨hj, heq⟩) hdone
    refine ⟨j, ?_, hjid, hdone⟩
    rw [hf.jobs, mem_change]
    exact ⟨j, hj, if_neg hne⟩
  recorded j' hj' hdone := by
    rw [hf.jobs, mem_change] at hj'
    obtain ⟨j, hj, rfl⟩ := hj'
    rw [hf.completions]
    by_cases hid : j.id = id
    · rw [if_pos hid] at hdone
      exact absurd hdone (hf.after j)
    · rw [if_neg hid] at hdone ⊢
      exact h.recorded j hj hdone
  within j' hj' := by
    rw [hf.jobs, mem_change] at hj'
    obtain ⟨j, hj, rfl⟩ := hj'
    by_cases hid : j.id = id
    · rw [if_pos hid]
      exact hf.within j ((q.get_eq_some_iff id j).2 ⟨hj, hid⟩) (h.within j hj)
    · rw [if_neg hid]
      exact h.within j hj

theorem Sound.perform (hattempts : 0 < opts.attempts) (h : Sound opts q) (op : Op κ π) :
    Sound opts (perform opts op q) := by
  rcases perform_cases opts op q with ⟨id, data, _, _, hjobs, hcompletions⟩ |
    ⟨id, token, _, hheld, heq⟩ | ⟨id, f, hf⟩ | heq
  · refine ⟨?_, ?_, ?_⟩
    · intro k hk
      rw [latest, hcompletions] at hk
      obtain ⟨j, hj, hjid, hdone⟩ := h.kept k hk
      exact ⟨j, hjobs ▸ List.mem_append_left _ hj, hjid, hdone⟩
    · intro j hj hdone
      rw [hjobs, List.mem_append, List.mem_singleton] at hj
      rw [hcompletions]
      rcases hj with hj | rfl
      · exact h.recorded j hj hdone
      · cases hdone
    · intro j hj
      rw [hjobs, List.mem_append, List.mem_singleton] at hj
      rcases hj with hj | rfl
      · exact h.within j hj
      · exact ⟨hattempts, Nat.zero_le _⟩
  · rw [heq]
    exact h.complete hheld
  · exact h.rewrite hf
  · rwa [heq]

/-- A stored job stays stored, or has completed. -/
theorem stored_perform (hs : Sound opts q) (op : Op κ π) {j : Job κ π} (hj : j ∈ q.jobs) :
    (∃ j' ∈ (perform opts op q).jobs, j'.id = j.id) ∨ j.id ∈ (perform opts op q).completions := by
  rcases perform_cases opts op q with ⟨k, data, _, _, hjobs, _⟩ | ⟨k, token, _, _, heq⟩ |
    ⟨k, f, hf⟩ | heq
  · exact Or.inl ⟨j, hjobs ▸ List.mem_append_left _ hj, rfl⟩
  · rw [heq]
    by_cases hk : j.id = k
    · exact Or.inr (List.mem_append_right _ (List.mem_singleton.2 hk))
    · by_cases hdone : j.state = .completed →
        j.id ∈ latest opts.removeOnComplete (q.finish k).completions
      · exact Or.inl ⟨j, mem_finish_evict.2 ⟨⟨j, hj, if_neg hk⟩, hdone⟩, rfl⟩
      · -- an evicted job has completed
        exact Or.inr (List.mem_append_left _ (hs.recorded j hj (Classical.not_imp.1 hdone).1))
  · refine Or.inl ⟨if j.id = k then f j else j, ?_, ?_⟩
    · rw [hf.jobs, mem_change]
      exact ⟨j, hj, rfl⟩
    · split_ifs
      · exact hf.id_eq j
      · rfl
  · rw [heq]
    exact Or.inl ⟨j, hj, rfl⟩

theorem stored_add (q : Queue κ π) (id : κ) (data : π) : ∃ j ∈ (q.add id data).jobs, j.id = id := by
  by_cases h : q.get id = none
  · refine ⟨Job.waits id data, ?_, rfl⟩
    simp only [add, h, dite_true]
    exact List.mem_append_right _ List.mem_cons_self
  · obtain ⟨j, hj⟩ := Option.ne_none_iff_exists'.1 h
    obtain ⟨hmem, hid⟩ := (q.get_eq_some_iff id j).1 hj
    refine ⟨j, ?_, hid⟩
    simpa only [add, h, dite_false] using hmem

/-- A job was just added, or was there before with the same data. -/
theorem mem_perform {op : Op κ π} {j' : Job κ π} (h : j' ∈ (perform opts op q).jobs) :
    op = .add j'.id j'.data ∨ ∃ j ∈ q.jobs, j.id = j'.id ∧ j.data = j'.data := by
  rcases perform_cases opts op q with ⟨id, data, hop, _, hjobs, _⟩ | ⟨id, token, _, _, heq⟩ |
    ⟨id, f, hf⟩ | heq
  · rw [hjobs, List.mem_append, List.mem_singleton] at h
    rcases h with h | rfl
    · exact Or.inr ⟨j', h, rfl, rfl⟩
    · exact Or.inl hop
  · rw [heq] at h
    obtain ⟨⟨j, hj, rfl⟩, _⟩ := mem_finish_evict.1 h
    refine Or.inr ⟨j, hj, ?_⟩
    split_ifs <;> exact ⟨rfl, rfl⟩
  · rw [hf.jobs, mem_change] at h
    obtain ⟨j, hj, rfl⟩ := h
    refine Or.inr ⟨j, hj, ?_⟩
    split_ifs
    · exact ⟨(hf.id_eq j).symm, (hf.data_eq j).symm⟩
    · exact ⟨rfl, rfl⟩
  · rw [heq] at h
    exact Or.inr ⟨j', h, rfl, rfl⟩

/-- Completions grow only by the completion of a locked job. -/
theorem completions_perform (opts : Options) (op : Op κ π) (q : Queue κ π) :
    (perform opts op q).completions = q.completions ∨ ∃ id token, op = .complete id token ∧
      q.Held id token ∧ (perform opts op q).completions = q.completions ++ [id] := by
  rcases perform_cases opts op q with ⟨_, _, _, _, _, hcompletions⟩ |
    ⟨id, token, hop, hheld, heq⟩ | ⟨_, _, hf⟩ | heq
  · exact Or.inl hcompletions
  · exact Or.inr ⟨id, token, hop, hheld, by rw [heq]; rfl⟩
  · exact Or.inl hf.completions
  · exact Or.inl (by rw [heq])

/-- A worker is handed the data of a stored job. -/
theorem mem_of_take {id : κ} {token : ℕ} {data : π} (h : (q.take id).1 = some (token, data)) :
    ∃ j ∈ q.jobs, j.id = id ∧ j.data = data := by
  unfold take at h
  cases hget : q.get id with
  | none => simp [hget] at h
  | some j =>
    obtain ⟨hj, hid⟩ := (q.get_eq_some_iff id j).1 hget
    by_cases hwaits : j.state = .waiting
    · simp only [hget, if_pos hwaits, Option.some.injEq, Prod.mk.injEq] at h
      exact ⟨j, hj, hid, h.2⟩
    · simp [hget, hwaits] at h

end Invariants

section Promises
variable {κ π : Type} [DecidableEq κ] (opts : Options) (hattempts : 0 < opts.attempts)

/-- The queue as a broker. -/
def broker : Broker κ π where
  Store := { q : Queue κ π // Sound opts q }
  empty := ⟨Queue.empty, Sound.empty opts⟩
  jobs q := q.1.jobs
  completions q := q.1.completions
  take id q := (q.1.take id).1
  perform op q := ⟨perform opts op q.1, q.2.perform hattempts op⟩

theorem documented_broker : (broker opts hattempts : Broker κ π).Documented opts where
  jobs_empty := rfl
  completions_empty := rfl
  unique q := q.1.nodup_ids
  adds q id data := stored_add q.1 id data
  faithful op q j' hj' := mem_perform hj'
  durable op q j hj := stored_perform q.2 op hj
  completes op q := by
    rcases completions_perform opts op q.1 with hsame | ⟨id, token, hop, ⟨j, hget, hs⟩, happend⟩
    · exact Or.inl hsame
    · obtain ⟨hj, hid⟩ := (q.1.get_eq_some_iff id j).1 hget
      exact Or.inr ⟨id, token, hop, ⟨j, hj, hid, hs⟩, happend⟩
  retained q := q.2.kept
  recorded q := q.2.recorded
  attempts q := q.2.within
  hands q id token data h := mem_of_take h

end Promises

end Queue
end Jobs
