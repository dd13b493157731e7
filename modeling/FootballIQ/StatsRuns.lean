import FootballIQ.PrizePool
import FootballIQ.Stats

/-!
# Recomputed statistics

A recomputation for a contest goes through its users one after another: it reads the settled
entries of the user, then the scored predictions, and then writes the row. Jobs are delivered
more than once and run at once, and the platform goes on between any two of their steps.
-/

namespace FootballIQ
namespace StatsRuns

open Transaction Relational Interleaving Stats

section Model

structure World where
  store : Store
  /-- What the steps have found. -/
  history : List Store
  /-- The contests whose users have all been recomputed, once for each job that came to its end. -/
  completed : List ℕ

inductive Call where
  | recomputeForContest (contestId : ℕ)
  | platform (call : Platform.Call)

/-- Where a job is: the user at hand and the users after it. -/
structure Job where
  contestId : ℕ
  userId : ℕ
  rest : List ℕ

inductive Task where
  | readUsers (contestId : ℕ)
  | readEntries (job : Job)
  | readPredictions (job : Job) (entries : List SettledEntry)
  | write (job : Job) (entries : List SettledEntry) (predictions : List ScoredPrediction)
  | platform (task : Platform.Task)

/-- The users with an entry in the contest, each once. -/
def usersOf (db : Db) (contestId : ℕ) : List ℕ :=
  ((db.entries.findMany (fun e => e.contestId = contestId)).map (·.userId)).eraseDups

def World.see (w : World) : World := { w with history := w.history ++ [w.store] }

def World.write (userId : ℕ) (entries : List SettledEntry) (predictions : List ScoredPrediction)
    (w : World) : World :=
  { w with store.userStats := Stats.store userId entries predictions w.store.userStats }

/-- The next pass of the loop, or its end. -/
def next (contestId : ℕ) : List ℕ → World → World × Option Task
  | [], w => ({ w with completed := w.completed ++ [contestId] }, none)
  | userId :: rest, w => (w, some (.readEntries ⟨contestId, userId, rest⟩))

variable (drawHash : ℕ → ℕ → String)

def act (tick : Platform.Tick) : Task → World → World × Option Task
  | .readUsers contestId, w => next contestId (usersOf w.store.db contestId) w
  | .readEntries job, w => (w, some (.readPredictions job (settledEntries w.store.db job.userId)))
  | .readPredictions job entries, w =>
    (w, some (.write job entries (scoredPredictions w.store job.userId)))
  | .write job entries predictions, w =>
    next job.contestId job.rest (w.write job.userId entries predictions)
  | .platform task, w =>
    ({ w with store.db := (Platform.step drawHash tick task w.store.db).1 },
      (Platform.step drawHash tick task w.store.db).2.map .platform)

def step (tick : Platform.Tick) (t : Task) (w : World) : World × Option Task :=
  act drawHash tick t w.see

def init : Call → Task
  | .recomputeForContest contestId => .readUsers contestId
  | .platform call => .platform (.ready call)

def protocol : Protocol World Call Task Platform.Tick := ⟨init, step drawHash⟩

end Model

section Steps
variable {drawHash : ℕ → ℕ → String} {tick : Platform.Tick} {w : World} {t t' : Task}

/-- The contests that the user has entered. -/
def entered (db : Db) (userId : ℕ) : List ℕ :=
  (db.entries.findMany (fun e => e.userId = userId)).map (·.contestId)

theorem mem_usersOf_iff {db : Db} {contestId userId : ℕ} :
    userId ∈ usersOf db contestId ↔ contestId ∈ entered db userId := by
  simp only [usersOf, entered, List.mem_eraseDups, List.mem_map, Table.mem_findMany]
  constructor
  · rintro ⟨e, ⟨he, hcontest⟩, huser⟩
    exact ⟨e, ⟨he, huser⟩, hcontest⟩
  · rintro ⟨e, ⟨he, huser⟩, hcontest⟩
    exact ⟨e, ⟨he, hcontest⟩, huser⟩

@[simp] theorem store_next (contestId : ℕ) (users : List ℕ) (w : World) :
    (next contestId users w).1.store = w.store := by
  cases users with
  | nil => rfl
  | cons userId rest => rfl

@[simp] theorem history_next (contestId : ℕ) (users : List ℕ) (w : World) :
    (next contestId users w).1.history = w.history := by
  cases users with
  | nil => rfl
  | cons userId rest => rfl

theorem history_step : (step drawHash tick t w).1.history = w.history ++ [w.store] := by
  cases t with
  | readUsers contestId => exact history_next _ _ _
  | write job entries predictions => exact history_next _ _ _
  | readEntries _ | readPredictions _ _ | platform _ => rfl

theorem history_le : w.history.Sublist (step drawHash tick t w).1.history := by
  rw [history_step]
  exact List.sublist_append_left _ _

/-- What the loop goes on with. -/
theorem next_some {contestId : ℕ} {users : List ℕ} (h : (next contestId users w).2 = some t') :
    ∃ userId rest, users = userId :: rest ∧ t' = .readEntries ⟨contestId, userId, rest⟩ := by
  cases users with
  | nil => cases h
  | cons userId rest => exact ⟨userId, rest, rfl, (Option.some.inj h).symm⟩

/-- A job that nothing comes between recomputes its users one after another. -/
theorem run_alone (drawHash : ℕ → ℕ → String) (tick : Platform.Tick) (contestId userId : ℕ)
    (rest : List ℕ) (w : World) :
    ((protocol drawHash).run ⟨w, [.readEntries ⟨contestId, userId, rest⟩]⟩
      (List.replicate (3 * (rest.length + 1)) (.resume 0 tick))).shared.store =
        (userId :: rest).foldl (fun s user => recomputeForUser user s) w.store := by
  induction rest generalizing userId w with
  | nil =>
    simp [Protocol.run, Protocol.next, protocol, step, act, World.see, World.write, next,
      recomputeForUser]
  | cons user rest ih =>
    have hlen : 3 * ((user :: rest).length + 1) = 3 + 3 * (rest.length + 1) := by
      rw [List.length_cons]
      omega
    rw [hlen, List.replicate_add, Protocol.run_append, List.foldl_cons]
    have hpass : (protocol drawHash).run ⟨w, [.readEntries ⟨contestId, userId, user :: rest⟩]⟩
        (List.replicate 3 (.resume 0 tick)) =
          ⟨w.see.see.see.write userId (settledEntries w.store.db userId)
            (scoredPredictions w.store userId), [.readEntries ⟨contestId, user, rest⟩]⟩ := rfl
    rw [hpass]
    exact ih user _

end Steps

section History
variable {drawHash : ℕ → ℕ → String} {tick : Platform.Tick} {w w' : World} {t t' : Task}

/-- The row is the projection of the entries of one moment and the predictions of that moment or a
later one, of a user who had entered a contest before. -/
def Derived (history : List Store) (userId : ℕ) (row : UserStats) : Prop :=
  ∃ s₀ s₁ s₂, [s₀, s₁, s₂].Sublist history ∧ entered s₀.db userId ≠ [] ∧
    row = statsData userId (settledEntries s₁.db userId) (scoredPredictions s₂ userId)

def Traced (w : World) : Prop :=
  ∀ userId row, w.store.userStats.find userId = some row → Derived w.history userId row

/-- The users have been found in the history with entries. -/
def Listed (history : List Store) (users : List ℕ) : Prop :=
  ∀ userId ∈ users, ∃ s₀ ∈ history, entered s₀.db userId ≠ []

/-- What a job has read so far. -/
def Reads (w : World) : Task → Prop
  | .readEntries job => Listed w.history (job.userId :: job.rest)
  | .readPredictions job entries => Listed w.history job.rest ∧
    ∃ s₀ s₁, [s₀, s₁].Sublist w.history ∧ entered s₀.db job.userId ≠ [] ∧
      entries = settledEntries s₁.db job.userId
  | .write job entries predictions => Listed w.history job.rest ∧
    ∃ s₀ s₁ s₂, [s₀, s₁, s₂].Sublist w.history ∧ entered s₀.db job.userId ≠ [] ∧
      entries = settledEntries s₁.db job.userId ∧ predictions = scoredPredictions s₂ job.userId
  | .readUsers _ | .platform _ => True

theorem Listed.mono {users : List ℕ} (hs : w.history.Sublist w'.history)
    (h : Listed w.history users) : Listed w'.history users := by
  intro userId huser
  obtain ⟨s₀, hmem, hentered⟩ := h userId huser
  exact ⟨s₀, hs.subset hmem, hentered⟩

theorem Reads.mono (hs : w.history.Sublist w'.history) (h : Reads w t) : Reads w' t := by
  cases t with
  | readEntries job => exact Listed.mono hs h
  | readPredictions job entries =>
    obtain ⟨hlisted, s₀, s₁, hread, hrest⟩ := h
    exact ⟨hlisted.mono hs, s₀, s₁, hread.trans hs, hrest⟩
  | write job entries predictions =>
    obtain ⟨hlisted, s₀, s₁, s₂, hread, hrest⟩ := h
    exact ⟨hlisted.mono hs, s₀, s₁, s₂, hread.trans hs, hrest⟩
  | readUsers _ | platform _ => trivial

theorem Derived.mono {history history' : List Store} (hs : history.Sublist history') {userId : ℕ}
    {row : UserStats} (h : Derived history userId row) : Derived history' userId row := by
  obtain ⟨s₀, s₁, s₂, hread, hrest⟩ := h
  exact ⟨s₀, s₁, s₂, hread.trans hs, hrest⟩

theorem Traced.see (h : Traced w) : Traced w.see := by
  intro userId row hrow
  exact (h userId row hrow).mono (List.sublist_append_left _ _)

theorem traced_write {job : Job} {entries : List SettledEntry}
    {predictions : List ScoredPrediction} (h : Traced w)
    (ht : Reads w (.write job entries predictions)) :
    Traced (w.write job.userId entries predictions) := by
  obtain ⟨_, s₀, s₁, s₂, hread, hentered, rfl, rfl⟩ := ht
  intro userId row hrow
  by_cases huser : userId = job.userId
  · rw [huser] at hrow ⊢
    exact ⟨s₀, s₁, s₂, hread, hentered, (Option.some.inj (find_upsert.symm.trans hrow)).symm⟩
  · exact h userId row ((find_upsert_of_ne huser).symm.trans hrow)

theorem traced_step (h : Traced w) (ht : Reads w t) : Traced (step drawHash tick t w).1 := by
  have hseen := h.see
  have hread : Reads w.see t := ht.mono (List.sublist_append_left _ _)
  cases t with
  | readUsers contestId =>
    intro userId row hrow
    rw [step, act, store_next] at hrow
    rw [step, act, history_next]
    exact hseen userId row hrow
  | write job entries predictions =>
    intro userId row hrow
    rw [step, act, store_next] at hrow
    rw [step, act, history_next]
    exact traced_write hseen hread userId row hrow
  | readEntries _ | readPredictions _ _ | platform _ => exact hseen

/-- Each read of a job adds what it has found. -/
theorem reads_next (ht : Reads w t) (h : (step drawHash tick t w).2 = some t') :
    Reads (step drawHash tick t w).1 t' := by
  have hnow : [w.store].Sublist [w.store] := List.Sublist.refl _
  cases t with
  | readUsers contestId =>
    obtain ⟨userId, rest, husers, rfl⟩ := next_some h
    intro user huser
    rw [← husers] at huser
    have hmem := mem_usersOf_iff.1 huser
    refine ⟨w.store, ?_, List.ne_nil_of_mem hmem⟩
    rw [history_step]
    exact List.mem_append_right _ List.mem_cons_self
  | readEntries job =>
    cases h
    obtain ⟨s₀, hmem, hentered⟩ := ht job.userId List.mem_cons_self
    refine ⟨Listed.mono history_le (fun user huser => ht user (List.mem_cons_of_mem _ huser)),
      s₀, w.store, ?_, hentered, rfl⟩
    exact (List.singleton_sublist.2 hmem).append hnow
  | readPredictions job entries =>
    cases h
    obtain ⟨hlisted, s₀, s₁, hread, hentered, hentries⟩ := ht
    exact ⟨Listed.mono history_le hlisted, s₀, s₁, w.store, hread.append hnow, hentered, hentries,
      rfl⟩
  | write job entries predictions =>
    obtain ⟨userId, rest, hrest, rfl⟩ := next_some h
    have hlisted : Listed w.history (userId :: rest) := hrest ▸ ht.1
    exact Listed.mono history_le hlisted
  | platform task =>
    obtain ⟨next, _, rfl⟩ := Option.map_eq_some_iff.1 h
    trivial

theorem inductive_traced (drawHash : ℕ → ℕ → String) :
    (protocol drawHash).Inductive (fun _ _ _ => True) Traced Reads where
  init w call _ := by
    cases call with
    | recomputeForContest _ | platform _ => trivial
  shared _ _ _ hI ht _ := traced_step hI ht
  cont _ _ _ _ _ ht _ hnext := reads_next ht hnext
  stable _ _ _ _ _ _ _ hu := hu.mono history_le

/-- In every interleaving of jobs and calls of the platform, whatever jobs die half way or run
twice, every row is the projection of entries that were settled at one moment and of predictions
that were scored at that moment or a later one, of a user who had entered a contest. -/
theorem derived_of_run (drawHash : ℕ → ℕ → String) {s : Store} (hempty : s.userStats.rows = [])
    (as : List (Act Call Platform.Tick)) {userId : ℕ} {row : UserStats}
    (hrow : ((protocol drawHash).run ⟨⟨s, [], []⟩, []⟩ as).shared.store.userStats.find userId =
      some row) :
    Derived ((protocol drawHash).run ⟨⟨s, [], []⟩, []⟩ as).shared.history userId row := by
  have hstart : Traced ⟨s, [], []⟩ := by
    intro userId row hrow
    have hmem := ((Table.find_eq_some_iff _ _ _).1 hrow).1
    rw [hempty] at hmem
    cases hmem
  exact ((inductive_traced drawHash).run ⟨hstart, by simp⟩
    ((protocol drawHash).along_of_forall (fun _ _ _ => trivial) _ as)).1 userId row hrow

/-- A job for a contest that is settled while it runs. -/
def overtaken : List (Act Call Platform.Tick) :=
  [.start (.recomputeForContest 1), .start (.platform (.distribute 1)),
    .resume 0 ⟨300, false, false⟩, .resume 1 ⟨301, false, false⟩, .resume 0 ⟨302, false, false⟩,
    .resume 1 ⟨303, false, false⟩, .resume 0 ⟨304, false, false⟩, .resume 0 ⟨305, false, false⟩]

def scoredStore : Store := ⟨PrizePool.scoredDb, fun _ => 7, .empty⟩

def overtakenWorld : World :=
  ((protocol PrizePool.noDraw).run ⟨⟨scoredStore, [], []⟩, []⟩ overtaken).shared

theorem derived_of_run_overtaken : ∃ row, overtakenWorld.store.userStats.find 7 = some row ∧
    Derived overtakenWorld.history 7 row := by
  have hstored : (overtakenWorld.store.userStats.find 7).isSome := by decide +kernel
  obtain ⟨row, hrow⟩ := Option.isSome_iff_exists.1 hstored
  have hempty : scoredStore.userStats.rows = [] := rfl
  unfold overtakenWorld at hrow ⊢
  generalize hs : scoredStore = s at hrow hempty ⊢
  exact ⟨row, hrow, derived_of_run PrizePool.noDraw hempty overtaken hrow⟩

end History

section Convergence
variable {drawHash : ℕ → ℕ → String} {userId contestId : ℕ} {tick : Platform.Tick} {w : World}
  {t t' : Task}

/-- What is projected of a user, and the contests that the user has entered. -/
structure Sources where
  entries : List SettledEntry
  predictions : List ScoredPrediction
  contests : List ℕ
  deriving DecidableEq

def sourcesOf (s : Store) (userId : ℕ) : Sources :=
  ⟨settledEntries s.db userId, scoredPredictions s userId, entered s.db userId⟩

/-- The platform leaves what is projected of the user. -/
def Quiet (drawHash : ℕ → ℕ → String) (userId : ℕ) (tick : Platform.Tick) (t : Task) (w : World) :
    Prop :=
  match t with
  | .platform task =>
    sourcesOf { w.store with db := (Platform.step drawHash tick task w.store.db).1 } userId =
      sourcesOf w.store userId
  | _ => True

/-- The row of the user is the projection of its sources. -/
def Current (sources : Sources) (userId : ℕ) (w : World) : Prop :=
  w.store.userStats.find userId = some (statsData userId sources.entries sources.predictions)

structure Settled (sources : Sources) (userId contestId : ℕ) (w : World) : Prop where
  unchanged : sourcesOf w.store userId = sources
  completed : contestId ∈ w.completed → Current sources userId w

/-- What is in the hands of a job about the user is what is projected, and a job of the contest has
the user ahead of it or behind it with a current row. -/
def Ahead (sources : Sources) (userId contestId : ℕ) (w : World) : Task → Prop
  | .readEntries job => job.contestId = contestId →
    userId ∈ job.userId :: job.rest ∨ Current sources userId w
  | .readPredictions job entries => (job.userId = userId → entries = sources.entries) ∧
    (job.contestId = contestId → userId ∈ job.userId :: job.rest ∨ Current sources userId w)
  | .write job entries predictions =>
    (job.userId = userId → entries = sources.entries ∧ predictions = sources.predictions) ∧
      (job.contestId = contestId → userId ∈ job.userId :: job.rest ∨ Current sources userId w)
  | .readUsers _ | .platform _ => True

/-- A task that has nothing in its hands about the user, and has the user ahead of it where it is a
job of the contest. -/
def Unread (userId contestId : ℕ) : Task → Prop
  | .readEntries job => job.contestId = contestId → userId ∈ job.userId :: job.rest
  | .readPredictions job _ | .write job _ _ =>
    job.userId ≠ userId ∧ (job.contestId = contestId → userId ∈ job.rest)
  | .readUsers _ | .platform _ => True

variable {sources : Sources}

theorem Settled.entered (h : Settled sources userId contestId w)
    (hentered : contestId ∈ sources.contests) : contestId ∈ entered w.store.db userId := by
  rw [← h.unchanged] at hentered
  exact hentered

theorem Unread.ahead (h : Unread userId contestId t) : Ahead sources userId contestId w t := by
  cases t with
  | readEntries job => exact fun hjob => Or.inl (h hjob)
  | readPredictions job entries =>
    exact ⟨fun huser => absurd huser h.1, fun hjob => Or.inl (List.mem_cons_of_mem _ (h.2 hjob))⟩
  | write job entries predictions =>
    exact ⟨fun huser => absurd huser h.1, fun hjob => Or.inl (List.mem_cons_of_mem _ (h.2 hjob))⟩
  | readUsers _ | platform _ => trivial

/-- A row written for the user is current, and one written for another user leaves it. -/
theorem current_write {job : Job} {entries : List SettledEntry}
    {predictions : List ScoredPrediction}
    (ht : job.userId = userId → entries = sources.entries ∧ predictions = sources.predictions)
    (h : job.userId = userId ∨ Current sources userId w) :
    Current sources userId (w.write job.userId entries predictions) := by
  by_cases huser : job.userId = userId
  · obtain ⟨rfl, rfl⟩ := ht huser
    unfold Current
    rw [← huser]
    exact find_upsert
  · have hcurrent := h.resolve_left huser
    exact (find_upsert_of_ne (Ne.symm huser)).trans hcurrent

/-- A step keeps a current row current. -/
theorem current_step (ht : Ahead sources userId contestId w t) (hcurrent : Current sources userId w) :
    Current sources userId (step drawHash tick t w).1 := by
  unfold Current at hcurrent ⊢
  cases t with
  | readUsers contestId =>
    rw [step, act, store_next]
    exact hcurrent
  | write job entries predictions =>
    rw [step, act, store_next]
    exact current_write (w := w.see) ht.1 (Or.inr hcurrent)
  | readEntries _ | readPredictions _ _ | platform _ => exact hcurrent

theorem sources_step (h : Settled sources userId contestId w)
    (hG : Quiet drawHash userId tick t w) :
    sourcesOf (step drawHash tick t w).1.store userId = sources := by
  cases t with
  | readUsers contestId =>
    rw [step, act, store_next]
    exact h.unchanged
  | write job entries predictions =>
    rw [step, act, store_next]
    exact h.unchanged
  | platform task => exact hG.trans h.unchanged
  | readEntries _ | readPredictions _ _ => exact h.unchanged

/-- A contest is completed where its last user has been written. -/
theorem mem_completed_next {k : ℕ} {users : List ℕ} (h : contestId ∈ (next k users w).1.completed) :
    contestId ∈ w.completed ∨ (k = contestId ∧ users = []) := by
  cases users with
  | nil =>
    rcases List.mem_append.1 h with h | h
    · exact Or.inl h
    · exact Or.inr ⟨(List.mem_singleton.1 h).symm, rfl⟩
  | cons userId rest => exact Or.inl h

/-- Where a write leaves the row of the user current. -/
theorem current_after_write {job : Job} {entries : List SettledEntry}
    {predictions : List ScoredPrediction}
    (ht : Ahead sources userId contestId w (.write job entries predictions))
    (hcurrent : job.userId = userId ∨ Current sources userId w) :
    Current sources userId (step drawHash tick (.write job entries predictions) w).1 := by
  unfold Current
  rw [step, act, store_next]
  exact current_write (w := w.see) ht.1 hcurrent

theorem settled_step (h : Settled sources userId contestId w)
    (hentered : contestId ∈ sources.contests) (ht : Ahead sources userId contestId w t)
    (hG : Quiet drawHash userId tick t w) :
    Settled sources userId contestId (step drawHash tick t w).1 := by
  refine ⟨sources_step h hG, ?_⟩
  have hkeep : contestId ∈ w.completed → Current sources userId (step drawHash tick t w).1 :=
    fun hdone => current_step ht (h.completed hdone)
  cases t with
  | readUsers k =>
    intro hdone
    rcases mem_completed_next hdone with hdone | ⟨rfl, hnone⟩
    · exact hkeep hdone
    · have hmem : userId ∈ usersOf w.store.db k := by
        rw [mem_usersOf_iff]
        exact h.entered hentered
      rw [show usersOf w.store.db k = [] from hnone] at hmem
      cases hmem
  | write job entries predictions =>
    intro hdone
    rcases mem_completed_next hdone with hdone | ⟨hjob, hlast⟩
    · exact hkeep hdone
    · refine current_after_write ht ?_
      rcases ht.2 hjob with hmem | hcurrent
      · rw [hlast, List.mem_singleton] at hmem
        exact Or.inl hmem.symm
      · exact Or.inr hcurrent
  | readEntries _ | readPredictions _ _ | platform _ => exact hkeep

/-- What a job reads of the user is what is projected, and it leaves the user out only once the row
is current. -/
theorem ahead_next (h : Settled sources userId contestId w) (hentered : contestId ∈ sources.contests)
    (ht : Ahead sources userId contestId w t) (hnext : (step drawHash tick t w).2 = some t') :
    Ahead sources userId contestId (step drawHash tick t w).1 t' := by
  have hkeep : Current sources userId w → Current sources userId (step drawHash tick t w).1 :=
    current_step ht
  cases t with
  | readUsers k =>
    obtain ⟨user, rest, husers, rfl⟩ := next_some hnext
    rintro rfl
    rw [← husers]
    exact Or.inl (mem_usersOf_iff.2 (h.entered hentered))
  | readEntries job =>
    cases hnext
    refine ⟨?_, fun hjob => (ht hjob).imp_right hkeep⟩
    rintro rfl
    exact congrArg Sources.entries h.unchanged
  | readPredictions job entries =>
    cases hnext
    refine ⟨?_, fun hjob => (ht.2 hjob).imp_right hkeep⟩
    intro huser
    refine ⟨ht.1 huser, ?_⟩
    rw [← congrArg Sources.predictions h.unchanged, huser]
    rfl
  | write job entries predictions =>
    obtain ⟨user, rest, hrest, rfl⟩ := next_some hnext
    intro hjob
    rcases ht.2 hjob with hmem | hcurrent
    · rcases List.mem_cons.1 hmem with huser | hmem
      · exact Or.inr (current_after_write ht (Or.inl huser.symm))
      · exact Or.inl (hrest ▸ hmem)
    · exact Or.inr (hkeep hcurrent)
  | platform task =>
    obtain ⟨next, _, rfl⟩ := Option.map_eq_some_iff.1 hnext
    trivial

theorem Ahead.stable {u : Task} (ht : Ahead sources userId contestId w t)
    (hu : Ahead sources userId contestId w u) :
    Ahead sources userId contestId (step drawHash tick t w).1 u := by
  cases u with
  | readEntries job => exact fun hjob => (hu hjob).imp_right (current_step ht)
  | readPredictions job entries =>
    exact ⟨hu.1, fun hjob => (hu.2 hjob).imp_right (current_step ht)⟩
  | write job entries predictions =>
    exact ⟨hu.1, fun hjob => (hu.2 hjob).imp_right (current_step ht)⟩
  | readUsers _ | platform _ => trivial

theorem inductive_settled (drawHash : ℕ → ℕ → String) (hentered : contestId ∈ sources.contests) :
    (protocol drawHash).Inductive (Quiet drawHash userId) (Settled sources userId contestId)
      (Ahead sources userId contestId) where
  init w call _ := by
    cases call with
    | recomputeForContest _ | platform _ => trivial
  shared _ _ _ hI ht hG := settled_step hI hentered ht hG
  cont _ _ _ _ hI ht _ hnext := ahead_next hI hentered ht hnext
  stable _ _ _ _ _ ht _ hu := ht.stable hu

/-- Recomputation converges. From a state in which no job has read for the user, while what is
projected of the user stays as it is, and whatever jobs for whatever contests run at once: once a
job for a contest of the user has come to its end, the row of the user is and remains the
projection of its settled entries and scored predictions. -/
theorem converges_of_run (drawHash : ℕ → ℕ → String) {userId contestId : ℕ} {s : Config World Task}
    {as : List (Act Call Platform.Tick)} (hentered : contestId ∈ entered s.shared.store.db userId)
    (hunread : ∀ t ∈ s.pending, Unread userId contestId t)
    (hbegun : contestId ∉ s.shared.completed)
    (h : (protocol drawHash).Along (Quiet drawHash userId) s as)
    (hdone : contestId ∈ ((protocol drawHash).run s as).shared.completed) :
    ((protocol drawHash).run s as).shared.store.userStats.find userId =
      some (statsData userId (settledEntries ((protocol drawHash).run s as).shared.store.db userId)
        (scoredPredictions ((protocol drawHash).run s as).shared.store userId)) := by
  have hstart : Settled (sourcesOf s.shared.store userId) userId contestId s.shared :=
    ⟨rfl, fun hdone => absurd hdone hbegun⟩
  have hend := ((inductive_settled drawHash hentered).run
    ⟨hstart, fun t ht => (hunread t ht).ahead⟩ h).1
  have hentries := congrArg Sources.entries hend.unchanged
  have hpredictions := congrArg Sources.predictions hend.unchanged
  refine (hend.completed hdone).trans ?_
  rw [← hentries, ← hpredictions]
  rfl

instance (drawHash : ℕ → ℕ → String) (userId : ℕ) (tick : Platform.Tick) (w : World) :
    ∀ t, Decidable (Quiet drawHash userId tick t w)
  | .platform _ => inferInstanceAs (Decidable (_ = _))
  | .readUsers _ | .readEntries _ | .readPredictions _ _ | .write _ _ _ => .isTrue trivial

/-- Two jobs for a settled contest overlap, with a lock that changes nothing in between. -/
def twoJobs : List (Act Call Platform.Tick) :=
  [.start (.recomputeForContest 1), .start (.recomputeForContest 1), .resume 0 ⟨400, false, false⟩,
    .resume 0 ⟨401, false, false⟩, .resume 1 ⟨402, false, false⟩, .start (.platform (.lock 1)),
    .resume 2 ⟨403, false, false⟩] ++ List.replicate 11 (.resume 0 ⟨404, false, false⟩)

def unprojected : Config World Task :=
  ⟨⟨⟨PrizePool.settledDb, fun _ => 7, .empty⟩, [], []⟩, []⟩

theorem converges_of_run_twoJobs :
    ((protocol PrizePool.noDraw).run unprojected twoJobs).shared.store.userStats.find 7 =
      some (statsData 7
        (settledEntries ((protocol PrizePool.noDraw).run unprojected twoJobs).shared.store.db 7)
        (scoredPredictions ((protocol PrizePool.noDraw).run unprojected twoJobs).shared.store 7)) := by
  have hentered : 1 ∈ entered unprojected.shared.store.db 7 := by decide +kernel
  have hbegun : 1 ∉ unprojected.shared.completed := List.not_mem_nil
  have hunread : ∀ t ∈ unprojected.pending, Unread 7 1 t := fun t ht => by cases ht
  exact converges_of_run PrizePool.noDraw hentered hunread hbegun (by decide +kernel)
    (by decide +kernel)

end Convergence

end StatsRuns
end FootballIQ
