import FootballIQ.FixtureSync
import FootballIQ.FormGuide
import FootballIQ.ReadThrough

/-!
# Rating jobs

A rating reads the references of a fixture's teams, asks the provider for their matches unless its
process remembers them, takes the active weights and writes the row. Each of these is a step of its
own; other ratings, syncs, changes of the weights and restarts come in between.
-/

namespace FootballIQ
namespace RatingRuns

open Transaction Relational Interleaving Difficulty FootballData FormGuide

section Model

def provider : String := "FOOTBALL_DATA"

/-- `CACHE_TTL_MS`. -/
def cacheTtl : ℕ := 1800000

structure Refs where
  home : String
  away : String
  deriving DecidableEq

/-- What a rating asks the provider for. -/
inductive Datum where
  | home | away | history
  deriving DecidableEq

def Refs.key (refs : Refs) : Datum → String
  | .home => "form:" ++ refs.home
  | .away => "form:" ++ refs.away
  | .history => "h2h-src:" ++ refs.home

def feedOf (feeds : Feeds) : Datum → List FdMatch
  | .home => feeds.home
  | .away => feeds.away
  | .history => feeds.history

/-- The columns of a difficulty beside the stars. -/
structure Breakdown where
  score : ℚ
  signals : Signals
  weightSetId : ℕ
  computedAt : DateTime

structure World where
  catalog : FixtureSync.World
  weightSets : Table Settings.WeightSet
  breakdowns : ℕ → Option Breakdown
  /-- What each process remembers. -/
  cache : ReadThrough.Cache (ℕ × String) (List FdMatch)
  /-- What the provider has answered, with the time. -/
  answered : List (String × List FdMatch × DateTime)
  /-- The requests that have failed, with the time. -/
  failures : List (String × DateTime)
  /-- The weight sets that the steps have found, with the time. -/
  history : List (DateTime × Table Settings.WeightSet)

inductive Stage where
  | gather
  | weigh (input : DifficultyInput)
  | write (input : DifficultyInput) (weightSet : Settings.WeightSet)
  | done

/-- A rating in flight; its requests may be outstanding after it has gone on without them. -/
structure Job where
  process : ℕ
  fixtureId : ℕ
  refs : Refs
  startedAt : DateTime
  found : Datum → Option (List FdMatch)
  outstanding : List Datum
  stage : Stage

/-- The calls of the settings panel on weight sets. -/
inductive WeightCall where
  | create (dto : Settings.CreateWeightSetBody)
  | activate (id : ℕ)

def WeightCall.op : WeightCall → Settings.Op
  | .create dto => .createWeightSet dto
  | .activate id => .activateWeightSet id

inductive Call where
  | sync (call : FixtureSync.Call)
  | configure (call : WeightCall)
  | computeForFixture (process fixtureId : ℕ)
  | restart (process : ℕ)

inductive Task where
  | sync (task : FixtureSync.Task)
  | configure (call : WeightCall)
  | computeForFixture (process fixtureId : ℕ)
  | request (process fixtureId : ℕ) (refs : Refs)
  | rating (job : Job)
  | restart (process : ℕ)

/-- The clock, the fixtures that a sync is answered with, and the outstanding request of a rating
that is answered or fails, if one does. -/
structure Input where
  tick : FixtureSync.Tick
  answer : Option (Datum × Option (List FdMatch))

/-- An id of the database; it is a UUID and so no reference of the provider. -/
def internalRef (id : ℕ) : String := "id-" ++ toString id

def refOf (teams : Mapping FixtureSync.Ref FixtureSync.Team) (teamId : ℕ) : String :=
  ((teams.refs.find? (fun r => (r.1.1, r.2) = (provider, teamId))).map (·.1.2)).getD
    (internalRef teamId)

/-- The fixture with the references of its teams. -/
def refsOf (catalog : FixtureSync.World) (fixtureId : ℕ) : Option Refs := do
  let _ ← catalog.db.fixtures.find fixtureId
  let sides ← catalog.sides.find? (fun s => s.fixtureId = fixtureId)
  return ⟨refOf catalog.teams sides.homeTeamId, refOf catalog.teams sides.awayTeamId⟩

/-- The active version with the highest number. -/
def newestActive (sets : Table Settings.WeightSet) : Option Settings.WeightSet :=
  (sets.findMany (fun weightSet => weightSet.isActive = true)).getLast?

/-- `Promise.all` has its three answers. -/
def Job.settle (j : Job) : Job :=
  match j.stage, j.found .home, j.found .away, j.found .history with
  | .gather, some home, some away, some history =>
    { j with stage := .weigh (inputOf j.refs.home j.refs.away ⟨home, away, history⟩) }
  | _, _, _, _ => j

/-- A failure leaves the rating without any data, whatever the other requests bring. -/
def Job.receive (d : Datum) (answer : Option (List FdMatch)) (j : Job) : Job :=
  match answer, j.stage with
  | some matchList, _ => Job.settle { j with
      found := Function.update j.found d (some matchList)
      outstanding := j.outstanding.erase d }
  | none, .gather => { j with outstanding := j.outstanding.erase d, stage := .weigh noInput }
  | none, _ => { j with outstanding := j.outstanding.erase d }

def World.receive (now : DateTime) (process : ℕ) (key : String) (answer : Option (List FdMatch))
    (w : World) : World :=
  match answer with
  | some matchList =>
    { w with
      cache := w.cache.set now cacheTtl (process, key) matchList
      answered := w.answered ++ [(key, matchList, now)] }
  | none => { w with failures := w.failures ++ [(key, now)] }

def World.rate (now : DateTime) (fixtureId : ℕ) (rating : Rating) (weightSetId : ℕ) (w : World) :
    World :=
  { w with
    catalog.db.fixtureDifficulties :=
      Settings.upsertStars fixtureId rating.stars w.catalog.db.fixtureDifficulties
    breakdowns := Function.update w.breakdowns fixtureId
      (some ⟨rating.score, rating.signals, weightSetId, now⟩) }

/-- The three lookups come before the first wait, so they see one state of the memory. -/
def begin_ (now : DateTime) (process fixtureId : ℕ) (refs : Refs) (w : World) : Job :=
  let found := fun d => w.cache.get now (process, refs.key d)
  Job.settle
    { process := process
      fixtureId := fixtureId
      refs := refs
      startedAt := now
      found := found
      outstanding := [.home, .away, .history].filter (fun d => found d = none)
      stage := .gather }

def proceed (now : DateTime) (j : Job) (w : World) : World × Option Task :=
  match j.stage with
  | .gather => (w, some (.rating j))
  | .weigh input =>
    match newestActive w.weightSets with
    | some weightSet => (w, some (.rating { j with stage := .write input weightSet }))
    | none => (w, some (.rating { j with stage := .done }))
  | .write input weightSet =>
    (w.rate now j.fixtureId (computeStars input (weightsOf weightSet.weights)) weightSet.id,
      some (.rating { j with stage := .done }))
  -- requests that are still out fill the memory when they are answered
  | .done => if j.outstanding = [] then (w, none) else (w, some (.rating j))

def World.see (now : DateTime) (w : World) : World :=
  { w with history := w.history ++ [(now, w.weightSets)] }

def act (input : Input) : Task → World → World × Option Task
  | .sync task, w =>
    ({ w with catalog := (FixtureSync.step input.tick task w.catalog).1 },
      (FixtureSync.step input.tick task w.catalog).2.map .sync)
  | .configure call, w =>
    ({ w with weightSets := (Settings.perform call.op ⟨w.catalog.db, w.weightSets⟩).weightSets },
      none)
  | .computeForFixture process fixtureId, w =>
    (w, (refsOf w.catalog fixtureId).map (.request process fixtureId))
  | .request process fixtureId refs, w =>
    (w, some (.rating (begin_ input.tick.now process fixtureId refs w)))
  | .rating j, w =>
    match input.answer with
    | some (d, answer) =>
      if d ∈ j.outstanding then
        (w.receive input.tick.now j.process (j.refs.key d) answer,
          some (.rating (j.receive d answer)))
      else (w, some (.rating j))
    | none => proceed input.tick.now j w
  | .restart process, w => ({ w with cache := w.cache.delWhere (fun k => k.1 = process) }, none)

def step (input : Input) (t : Task) (w : World) : World × Option Task :=
  act input t (w.see input.tick.now)

def init : Call → Task
  | .sync call => .sync (FixtureSync.init call)
  | .configure call => .configure call
  | .computeForFixture process fixtureId => .computeForFixture process fixtureId
  | .restart process => .restart process

def protocol : Protocol World Call Task Input := ⟨init, step⟩

/-- The world before the first rating is asked for. -/
def begins (catalog : FixtureSync.World) (weightSets : Table Settings.WeightSet) : World :=
  ⟨catalog, weightSets, fun _ => none, .empty, [], [], []⟩

end Model

section Alone
variable {catalog : FixtureSync.World} {weightSets : Table Settings.WeightSet} {refs : Refs}
  {weightSet : Settings.WeightSet}

theorem commit_computeForFixture {computeStars : List (String × ℚ) → ℤ} {fixtureId : ℕ}
    {f : Fixture} (hf : catalog.db.fixtures.find fixtureId = some f)
    (hactive : newestActive weightSets = some weightSet) :
    (commit (Settings.computeForFixture computeStars fixtureId) ⟨catalog.db, weightSets⟩).db =
      { catalog.db with
        fixtureDifficulties := Settings.upsertStars fixtureId (computeStars weightSet.weights)
          catalog.db.fixtureDifficulties } := by
  unfold newestActive at hactive
  have hok : Settings.computeForFixture computeStars fixtureId ⟨catalog.db, weightSets⟩ =
      .ok (some (computeStars weightSet.weights), ⟨{ catalog.db with
        fixtureDifficulties := Settings.upsertStars fixtureId (computeStars weightSet.weights)
          catalog.db.fixtureDifficulties }, weightSets⟩) := by
    unfold Settings.computeForFixture
    refine (bind_ok_iff _ _ _ _).2 ⟨_, _, (get_ok_iff _ _ _).2 ⟨rfl, rfl⟩, ?_⟩
    simp only [hf, hactive]
    rfl
  exact congrArg Settings.Store.db (commit_of_ok hok)

/-- A rating that nothing comes between, answered in order. -/
def alone (process fixtureId : ℕ) (feeds : Feeds) (tick : FixtureSync.Tick) :
    List (Act Call Input) :=
  [.start (.computeForFixture process fixtureId), .resume 0 ⟨tick, none⟩, .resume 0 ⟨tick, none⟩,
    .resume 0 ⟨tick, some (.home, some feeds.home)⟩,
    .resume 0 ⟨tick, some (.away, some feeds.away)⟩,
    .resume 0 ⟨tick, some (.history, some feeds.history)⟩, .resume 0 ⟨tick, none⟩,
    .resume 0 ⟨tick, none⟩]

/-- It writes what the difficulty job writes in one go. -/
theorem run_alone {process fixtureId : ℕ} {feeds : Feeds} {tick : FixtureSync.Tick}
    (hrefs : refsOf catalog fixtureId = some refs)
    (hactive : newestActive weightSets = some weightSet) :
    (protocol.run ⟨begins catalog weightSets, []⟩
        (alone process fixtureId feeds tick)).shared.catalog.db =
      (commit (Settings.computeForFixture (engine (inputOf refs.home refs.away feeds)) fixtureId)
        ⟨catalog.db, weightSets⟩).db := by
  have hfixture : ∃ f, catalog.db.fixtures.find fixtureId = some f := by
    simp only [refsOf, Option.bind_eq_bind, Option.bind_eq_some_iff] at hrefs
    obtain ⟨f, hf, _⟩ := hrefs
    exact ⟨f, hf⟩
  obtain ⟨f, hf⟩ := hfixture
  rw [commit_computeForFixture hf hactive]
  simp [Protocol.run, Protocol.next, protocol, init, step, act, alone, begins, World.see,
    World.receive, World.rate, begin_, proceed, Job.settle, Job.receive,
    ReadThrough.Cache.get, ReadThrough.Cache.empty, hrefs, hactive, engine]

end Alone

section Growth
variable {w w' w'' : World}

/-- Nothing is taken back: the catalog grows, the weights of a version stay, and what was answered
or found is kept. -/
structure Grows (w w' : World) : Prop where
  catalog : FixtureSync.Grows w.catalog w'.catalog
  weights : Table.Keeps Settings.WeightSet.weights w.weightSets w'.weightSets
  answered : w.answered ⊆ w'.answered
  failures : w.failures ⊆ w'.failures
  history : w.history ⊆ w'.history

theorem Grows.refl (w : World) : Grows w w :=
  ⟨FixtureSync.Grows.refl _, Table.Keeps.refl _ _, List.Subset.refl _, List.Subset.refl _,
    List.Subset.refl _⟩

theorem Grows.trans (h : Grows w w') (h' : Grows w' w'') : Grows w w'' :=
  ⟨h.catalog.trans h'.catalog, h.weights.trans h'.weights, List.Subset.trans h.answered h'.answered,
    List.Subset.trans h.failures h'.failures, List.Subset.trans h.history h'.history⟩

theorem grows_see (now : DateTime) (w : World) : Grows w (w.see now) :=
  ⟨FixtureSync.Grows.refl _, Table.Keeps.refl _ _, List.Subset.refl _, List.Subset.refl _,
    List.subset_append_left _ _⟩

theorem keeps_perform (call : WeightCall) (s : Settings.Store) :
    Table.Keeps Settings.WeightSet.weights s.weightSets
      (Settings.perform call.op s).weightSets := by
  have hweights : ∀ b (r : Settings.WeightSet),
      (Settings.Versioned.withActive b r).weights = r.weights := by
    intro b r
    rfl
  cases call with
  | create dto => exact Settings.keeps_insertVersion hweights _ _ _ _
  | activate id =>
    rcases Settings.commit_moveActive Settings.Store.weightSets Settings.putWeightSets
      "WEIGHT_SET_NOT_FOUND" id s with hc | hc
    · rw [WeightCall.op, Settings.perform, Settings.activateWeightSet, hc]
      exact Table.Keeps.refl _ _
    · rw [WeightCall.op, Settings.perform, Settings.activateWeightSet, hc]
      exact Settings.keeps_activateVersion hweights _ id

theorem grows_rate (now : DateTime) (fixtureId : ℕ) (rating : Rating) (weightSetId : ℕ)
    (w : World) : Grows w (w.rate now fixtureId rating weightSetId) := by
  exact ⟨FixtureSync.SameKeys.grows ⟨rfl, rfl, rfl, rfl, rfl, rfl⟩, Table.Keeps.refl _ _,
    List.Subset.refl _, List.Subset.refl _, List.Subset.refl _⟩

theorem grows_receive (now : DateTime) (process : ℕ) (key : String)
    (answer : Option (List FdMatch)) (w : World) : Grows w (w.receive now process key answer) := by
  cases answer with
  | none =>
    exact ⟨FixtureSync.Grows.refl _, Table.Keeps.refl _ _, List.Subset.refl _,
      List.subset_append_left _ _, List.Subset.refl _⟩
  | some matchList =>
    exact ⟨FixtureSync.Grows.refl _, Table.Keeps.refl _ _, List.subset_append_left _ _,
      List.Subset.refl _, List.Subset.refl _⟩

theorem grows_proceed (now : DateTime) (j : Job) (w : World) : Grows w (proceed now j w).1 := by
  unfold proceed
  split
  · exact Grows.refl w
  · split <;> exact Grows.refl w
  · exact grows_rate _ _ _ _ w
  · split_ifs <;> exact Grows.refl w

theorem grows_act (input : Input) (t : Task) (w : World) :
    Grows w (act input t w).1 := by
  cases t with
  | sync task =>
    exact ⟨FixtureSync.grows_step _ _ _, Table.Keeps.refl _ _, List.Subset.refl _,
      List.Subset.refl _, List.Subset.refl _⟩
  | configure call =>
    exact ⟨FixtureSync.Grows.refl _, keeps_perform call ⟨w.catalog.db, w.weightSets⟩,
      List.Subset.refl _, List.Subset.refl _, List.Subset.refl _⟩
  | rating j =>
    simp only [act]
    split
    · split_ifs
      · exact grows_receive _ _ _ _ w
      · exact Grows.refl w
    · exact grows_proceed _ _ w
  | computeForFixture _ _ | request _ _ _ => exact Grows.refl w
  | restart process =>
    exact ⟨FixtureSync.Grows.refl _, Table.Keeps.refl _ _, List.Subset.refl _, List.Subset.refl _,
      List.Subset.refl _⟩

theorem grows_step (input : Input) (t : Task) (w : World) : Grows w (step input t w).1 :=
  (grows_see input.tick.now w).trans (grows_act input t (w.see input.tick.now))

end Growth

section Rows
variable {fixtureId : ℕ} {stars : ℤ} {t : Table FixtureDifficulty} {d : FixtureDifficulty}

theorem mem_upsertStars (h : d ∈ (Settings.upsertStars fixtureId stars t).rows) :
    d.fixtureId = fixtureId ∧ d.stars = stars ∨ d.fixtureId ≠ fixtureId ∧ d ∈ t.rows := by
  unfold Settings.upsertStars at h
  split_ifs at h with hnone
  · rcases List.mem_append.1 h with hold | hnew
    · exact Or.inr ⟨(t.find_eq_none_iff fixtureId).1 hnone d hold, hold⟩
    · rw [List.mem_singleton.1 hnew]
      exact Or.inl ⟨rfl, rfl⟩
  · by_cases hid : d.fixtureId = fixtureId
    · obtain ⟨d', _, rfl⟩ := (Table.mem_updateWhere _ _ _ _ _).1 h
      split_ifs at hid ⊢ with hkey
      · exact Or.inl ⟨hid, rfl⟩
      · exact absurd hid hkey
    · exact Or.inr ⟨hid, Table.mem_of_mem_update _ _ _ h hid⟩

/-- The stars of a row change, an override does not. -/
theorem keeps_upsertStars (fixtureId : ℕ) (stars : ℤ) (t : Table FixtureDifficulty) :
    Table.Keeps FixtureDifficulty.overrideStars t (Settings.upsertStars fixtureId stars t) := by
  unfold Settings.upsertStars
  split_ifs
  · exact fun d hd => ⟨d, List.mem_append_left _ hd, rfl, rfl⟩
  · exact Table.keeps_updateWhere FixtureDifficulty.overrideStars t
      (fun d => Row.id d = fixtureId) (fun d => { d with stars := stars }) (fun _ => rfl)
      (fun _ => rfl)

/-- The syncs leave the difficulties alone. -/
theorem difficulties_sync (tick : FixtureSync.Tick) (task : FixtureSync.Task)
    (catalog : FixtureSync.World) :
    (FixtureSync.step tick task catalog).1.db.fixtureDifficulties =
      catalog.db.fixtureDifficulties := by
  have hcreated : ∀ (loop : FixtureSync.Loop) (canonical : FixtureSync.CanonicalFixture)
      (next : ℕ → FixtureSync.Stage) (o : Option (ℕ × FixtureSync.World)),
      (∀ r ∈ o, r.2.db = catalog.db) →
      (FixtureSync.created loop canonical catalog next o).1.db.fixtureDifficulties =
        catalog.db.fixtureDifficulties := by
    intro loop canonical next o ho
    cases o with
    | none => rfl
    | some r => exact congrArg Db.fixtureDifficulties (ho r rfl)
  cases task with
  | lock provider =>
    simp only [FixtureSync.step]
    split_ifs <;> rfl
  | fetch provider days =>
    simp only [FixtureSync.step]
    split <;> rfl
  | next loop =>
    simp only [FixtureSync.step]
    split <;> rfl
  | finalize fixtureId result =>
    simp only [FixtureSync.step]
    split <;> rfl
  | finalizeTx fixtureId result =>
    rcases commit_cases (Results.finalizeTx tick.now fixtureId result) catalog.db with
      ⟨u, db, hok, hc⟩ | ⟨_, _, hc⟩
    · obtain ⟨_, hdb⟩ := (Results.finalizeTx_ok_iff _ _ _ _ (u, db)).1 hok
      simp only [FixtureSync.step, hc, show db = _ from hdb]
    · simp only [FixtureSync.step, hc]
  | upsert loop canonical stage =>
    cases stage with
    | findRef | announce _ => rfl
    | findLeague _ | findHome _ _ | findAway _ _ _ =>
      simp only [FixtureSync.step, FixtureSync.upsertStep]
      split <;> rfl
    | createLeague ref =>
      refine hcreated _ _ _ _ (fun r hr => ?_)
      obtain ⟨_, _, rfl⟩ := Option.map_eq_some_iff.1 hr
      rfl
    | createHome ref leagueId | createAway ref leagueId homeTeamId =>
      refine hcreated _ _ _ _ (fun r hr => ?_)
      obtain ⟨_, _, rfl⟩ := Option.map_eq_some_iff.1 hr
      rfl
    | write ref leagueId homeTeamId awayTeamId =>
      cases ref with
      | some fixtureId =>
        simp only [FixtureSync.step, FixtureSync.upsertStep]
        split
        · next _ db hok =>
          obtain ⟨_, hdb⟩ := (Db.updateFixture_ok_iff _ _ _ _ _).1 hok
          rw [← show _ = db from hdb]
        · rfl
      | none =>
        simp only [FixtureSync.step, FixtureSync.upsertStep]
        split
        · next id db hok =>
          obtain ⟨_, rfl⟩ := Results.createSynced_ok hok
          rfl
        · rfl

end Rows

end RatingRuns
end FootballIQ
