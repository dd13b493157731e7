import FootballIQ.Interleaving
import FootballIQ.Mapping
import FootballIQ.Results

/-!
# The fixture sync

A sync asks the provider for the fixtures of a day and upserts them one by one. League,
teams and fixture are each looked up by their reference at the provider and inserted with
the reference if nothing is found; every statement is a step of its own, and the key on
references fails the later of two inserts. Admins sync single days, the scheduler sweeps
ten of them under a lock, and results are finalized meanwhile.
-/

namespace FootballIQ
namespace FixtureSync

open Transaction Relational Interleaving Results

section Model

/-- A provider and one of its references. -/
abbrev Ref : Type := String × String

structure League where
  id : ℕ
  name : String
  country : String
  deriving DecidableEq

instance : Row League := ⟨League.id⟩

structure Team where
  id : ℕ
  name : String
  shortName : Option String
  logoUrl : Option String
  deriving DecidableEq

instance : Row Team := ⟨Team.id⟩

structure CanonicalTeam where
  providerRef : String
  name : String
  shortName : Option String
  logoUrl : Option String
  deriving DecidableEq

structure CanonicalFixture extends Results.CanonicalFixture where
  leagueRef : String
  leagueName : Option String
  leagueCountry : Option String
  homeTeam : CanonicalTeam
  awayTeam : CanonicalTeam
  deriving DecidableEq

/-- The columns of a fixture that are written with its row and never again. -/
structure Sides where
  fixtureId : ℕ
  leagueId : ℕ
  homeTeamId : ℕ
  awayTeamId : ℕ
  deriving DecidableEq

/-- What a call of `syncDate` has returned, with what the provider answered it. -/
structure Report where
  provider : String
  payload : List CanonicalFixture
  created : ℕ
  updated : ℕ
  deriving DecidableEq

/-- The database with the tables of the catalog, and the key that the scheduler locks. -/
structure World where
  db : Db
  leagues : Mapping Ref League
  teams : Mapping Ref Team
  sides : List Sides
  lockedUntil : Option DateTime
  reports : List Report
  deriving DecidableEq

/-- Where `syncDate` stands; `days` is what the sweep has left after this one. -/
structure Loop where
  provider : String
  payload : List CanonicalFixture
  rest : List CanonicalFixture
  created : ℕ
  updated : ℕ
  days : ℕ
  deriving DecidableEq

/-- Where `upsertFixture` stands, with the fixture that the first read has found. -/
inductive Stage where
  | findRef
  | findLeague (existingRef : Option ℕ)
  | createLeague (existingRef : Option ℕ)
  | findHome (existingRef : Option ℕ) (leagueId : ℕ)
  | createHome (existingRef : Option ℕ) (leagueId : ℕ)
  | findAway (existingRef : Option ℕ) (leagueId homeTeamId : ℕ)
  | createAway (existingRef : Option ℕ) (leagueId homeTeamId : ℕ)
  | write (existingRef : Option ℕ) (leagueId homeTeamId awayTeamId : ℕ)
  | announce (fixtureId : ℕ)
  deriving DecidableEq

inductive Call where
  | syncDate (provider : String)
  | autoSync (provider : String)
  | finalize (fixtureId : ℕ) (result : FinalizeResultRequest)
  deriving DecidableEq

inductive Task where
  | lock (provider : String)
  | fetch (provider : String) (days : ℕ)
  | next (loop : Loop)
  | upsert (loop : Loop) (canonical : CanonicalFixture) (stage : Stage)
  | finalize (fixtureId : ℕ) (result : FinalizeResultRequest)
  | finalizeTx (fixtureId : ℕ) (result : FinalizeResultRequest)
  deriving DecidableEq

/-- The clock of a step, and the fixtures that the provider answers with, if it does. -/
structure Tick where
  now : DateTime
  fixtures : Option (List CanonicalFixture)
  deriving DecidableEq

def init : Call → Task
  | .syncDate provider => .fetch provider 0
  | .autoSync provider => .lock provider
  | .finalize fixtureId result => .finalize fixtureId result

def lockTtl : ℕ := 600000

def daysAhead : ℕ := 10

/-- A day that fails or is done leaves the sweep to the days after it. -/
def nextDay (provider : String) : ℕ → Option Task
  | 0 => none
  | days + 1 => some (.fetch provider days)

def newLeague (canonical : CanonicalFixture) (id : ℕ) : League where
  id := id
  name := canonical.leagueName.getD ("League " ++ canonical.leagueRef)
  country := canonical.leagueCountry.getD "Unknown"

theorem id_newLeague (canonical : CanonicalFixture) (id : ℕ) :
    Row.id (newLeague canonical id) = id := rfl

def newTeam (team : CanonicalTeam) (id : ℕ) : Team where
  id := id
  name := team.name
  shortName := team.shortName
  logoUrl := team.logoUrl

theorem id_newTeam (team : CanonicalTeam) (id : ℕ) : Row.id (newTeam team id) = id := rfl

def createLeague (provider : String) (canonical : CanonicalFixture) (w : World) :
    Option (ℕ × World) :=
  (w.leagues.tryCreate (provider, canonical.leagueRef) (newLeague canonical)
    (id_newLeague canonical)).map (fun r => (r.1, { w with leagues := r.2 }))

def createTeam (provider : String) (team : CanonicalTeam) (w : World) : Option (ℕ × World) :=
  (w.teams.tryCreate (provider, team.providerRef) (newTeam team) (id_newTeam team)).map
    (fun r => (r.1, { w with teams := r.2 }))

/-- An insert that goes through leads on; one that fails ends the day. -/
def created (loop : Loop) (canonical : CanonicalFixture) (w : World) (next : ℕ → Stage) :
    Option (ℕ × World) → World × Option Task
  | some (id, w') => (w', some (.upsert loop canonical (next id)))
  | none => (w, nextDay loop.provider loop.days)

def upsertStep (loop : Loop) (canonical : CanonicalFixture) (stage : Stage) (w : World) :
    World × Option Task :=
  match stage with
  | .findRef =>
    (w, some (.upsert loop canonical (.findLeague
      ((findRef w.db loop.provider canonical.providerRef).map FixtureProviderRef.fixtureId))))
  | .findLeague ref =>
    match w.leagues.lookup (loop.provider, canonical.leagueRef) with
    | some leagueId => (w, some (.upsert loop canonical (.findHome ref leagueId)))
    | none => (w, some (.upsert loop canonical (.createLeague ref)))
  | .createLeague ref =>
    created loop canonical w (.findHome ref) (createLeague loop.provider canonical w)
  | .findHome ref leagueId =>
    match w.teams.lookup (loop.provider, canonical.homeTeam.providerRef) with
    | some teamId => (w, some (.upsert loop canonical (.findAway ref leagueId teamId)))
    | none => (w, some (.upsert loop canonical (.createHome ref leagueId)))
  | .createHome ref leagueId =>
    created loop canonical w (.findAway ref leagueId)
      (createTeam loop.provider canonical.homeTeam w)
  | .findAway ref leagueId homeTeamId =>
    match w.teams.lookup (loop.provider, canonical.awayTeam.providerRef) with
    | some teamId => (w, some (.upsert loop canonical (.write ref leagueId homeTeamId teamId)))
    | none => (w, some (.upsert loop canonical (.createAway ref leagueId homeTeamId)))
  | .createAway ref leagueId homeTeamId =>
    created loop canonical w (.write ref leagueId homeTeamId)
      (createTeam loop.provider canonical.awayTeam w)
  | .write (some fixtureId) _ _ _ =>
    match updateSynced fixtureId canonical.toCanonicalFixture w.db with
    | .ok (_, db) => ({ w with db := db }, some (.next { loop with updated := loop.updated + 1 }))
    | .error _ => (w, nextDay loop.provider loop.days)
  | .write none leagueId homeTeamId awayTeamId =>
    match createSynced loop.provider canonical.toCanonicalFixture w.db with
    | .ok (fixtureId, db) =>
      ({ w with db := db, sides := w.sides ++ [⟨fixtureId, leagueId, homeTeamId, awayTeamId⟩] },
        some (.upsert loop canonical (.announce fixtureId)))
    | .error _ => (w, nextDay loop.provider loop.days)
  | .announce fixtureId =>
    ({ w with db := commit (Db.emit (.fixtureSynced fixtureId)) w.db },
      some (.next { loop with created := loop.created + 1 }))

def step (tick : Tick) (t : Task) (w : World) : World × Option Task :=
  match t with
  | .lock provider =>
    if ∃ t ∈ w.lockedUntil, tick.now < t then (w, none)
    else ({ w with lockedUntil := some (tick.now + lockTtl) },
      some (.fetch provider (daysAhead - 1)))
  | .fetch provider days =>
    match tick.fixtures with
    | some fixtures => (w, some (.next ⟨provider, fixtures, fixtures, 0, 0, days⟩))
    | none => (w, nextDay provider days)
  | .next loop =>
    match loop.rest with
    | [] =>
      ({ w with reports := w.reports ++
          [⟨loop.provider, loop.payload, loop.created, loop.updated⟩] },
        nextDay loop.provider loop.days)
    | canonical :: rest => (w, some (.upsert { loop with rest := rest } canonical .findRef))
  | .upsert loop canonical stage => upsertStep loop canonical stage w
  | .finalize fixtureId result =>
    match finalizeRead fixtureId w.db with
    | .ok _ => (w, some (.finalizeTx fixtureId result))
    | .error _ => (w, none)
  | .finalizeTx fixtureId result =>
    ({ w with db := commit (finalizeTx tick.now fixtureId result) w.db }, none)

def protocol : Protocol World Call Task Tick := ⟨init, step⟩

end Model

section Effects
variable {w w' w'' : World}

/-- The catalog grows by rows with their references; the fixtures it has keep their sides. -/
structure Grows (w w' : World) : Prop where
  leagues : Mapping.Grows w.leagues w'.leagues
  teams : Mapping.Grows w.teams w'.teams
  fixtures : ∃ refs ss, w'.db.fixtureProviderRefs = w.db.fixtureProviderRefs ++ refs ∧
    w'.sides = w.sides ++ ss ∧
    w'.db.fixtures.rows.map Row.id =
      w.db.fixtures.rows.map Row.id ++ refs.map FixtureProviderRef.fixtureId ∧
    ss.map Sides.fixtureId = refs.map FixtureProviderRef.fixtureId

/-- The fixtures whose events are in the outbox. -/
def announced (db : Db) : List ℕ :=
  db.outbox.filterMap (fun event =>
    match event with
    | .fixtureSynced fixtureId => some fixtureId
    | _ => none)

/-- No row, no reference and no event of a fixture has been added. -/
structure SameKeys (w w' : World) : Prop where
  leagues : w'.leagues = w.leagues
  teams : w'.teams = w.teams
  refs : w'.db.fixtureProviderRefs = w.db.fixtureProviderRefs
  ids : w'.db.fixtures.rows.map Row.id = w.db.fixtures.rows.map Row.id
  sides : w'.sides = w.sides
  announced : announced w'.db = announced w.db

theorem SameKeys.refl (w : World) : SameKeys w w := ⟨rfl, rfl, rfl, rfl, rfl, rfl⟩

theorem SameKeys.grows (h : SameKeys w w') : Grows w w' where
  leagues := h.leagues ▸ Mapping.Grows.refl _
  teams := h.teams ▸ Mapping.Grows.refl _
  fixtures := ⟨[], [], by simp [h.refs, h.ids, h.sides]⟩

theorem Grows.refl (w : World) : Grows w w := (SameKeys.refl w).grows

theorem Grows.trans (h : Grows w w') (h' : Grows w' w'') : Grows w w'' := by
  obtain ⟨refs, ss, hrefs, hsides, hids, hss⟩ := h.fixtures
  obtain ⟨refs', ss', hrefs', hsides', hids', hss'⟩ := h'.fixtures
  refine ⟨h.leagues.trans h'.leagues, h.teams.trans h'.teams, refs ++ refs', ss ++ ss', ?_, ?_, ?_, ?_⟩
  · rw [hrefs', hrefs, List.append_assoc]
  · rw [hsides', hsides, List.append_assoc]
  · rw [hids', hids, List.map_append, List.append_assoc]
  · rw [List.map_append, List.map_append, hss, hss']

/-- No fixture and no reference to one has been added. -/
def SameFixtures (db db' : Db) : Prop :=
  db'.fixtureProviderRefs = db.fixtureProviderRefs ∧
    db'.fixtures.rows.map Row.id = db.fixtures.rows.map Row.id ∧ announced db' = announced db

theorem SameFixtures.sameKeys {db : Db} (h : SameFixtures w.db db) :
    SameKeys w { w with db := db } := ⟨rfl, rfl, h.1, h.2.1, rfl, h.2.2⟩

theorem sameFixtures_update {db : Db} {id : ℕ} {f : Fixture → Fixture}
    (hf : ∀ r, Row.id (f r) = Row.id r) {db' : Db}
    (hrefs : db'.fixtureProviderRefs = db.fixtureProviderRefs)
    (hdb : db'.fixtures = db.fixtures.update id f hf) (hevents : announced db' = announced db) :
    SameFixtures db db' := by
  refine ⟨hrefs, ?_, hevents⟩
  rw [hdb]
  exact Table.same_update hf (fun r _ _ => hf r)

theorem sameFixtures_updateSynced {fixtureId : ℕ} {canonical : Results.CanonicalFixture} {db : Db}
    {r : PUnit × Db} (h : updateSynced fixtureId canonical db = .ok r) : SameFixtures db r.2 := by
  obtain ⟨_, hr⟩ := (Db.updateFixture_ok_iff _ _ _ _ _).1 h
  rw [← hr]
  exact sameFixtures_update (id_synced canonical) rfl rfl rfl

theorem sameFixtures_finalizeTx (now : DateTime) (fixtureId : ℕ) (result : FinalizeResultRequest)
    (db : Db) : SameFixtures db (commit (finalizeTx now fixtureId result) db) := by
  rcases commit_cases (finalizeTx now fixtureId result) db with ⟨u, db', hok, hc⟩ | ⟨_, _, hc⟩
  · obtain ⟨_, hdb⟩ := (finalizeTx_ok_iff now fixtureId result db (u, db')).1 hok
    rw [hc, show db' = _ from hdb]
    refine sameFixtures_update (id_finalized now result) rfl rfl ?_
    simp [announced]
  · rw [hc]
    exact ⟨rfl, rfl, rfl⟩

/-- What a step does to the catalog. -/
theorem step_cases (tick : Tick) (t : Task) (w : World) :
    SameKeys w (step tick t w).1 ∨
      (∃ loop canonical fixtureId, t = .upsert loop canonical (.announce fixtureId)) ∨
      (∃ loop canonical ref id m, t = .upsert loop canonical (.createLeague ref) ∧
        w.leagues.tryCreate (loop.provider, canonical.leagueRef) (newLeague canonical)
          (id_newLeague canonical) = some (id, m) ∧
        step tick t w =
          ({ w with leagues := m }, some (.upsert loop canonical (.findHome ref id)))) ∨
      (∃ loop canonical team stage next id m, t = .upsert loop canonical stage ∧
        w.teams.tryCreate (loop.provider, team.providerRef) (newTeam team) (id_newTeam team) =
          some (id, m) ∧
        step tick t w = ({ w with teams := m }, some (.upsert loop canonical next))) ∨
      ∃ loop canonical leagueId homeTeamId awayTeamId db,
        t = .upsert loop canonical (.write none leagueId homeTeamId awayTeamId) ∧
        createSynced loop.provider canonical.toCanonicalFixture w.db =
          .ok (w.db.fixtures.fresh, db) ∧
        step tick t w = ({ w with
            db := db
            sides := w.sides ++ [⟨w.db.fixtures.fresh, leagueId, homeTeamId, awayTeamId⟩] },
          some (.upsert loop canonical (.announce w.db.fixtures.fresh))) := by
  cases t with
  | lock provider =>
    simp only [step]
    split_ifs
    · exact Or.inl (SameKeys.refl w)
    · exact Or.inl ⟨rfl, rfl, rfl, rfl, rfl, rfl⟩
  | fetch provider days =>
    simp only [step]
    split <;> exact Or.inl (SameKeys.refl w)
  | next loop =>
    simp only [step]
    split
    · exact Or.inl ⟨rfl, rfl, rfl, rfl, rfl, rfl⟩
    · exact Or.inl (SameKeys.refl w)
  | finalize fixtureId result =>
    simp only [step]
    split <;> exact Or.inl (SameKeys.refl w)
  | finalizeTx fixtureId result =>
    exact Or.inl (sameFixtures_finalizeTx tick.now fixtureId result w.db).sameKeys
  | upsert loop canonical stage =>
    cases stage with
    | findRef => exact Or.inl (SameKeys.refl w)
    | findLeague ref | findHome ref leagueId | findAway ref leagueId homeTeamId =>
      simp only [step, upsertStep]
      split <;> exact Or.inl (SameKeys.refl w)
    | createLeague ref =>
      simp only [step, upsertStep, createLeague]
      cases hm : w.leagues.tryCreate (loop.provider, canonical.leagueRef) (newLeague canonical)
        (id_newLeague canonical) with
      | none => exact Or.inl (SameKeys.refl w)
      | some r => exact Or.inr (Or.inr (Or.inl ⟨loop, canonical, ref, r.1, r.2, rfl, hm, rfl⟩))
    | createHome ref leagueId =>
      simp only [step, upsertStep, createTeam]
      cases hm : w.teams.tryCreate (loop.provider, canonical.homeTeam.providerRef)
        (newTeam canonical.homeTeam) (id_newTeam canonical.homeTeam) with
      | none => exact Or.inl (SameKeys.refl w)
      | some r =>
        exact Or.inr (Or.inr (Or.inr (Or.inl ⟨loop, canonical, _, _, _, r.1, r.2, rfl, hm, rfl⟩)))
    | createAway ref leagueId homeTeamId =>
      simp only [step, upsertStep, createTeam]
      cases hm : w.teams.tryCreate (loop.provider, canonical.awayTeam.providerRef)
        (newTeam canonical.awayTeam) (id_newTeam canonical.awayTeam) with
      | none => exact Or.inl (SameKeys.refl w)
      | some r =>
        exact Or.inr (Or.inr (Or.inr (Or.inl ⟨loop, canonical, _, _, _, r.1, r.2, rfl, hm, rfl⟩)))
    | write ref leagueId homeTeamId awayTeamId =>
      cases ref with
      | some fixtureId =>
        simp only [step, upsertStep]
        split
        · next _ db hok => exact Or.inl (sameFixtures_updateSynced hok).sameKeys
        · exact Or.inl (SameKeys.refl w)
      | none =>
        simp only [step, upsertStep]
        split
        · next id db hok =>
          obtain ⟨rfl, _⟩ := createSynced_ok hok
          exact Or.inr (Or.inr (Or.inr (Or.inr ⟨loop, canonical, leagueId, homeTeamId, awayTeamId,
            db, rfl, hok, rfl⟩)))
        · exact Or.inl (SameKeys.refl w)
    | announce fixtureId => exact Or.inr (Or.inl ⟨loop, canonical, fixtureId, rfl⟩)

/-- Every step of every call grows the catalog. -/
theorem grows_step (tick : Tick) (t : Task) (w : World) : Grows w (step tick t w).1 := by
  rcases step_cases tick t w with hsame | ⟨loop, canonical, fixtureId, rfl⟩ |
    ⟨loop, canonical, ref, id, m, _, hm, hstep⟩ |
    ⟨loop, canonical, team, stage, next, id, m, _, hm, hstep⟩ |
    ⟨loop, canonical, leagueId, homeTeamId, awayTeamId, db, _, hok, hstep⟩
  · exact hsame.grows
  · exact ⟨Mapping.Grows.refl _, Mapping.Grows.refl _, [], [],
      (List.append_nil w.db.fixtureProviderRefs).symm, (List.append_nil w.sides).symm,
      (List.append_nil (w.db.fixtures.rows.map Row.id)).symm, rfl⟩
  · rw [hstep]
    exact ⟨(Mapping.grows_tryCreate hm).1, Mapping.Grows.refl _, [], [], by simp⟩
  · rw [hstep]
    exact ⟨Mapping.Grows.refl _, (Mapping.grows_tryCreate hm).1, [], [], by simp⟩
  · rw [hstep]
    obtain ⟨_, rfl⟩ := createSynced_ok hok
    refine ⟨Mapping.Grows.refl _, Mapping.Grows.refl _,
      [⟨w.db.fixtures.fresh, loop.provider, canonical.providerRef⟩],
      [⟨w.db.fixtures.fresh, leagueId, homeTeamId, awayTeamId⟩], rfl, rfl, ?_, rfl⟩
    rw [Table.rows_insert, List.map_append]
    rfl

theorem findRef_grows (h : Grows w w') {provider providerRef : String} {ref : FixtureProviderRef}
    (hr : findRef w.db provider providerRef = some ref) :
    findRef w'.db provider providerRef = some ref := by
  obtain ⟨refs, _, hrefs, _⟩ := h.fixtures
  unfold findRef at hr ⊢
  rw [hrefs, List.find?_append, hr, Option.some_or]

end Effects

end FixtureSync
end FootballIQ
