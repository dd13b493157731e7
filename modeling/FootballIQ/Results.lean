import FootballIQ.MarketScorers

/-!
# Finalized results and the fixture sync

`finalize` checks `resultFinalizedAt` in a read and writes in a later
transaction. The provider sync looks its mapping row up first and then writes
whatever the provider says; it never looks at `resultFinalizedAt`.
-/

namespace FootballIQ
namespace Results

open Transaction Relational

structure FinalizeResultRequest where
  homeGoals : ℕ
  awayGoals : ℕ
  htHomeGoals : ℕ
  htAwayGoals : ℕ
  firstToScore : FirstToScore
  deriving DecidableEq

section Finalize

/-- Committed or rolled back, the fixtures are those with the one row rewritten. -/
theorem fixtures_updateFixture (fixtureId : ℕ) (g : Fixture → Fixture)
    (hg : ∀ f, Row.id (g f) = Row.id f) (db : Db) :
    (commit (Db.updateFixture fixtureId g hg) db).fixtures =
      db.fixtures.update fixtureId g hg := by
  rcases commit_cases (Db.updateFixture fixtureId g hg) db with ⟨a, db', hok, hc⟩ | ⟨e, herr, hc⟩
  · obtain ⟨_, hdb⟩ := (Db.updateFixture_ok_iff db _ _ _ (a, db')).1 hok
    rw [hc, show db' = _ from hdb.symm]
  · by_cases hex : db.fixtures.find fixtureId = none
    · rw [hc, Table.update_of_none _ _ _ hex]
    · have hok := (Db.updateFixture_ok_iff db fixtureId g hg ⟨⟨⟩, _⟩).2 ⟨hex, rfl⟩
      rw [herr] at hok
      cases hok

theorem refs_updateFixture (fixtureId : ℕ) (g : Fixture → Fixture)
    (hg : ∀ f, Row.id (g f) = Row.id f) (db : Db) :
    (commit (Db.updateFixture fixtureId g hg) db).fixtureProviderRefs =
      db.fixtureProviderRefs := by
  rcases commit_cases (Db.updateFixture fixtureId g hg) db with ⟨a, db', hok, hc⟩ | ⟨e, _, hc⟩
  · obtain ⟨_, hdb⟩ := (Db.updateFixture_ok_iff db _ _ _ (a, db')).1 hok
    rw [hc, show db' = _ from hdb.symm]
  · rw [hc]

def finalizeRead (fixtureId : ℕ) : Tx Failure Db PUnit := do
  let db ← get
  let fixture ← orThrow (db.fixtures.find fixtureId) (.notFound "FIXTURE_NOT_FOUND" none)
  throwIf (fixture.resultFinalizedAt ≠ none) (.conflict "RESULT_ALREADY_FINAL"
    (some "Result corrections require the dedicated rescore flow (audited)"))

def finalized (now : DateTime) (result : FinalizeResultRequest) (f : Fixture) : Fixture :=
  { f with
    status := .finished
    homeGoals := some result.homeGoals
    awayGoals := some result.awayGoals
    htHomeGoals := some result.htHomeGoals
    htAwayGoals := some result.htAwayGoals
    firstToScore := some result.firstToScore
    resultFinalizedAt := some now }

theorem id_finalized (now : DateTime) (result : FinalizeResultRequest) (f : Fixture) :
    Row.id (finalized now result f) = Row.id f := rfl

def finalizeTx (now : DateTime) (fixtureId : ℕ) (result : FinalizeResultRequest) :
    Tx Failure Db PUnit := do
  Db.updateFixture fixtureId (finalized now result) (id_finalized now result)
  Db.emit (.matchResultFinalized fixtureId)

theorem finalizeRead_ok {fixtureId : ℕ} {db : Db} {r : PUnit × Db}
    (h : finalizeRead fixtureId db = .ok r) :
    (∃ f, db.fixtures.find fixtureId = some f ∧ f.resultFinalizedAt = none) ∧ r.2 = db := by
  simp only [finalizeRead, bind_ok_iff, get_ok_iff, orThrow_ok_iff, throwIf_ok_iff] at h
  obtain ⟨_, _, ⟨rfl, rfl⟩, f, _, ⟨hf, rfl⟩, hnone, hr⟩ := h
  exact ⟨⟨f, hf, not_not.1 hnone⟩, hr.symm⟩

/-- The transaction writes whatever it finds: it commits on every existing fixture. -/
theorem finalizeTx_ok_iff (now : DateTime) (fixtureId : ℕ) (result : FinalizeResultRequest)
    (db : Db) (r : PUnit × Db) :
    finalizeTx now fixtureId result db = .ok r ↔ db.fixtures.find fixtureId ≠ none ∧
      r.2 = { db with
        fixtures := db.fixtures.update fixtureId (finalized now result) (id_finalized now result)
        outbox := db.outbox ++ [.matchResultFinalized fixtureId] } := by
  simp only [finalizeTx, bind_ok_iff, Db.updateFixture_ok_iff, Db.emit_ok_iff]
  constructor
  · rintro ⟨_, _, ⟨hex, rfl⟩, hr⟩
    exact ⟨hex, hr.symm⟩
  · rintro ⟨hex, hr⟩
    exact ⟨⟨⟩, _, ⟨hex, rfl⟩, hr.symm⟩

/-- Committed or rolled back, the fixtures are those with the result written. -/
theorem fixtures_finalizeTx (now : DateTime) (fixtureId : ℕ) (result : FinalizeResultRequest)
    (db : Db) : (commit (finalizeTx now fixtureId result) db).fixtures =
      db.fixtures.update fixtureId (finalized now result) (id_finalized now result) := by
  rcases commit_cases (finalizeTx now fixtureId result) db with ⟨a, db', hok, hc⟩ | ⟨e, herr, hc⟩
  · obtain ⟨_, hdb⟩ := (finalizeTx_ok_iff now fixtureId result db (a, db')).1 hok
    rw [hc, show db' = _ from hdb]
  · by_cases hex : db.fixtures.find fixtureId = none
    · rw [hc, Table.update_of_none _ _ _ hex]
    · have hok := (finalizeTx_ok_iff now fixtureId result db ⟨⟨⟩, _⟩).2 ⟨hex, rfl⟩
      rw [herr] at hok
      cases hok

end Finalize

section Sync

/-- A provider fixture in canonical form, with the fields that the upsert writes. -/
structure CanonicalFixture where
  providerRef : String
  kickoffAt : DateTime
  status : FixtureStatus
  homeGoals : Option ℕ
  awayGoals : Option ℕ
  htHomeGoals : Option ℕ
  htAwayGoals : Option ℕ
  deriving DecidableEq

def findRef (db : Db) (provider providerRef : String) : Option FixtureProviderRef :=
  db.fixtureProviderRefs.find? (fun ref => ref.provider = provider ∧ ref.providerRef = providerRef)

/-- The `data` of the upsert, laid over an existing fixture. -/
def synced (canonical : CanonicalFixture) (f : Fixture) : Fixture :=
  { f with
    kickoffAt := canonical.kickoffAt
    status := canonical.status
    homeGoals := canonical.homeGoals
    awayGoals := canonical.awayGoals
    htHomeGoals := canonical.htHomeGoals
    htAwayGoals := canonical.htAwayGoals }

theorem id_synced (canonical : CanonicalFixture) (f : Fixture) :
    Row.id (synced canonical f) = Row.id f := rfl

def newFixture (canonical : CanonicalFixture) (id : ℕ) : Fixture where
  id := id
  kickoffAt := canonical.kickoffAt
  status := canonical.status
  homeGoals := none
  awayGoals := none
  htHomeGoals := none
  htAwayGoals := none
  firstToScore := none
  resultFinalizedAt := none

theorem id_newFixture (canonical : CanonicalFixture) (id : ℕ) :
    Row.id (newFixture canonical id) = id := rfl

/-- The write step for a mapped fixture. -/
def updateSynced (fixtureId : ℕ) (canonical : CanonicalFixture) : Tx Failure Db PUnit :=
  Db.updateFixture fixtureId (synced canonical) (id_synced canonical)

/-- The write step for an unmapped fixture: the row with its mapping row. -/
def createSynced (provider : String) (canonical : CanonicalFixture) : Tx Failure Db ℕ := do
  let db ← get
  throwIf (findRef db provider canonical.providerRef ≠ none) .uniqueViolation
  set { db with
    fixtures := db.fixtures.insert (newFixture canonical) (id_newFixture canonical)
    fixtureProviderRefs := db.fixtureProviderRefs ++
      [FixtureProviderRef.mk db.fixtures.fresh provider canonical.providerRef] }
  return db.fixtures.fresh

theorem fixtures_updateSynced (fixtureId : ℕ) (canonical : CanonicalFixture) (db : Db) :
    (commit (updateSynced fixtureId canonical) db).fixtures =
      db.fixtures.update fixtureId (synced canonical) (id_synced canonical) :=
  fixtures_updateFixture fixtureId (synced canonical) (id_synced canonical) db

theorem createSynced_ok {provider : String} {canonical : CanonicalFixture} {db db' : Db} {id : ℕ}
    (h : createSynced provider canonical db = .ok (id, db')) :
    id = db.fixtures.fresh ∧ db' = { db with
      fixtures := db.fixtures.insert (newFixture canonical) (id_newFixture canonical)
      fixtureProviderRefs := db.fixtureProviderRefs ++
        [FixtureProviderRef.mk db.fixtures.fresh provider canonical.providerRef] } := by
  simp only [createSynced, bind_ok_iff, get_ok_iff, throwIf_ok_iff, set_ok_iff, pure_ok_iff] at h
  obtain ⟨_, _, ⟨rfl, rfl⟩, _, _, ⟨_, rfl⟩, _, _, rfl, rfl, rfl⟩ := h
  exact ⟨rfl, rfl⟩

end Sync

end Results
end FootballIQ
