import FootballIQ.Interleaving
import FootballIQ.Results

/-!
# Finality of results under concurrent writers

The admin, the poller and the fixture sync write the same fixture row. A run
interleaves the steps of any number of their calls. A finalized result stays
what it is along a run exactly when every write that reaches a finalized fixture
repeats the stored columns.
-/

namespace FootballIQ
namespace ResultFeed

open Transaction Relational Interleaving Results

/-- The calls that write fixtures. -/
inductive Call where
  | finalize (fixtureId : ℕ) (result : FinalizeResultRequest)
  | upsertFixture (provider : String) (canonical : CanonicalFixture)
  deriving DecidableEq

/-- A call in flight: not yet begun, or after its read. -/
inductive Task where
  | ready (call : Call)
  | finalizeTx (fixtureId : ℕ) (result : FinalizeResultRequest)
  | updateSynced (fixtureId : ℕ) (canonical : CanonicalFixture)
  | createSynced (provider : String) (canonical : CanonicalFixture)
  | announce (fixtureId : ℕ)
  deriving DecidableEq

def step (now : DateTime) (t : Task) (db : Db) : Db × Option Task :=
  match t with
  | .ready (.finalize fixtureId result) =>
    match finalizeRead fixtureId db with
    | .ok _ => (db, some (.finalizeTx fixtureId result))
    | .error _ => (db, none)
  | .ready (.upsertFixture provider canonical) =>
    match findRef db provider canonical.providerRef with
    | some ref => (db, some (.updateSynced ref.fixtureId canonical))
    | none => (db, some (.createSynced provider canonical))
  | .finalizeTx fixtureId result => (commit (finalizeTx now fixtureId result) db, none)
  | .updateSynced fixtureId canonical => (commit (updateSynced fixtureId canonical) db, none)
  | .createSynced provider canonical =>
    match createSynced provider canonical db with
    | .ok (fixtureId, db') => (db', some (.announce fixtureId))
    | .error _ => (db, none)
  | .announce fixtureId => (commit (Db.emit (.fixtureSynced fixtureId)) db, none)

def protocol : Protocol Db Call Task DateTime := ⟨.ready, step⟩

/-- The columns that the scorers read. -/
structure StoredResult where
  homeGoals : Option ℕ
  awayGoals : Option ℕ
  htHomeGoals : Option ℕ
  htAwayGoals : Option ℕ
  firstToScore : Option FirstToScore
  deriving DecidableEq

def storedResult (f : Fixture) : StoredResult :=
  ⟨f.homeGoals, f.awayGoals, f.htHomeGoals, f.htAwayGoals, f.firstToScore⟩

/-- Every finalized fixture is still finalized, with the same result columns. -/
def KeepsFinal (db db' : Db) : Prop :=
  ∀ k f, db.fixtures.find k = some f → f.resultFinalizedAt ≠ none →
    ∃ f', db'.fixtures.find k = some f' ∧ f'.resultFinalizedAt ≠ none ∧
      storedResult f' = storedResult f

theorem KeepsFinal.refl (db : Db) : KeepsFinal db db := fun _ f hf hfin => ⟨f, hf, hfin, rfl⟩

theorem KeepsFinal.trans (db db' db'' : Db) (h : KeepsFinal db db') (h' : KeepsFinal db' db'') :
    KeepsFinal db db'' := by
  intro k f hf hfin
  obtain ⟨f', hf', hfin', hres⟩ := h k f hf hfin
  obtain ⟨f'', hf'', hfin'', hres'⟩ := h' k f' hf' hfin'
  exact ⟨f'', hf'', hfin'', hres'.trans hres⟩

/-- In a run from `c`, a result that is final at some point never changes afterwards. -/
def WriteOnce (c : Config Db Task) (as : List (Act Call DateTime)) : Prop :=
  ∀ bs cs ds, as = bs ++ cs ++ ds →
    KeepsFinal (protocol.run c bs).shared (protocol.run c (bs ++ cs)).shared

/-- The write of a step, if it hits a finalized fixture, repeats what is stored there. -/
def RepeatsFinal (_now : DateTime) (t : Task) (db : Db) : Prop :=
  match t with
  | .finalizeTx fixtureId result =>
    ∀ f, db.fixtures.find fixtureId = some f → f.resultFinalizedAt ≠ none →
      storedResult f = ⟨some result.homeGoals, some result.awayGoals, some result.htHomeGoals,
        some result.htAwayGoals, some result.firstToScore⟩
  | .updateSynced fixtureId canonical =>
    ∀ f, db.fixtures.find fixtureId = some f → f.resultFinalizedAt ≠ none →
      f.homeGoals = canonical.homeGoals ∧ f.awayGoals = canonical.awayGoals ∧
        f.htHomeGoals = canonical.htHomeGoals ∧ f.htAwayGoals = canonical.htAwayGoals
  | _ => True

section Steps

theorem keepsFinal_update_iff {db : Db} {k : ℕ} {g : Fixture → Fixture}
    {hg : ∀ f, Row.id (g f) = Row.id f} {db' : Db}
    (hdb : db'.fixtures = db.fixtures.update k g hg) :
    KeepsFinal db db' ↔ ∀ f, db.fixtures.find k = some f → f.resultFinalizedAt ≠ none →
      (g f).resultFinalizedAt ≠ none ∧ storedResult (g f) = storedResult f := by
  constructor
  · intro h f hf hfin
    obtain ⟨f', hf', hfin', hres⟩ := h k f hf hfin
    rw [hdb, Table.find_update_self _ _ _ hf] at hf'
    cases hf'
    exact ⟨hfin', hres⟩
  · intro h j f hf hfin
    by_cases hj : j = k
    · subst hj
      refine ⟨g f, ?_, h f hf hfin⟩
      rw [hdb, Table.find_update_self _ _ _ hf]
    · refine ⟨f, ?_, hfin, rfl⟩
      rw [hdb, Table.find_update_of_ne _ _ _ hj, hf]

theorem keepsFinal_insert {db db' : Db} {mk : ℕ → Fixture} (hmk : ∀ k, Row.id (mk k) = k)
    (hdb : db'.fixtures = db.fixtures.insert mk hmk) : KeepsFinal db db' := by
  intro k f hf hfin
  exact ⟨f, by rw [hdb, Table.find_insert_of_some _ _ _ hf], hfin, rfl⟩

theorem keepsFinal_of_eq {db db' : Db} (hdb : db'.fixtures = db.fixtures) : KeepsFinal db db' := by
  intro k f hf hfin
  exact ⟨f, by rw [hdb, hf], hfin, rfl⟩

/-- One step keeps every final result exactly when its write repeats it. -/
theorem step_keepsFinal_iff (now : DateTime) (t : Task) (db : Db) :
    KeepsFinal db (step now t db).1 ↔ RepeatsFinal now t db := by
  cases t with
  | ready call =>
    refine iff_of_true ?_ trivial
    cases call with
    | finalize fixtureId result =>
      cases h : finalizeRead fixtureId db <;> simp only [step, h] <;> exact KeepsFinal.refl db
    | upsertFixture provider canonical =>
      cases h : findRef db provider canonical.providerRef <;> simp only [step, h] <;>
        exact KeepsFinal.refl db
  | finalizeTx fixtureId result =>
    refine (keepsFinal_update_iff (fixtures_finalizeTx now fixtureId result db)).trans ?_
    refine forall₃_congr (fun f _ _ => ?_)
    simp [finalized, storedResult, eq_comm]
  | updateSynced fixtureId canonical =>
    refine (keepsFinal_update_iff (fixtures_updateSynced fixtureId canonical db)).trans ?_
    refine forall₃_congr (fun f _ hfin => ?_)
    simp [synced, storedResult, hfin, eq_comm]
  | createSynced provider canonical =>
    refine iff_of_true ?_ trivial
    cases h : createSynced provider canonical db with
    | error e =>
      simp only [step, h]
      exact KeepsFinal.refl db
    | ok r =>
      obtain ⟨id, db'⟩ := r
      simp only [step, h]
      obtain ⟨_, rfl⟩ := createSynced_ok h
      exact keepsFinal_insert (id_newFixture canonical) rfl
  | announce fixtureId => exact iff_of_true (keepsFinal_of_eq rfl) trivial

end Steps

/-- Along every interleaving a final result is write-once exactly when no step
writes other columns over a finalized fixture. -/
theorem writeOnce_iff (c : Config Db Task) (as : List (Act Call DateTime)) :
    WriteOnce c as ↔ protocol.Along RepeatsFinal c as := by
  refine (protocol.along_iff_earlier_later KeepsFinal.refl KeepsFinal.trans c as).symm.trans ?_
  constructor
  · exact Protocol.Along.mono protocol (fun now t db => (step_keepsFinal_iff now t db).1)
  · exact Protocol.Along.mono protocol (fun now t db => (step_keepsFinal_iff now t db).2)

section Overwrite

/-- A fixture known to the provider, before its kickoff. -/
def openFixture : Db :=
  { Db.empty with
    fixtures := ⟨[⟨1, 100, .live, none, none, none, none, none, none⟩], by decide⟩
    fixtureProviderRefs := [⟨1, "FOOTBALL_DATA", "m1"⟩] }

/-- The admin finalizes 2-1; a sync of the same date then writes the provider's 2-0. -/
def syncAfterFinal : List (Act Call DateTime) :=
  [.start (.finalize 1 ⟨2, 1, 1, 0, .home⟩), .resume 0 200, .resume 0 200,
    .start (.upsertFixture "FOOTBALL_DATA" ⟨"m1", 100, .finished, some 2, some 0, some 1, some 0⟩),
    .resume 0 300, .resume 0 300]

/-- The sync overwrites a result that was already final. -/
theorem sync_overwrites_final : ¬ WriteOnce ⟨openFixture, []⟩ syncAfterFinal := by
  intro h
  obtain ⟨f', hf', _, hres⟩ := h (syncAfterFinal.take 3) (syncAfterFinal.drop 3) [] rfl 1
    ⟨1, 100, .finished, some 2, some 1, some 1, some 0, some .home, some 200⟩ (by decide)
    (by decide)
  have hrow : (protocol.run ⟨openFixture, []⟩ syncAfterFinal).shared.fixtures.find 1 =
      some ⟨1, 100, .finished, some 2, some 0, some 1, some 0, some .home, some 200⟩ := by decide
  rw [show syncAfterFinal.take 3 ++ syncAfterFinal.drop 3 = syncAfterFinal from rfl, hrow] at hf'
  cases hf'
  cases hres

end Overwrite

end ResultFeed
end FootballIQ
