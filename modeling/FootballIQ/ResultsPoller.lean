import FootballIQ.Results
import FootballIQ.Saga

/-!
# The results poller

A poll reads its candidates once and then takes them one by one: it asks the
provider for the fixture and finalizes what the provider reports as finished. A
round that fails is caught, and the poll goes on with the next candidate.
-/

namespace FootballIQ
namespace ResultsPoller

open Transaction Relational Results

/-- A fixture as the provider answers for it. -/
structure RemoteFixture extends CanonicalFixture where
  firstToScore : Option FirstToScore
  deriving DecidableEq

section Finalize

def finalize (now : DateTime) (fixtureId : ℕ) (result : FinalizeResultRequest) :
    Saga Failure Db PUnit := do
  Saga.atomically (finalizeRead fixtureId)
  Saga.atomically (finalizeTx now fixtureId result)

/-- The row of a fixture after a call that finalizes it, refused where it is final. -/
def finalizedOnce (now : DateTime) (result : FinalizeResultRequest) (f : Fixture) : Fixture :=
  if f.resultFinalizedAt = none then finalized now result f else f

variable (now : DateTime) (fixtureId : ℕ) (result : FinalizeResultRequest) (db : Db)

theorem finalizeRead_of_open {f : Fixture} (hf : db.fixtures.find fixtureId = some f)
    (hopen : f.resultFinalizedAt = none) : finalizeRead fixtureId db = .ok (⟨⟩, db) := by
  have hread : (get : Tx Failure Db Db) db = .ok (db, db) := rfl
  have hfound : (orThrow (db.fixtures.find fixtureId) (.notFound "FIXTURE_NOT_FOUND" none) :
      Tx Failure Db Fixture) db = .ok (f, db) := (orThrow_ok_iff _ _ _ _ _).2 ⟨hf, rfl⟩
  unfold finalizeRead
  rw [bind_of_ok hread, bind_of_ok hfound]
  exact (throwIf_ok_iff _ _ _ _).2 ⟨not_not.2 hopen, rfl⟩

/-- A finalization is refused, or it writes the result over the row. -/
theorem exec_finalize_cases :
    ((∃ f, db.fixtures.find fixtureId = some f ∧ f.resultFinalizedAt = none) ∧
        Saga.exec (finalize now fixtureId result) db = { db with
          fixtures := db.fixtures.update fixtureId (finalized now result)
            (id_finalized now result)
          outbox := db.outbox ++ [.matchResultFinalized fixtureId] }) ∨
      ((∀ f, db.fixtures.find fixtureId = some f → f.resultFinalizedAt ≠ none) ∧
        Saga.exec (finalize now fixtureId result) db = db) := by
  rcases Saga.exec_bind_cases (finalizeRead fixtureId)
    (fun _ => Saga.atomically (finalizeTx now fixtureId result)) db with
    ⟨u, db₁, hread, hexec⟩ | ⟨⟨e, herr⟩, hexec⟩
  · apply Or.inl
    obtain ⟨⟨f, hf, hopen⟩, hdb⟩ := finalizeRead_ok hread
    change db₁ = db at hdb
    have htx := (finalizeTx_ok_iff now fixtureId result db ⟨⟨⟩, _⟩).2
      ⟨Option.ne_none_iff_exists'.2 ⟨f, hf⟩, rfl⟩
    have hrun : Saga.exec (Saga.atomically (finalizeTx now fixtureId result)) db = _ :=
      congrArg Prod.snd (Saga.atomically_of_ok htx)
    exact ⟨⟨f, hf, hopen⟩, hexec.trans (hdb ▸ hrun)⟩
  · apply Or.inr
    refine ⟨fun f hf hopen => ?_, hexec⟩
    rw [finalizeRead_of_open fixtureId db hf hopen] at herr
    cases herr

theorem find_finalize (k : ℕ) :
    (Saga.exec (finalize now fixtureId result) db).fixtures.find k =
      (db.fixtures.find k).map
        (fun f => if k = fixtureId then finalizedOnce now result f else f) := by
  rcases exec_finalize_cases now fixtureId result db with ⟨⟨f₀, hf₀, hopen⟩, hexec⟩ |
    ⟨hclosed, hexec⟩
  · rw [hexec, Table.find_update]
    cases hf : db.fixtures.find k with
    | none => rfl
    | some f =>
      by_cases hk : k = fixtureId
      · have hff : f = f₀ := Option.some.inj ((hk ▸ hf).symm.trans hf₀)
        simp only [Option.map_some, if_pos hk, finalizedOnce, if_pos (hff ▸ hopen)]
      · simp only [Option.map_some, if_neg hk]
  · rw [hexec]
    cases hf : db.fixtures.find k with
    | none => rfl
    | some f =>
      by_cases hk : k = fixtureId
      · have hfinal := hclosed f (hk ▸ hf)
        simp only [Option.map_some, if_pos hk, finalizedOnce, if_neg hfinal]
      · simp only [Option.map_some, if_neg hk]

theorem refs_finalize : (Saga.exec (finalize now fixtureId result) db).fixtureProviderRefs =
    db.fixtureProviderRefs := by
  rcases exec_finalize_cases now fixtureId result db with ⟨_, hexec⟩ | ⟨_, hexec⟩
  · rw [hexec]
  · rw [hexec]

end Finalize

section Candidates

def refsAt (db : Db) (provider : String) (fixtureId : ℕ) : List String :=
  (db.fixtureProviderRefs.filter (fun ref => ref.fixtureId = fixtureId ∧
    ref.provider = provider)).map (·.providerRef)

/-- The `where` of a poll at `now`: not final, kicked off 105 minutes ago, not over in the
status column, and known to the provider. -/
def Pollable (provider : String) (now : DateTime) (db : Db) (f : Fixture) : Prop :=
  f.resultFinalizedAt = none ∧ f.kickoffAt + 105 * 60 * 1000 ≤ now ∧
    (f.status = .scheduled ∨ f.status = .live) ∧ refsAt db provider f.id ≠ []

instance (provider : String) (now : DateTime) (db : Db) (f : Fixture) :
    Decidable (Pollable provider now db f) := by
  unfold Pollable
  infer_instance

structure Candidate where
  fixture : Fixture
  providerRefs : List String
  deriving DecidableEq

/-- At most 25 of the pollable fixtures, with their references at the provider. The query
gives no order: the table's own stands for it. -/
def candidates (provider : String) (now : DateTime) (db : Db) : List Candidate :=
  ((db.fixtures.findMany (Pollable provider now db)).take 25).map
    (fun f => ⟨f, refsAt db provider f.id⟩)

end Candidates

section Poll

def markLive (f : Fixture) : Fixture := { f with status := .live }

theorem id_markLive (f : Fixture) : Row.id (markLive f) = Row.id f := rfl

/-- What the poller finalizes from an answer; nothing if the first scorer is unknown. -/
def autoResult (remote : RemoteFixture) : Option FinalizeResultRequest :=
  match remote.status, remote.homeGoals, remote.awayGoals, remote.firstToScore with
  | .finished, some homeGoals, some awayGoals, some firstToScore =>
    some ⟨homeGoals, awayGoals, remote.htHomeGoals.getD 0, remote.htAwayGoals.getD 0,
      firstToScore⟩
  | _, _, _, _ => none

def pollRemote (now : DateTime) (fixture : Fixture) (remote : RemoteFixture) :
    Saga Failure Db PUnit := do
  if remote.status = .live ∧ fixture.status ≠ .live then
    Saga.atomically (Db.updateFixture fixture.id markLive id_markLive)
  match autoResult remote with
  | some result => finalize now fixture.id result
  | none => return ⟨⟩

/-- The first reference, where there is one and it is not empty. -/
def usableRef (refs : List String) : Option String := refs.head?.filter (· ≠ "")

/-- The answer of the provider for a candidate, asked by its usable reference. -/
def answer (getFixture : String → Option RemoteFixture) (candidate : Candidate) :
    Option RemoteFixture :=
  (usableRef candidate.providerRefs).bind getFixture

/-- One round of the loop. -/
def pollCandidate (now : DateTime) (getFixture : String → Option RemoteFixture)
    (candidate : Candidate) : Saga Failure Db PUnit :=
  match answer getFixture candidate with
  | some remote => pollRemote now candidate.fixture remote
  | none => return ⟨⟩

/-- The rounds of a poll, each caught: what a round has committed stays. -/
def rounds (now : DateTime) (getFixture : String → Option RemoteFixture)
    (candidates : List Candidate) (db : Db) : Db :=
  candidates.foldl (fun db candidate => Saga.exec (pollCandidate now getFixture candidate) db) db

/-- `getFixture` stands for the provider, with no value where it has none or fails. -/
def poll (provider : String) (now : DateTime) (getFixture : String → Option RemoteFixture)
    (db : Db) : Db :=
  rounds now getFixture (candidates provider now db) db

end Poll

section Rows
variable (now : DateTime) (getFixture : String → Option RemoteFixture)

/-- The row of a candidate after its round. -/
def polled (candidate : Candidate) (f : Fixture) : Fixture :=
  match answer getFixture candidate with
  | none => f
  | some remote =>
    match autoResult remote with
    | some result => finalizedOnce now result f
    | none => if remote.status = .live ∧ candidate.fixture.status ≠ .live then markLive f else f

theorem status_of_autoResult {remote : RemoteFixture} {result : FinalizeResultRequest}
    (h : autoResult remote = some result) : remote.status = .finished := by
  unfold autoResult at h
  split at h
  · assumption
  · cases h

/-- Only a candidate that goes live has its status written before the finalization. -/
theorem exec_pollRemote (fixture : Fixture) (remote : RemoteFixture) (db : Db) :
    Saga.exec (pollRemote now fixture remote) db =
      match autoResult remote with
      | some result => Saga.exec (finalize now fixture.id result) db
      | none =>
        if remote.status = .live ∧ fixture.status ≠ .live then
          commit (Db.updateFixture fixture.id markLive id_markLive) db
        else db := by
  unfold pollRemote
  by_cases hlive : remote.status = .live ∧ fixture.status ≠ .live
  · have hnone : autoResult remote = none := by
      rw [Option.eq_none_iff_forall_ne_some]
      intro result hresult
      rw [status_of_autoResult hresult] at hlive
      cases hlive.1
    simp only [hnone, if_pos hlive]
    rcases Saga.exec_bind_cases (Db.updateFixture fixture.id markLive id_markLive)
      (fun _ => (pure ⟨⟩ : Saga Failure Db PUnit)) db with ⟨u, db', hok, hexec⟩ |
      ⟨⟨e, herr⟩, hexec⟩
    · rw [commit_of_ok hok]
      exact hexec
    · rw [commit_of_error herr]
      exact hexec
  · simp only [if_neg hlive]
    cases autoResult remote with
    | none => rfl
    | some result => rfl

theorem find_pollCandidate (candidate : Candidate) (db : Db) (k : ℕ) :
    (Saga.exec (pollCandidate now getFixture candidate) db).fixtures.find k =
      (db.fixtures.find k).map
        (fun f => if k = candidate.fixture.id then polled now getFixture candidate f else f) := by
  unfold pollCandidate polled
  cases answer getFixture candidate with
  | none =>
    simp only [ite_self, Option.map_id']
    rfl
  | some remote =>
    simp only [exec_pollRemote]
    cases autoResult remote with
    | some result => exact find_finalize now candidate.fixture.id result db k
    | none =>
      by_cases hlive : remote.status = .live ∧ candidate.fixture.status ≠ .live
      · simp only [if_pos hlive, fixtures_updateFixture, Table.find_update]
      · simp only [if_neg hlive, ite_self, Option.map_id']

theorem refs_pollCandidate (candidate : Candidate) (db : Db) :
    (Saga.exec (pollCandidate now getFixture candidate) db).fixtureProviderRefs =
      db.fixtureProviderRefs := by
  unfold pollCandidate
  cases answer getFixture candidate with
  | none => rfl
  | some remote =>
    simp only [exec_pollRemote]
    cases autoResult remote with
    | some result => exact refs_finalize now candidate.fixture.id result db
    | none =>
      by_cases hlive : remote.status = .live ∧ candidate.fixture.status ≠ .live
      · simp only [if_pos hlive]
        exact refs_updateFixture candidate.fixture.id markLive id_markLive db
      · simp only [if_neg hlive]

theorem refs_rounds (cs : List Candidate) (db : Db) :
    (rounds now getFixture cs db).fixtureProviderRefs = db.fixtureProviderRefs := by
  induction cs generalizing db with
  | nil => rfl
  | cons c cs ih => exact (ih _).trans (refs_pollCandidate now getFixture c db)

theorem find_rounds_of_ne {cs : List Candidate} {k : ℕ} (hk : ∀ c ∈ cs, c.fixture.id ≠ k)
    (db : Db) : (rounds now getFixture cs db).fixtures.find k = db.fixtures.find k := by
  induction cs generalizing db with
  | nil => rfl
  | cons c cs ih =>
    have hc : k ≠ c.fixture.id := fun heq => hk c List.mem_cons_self heq.symm
    have hrest := ih (fun c' hc' => hk c' (List.mem_cons_of_mem c hc'))
      (Saga.exec (pollCandidate now getFixture c) db)
    rw [find_pollCandidate] at hrest
    simp only [if_neg hc, Option.map_id'] at hrest
    exact hrest

/-- Every candidate has one round, and the other rounds leave its row alone. -/
theorem find_rounds_of_mem {cs : List Candidate} (hnd : (cs.map (·.fixture.id)).Nodup)
    {c : Candidate} (hc : c ∈ cs) (db : Db) :
    (rounds now getFixture cs db).fixtures.find c.fixture.id =
      (db.fixtures.find c.fixture.id).map (polled now getFixture c) := by
  induction cs generalizing db with
  | nil => cases hc
  | cons c' cs ih =>
    rw [List.map_cons, List.nodup_cons] at hnd
    have hround := find_pollCandidate now getFixture c' db c.fixture.id
    rcases List.mem_cons.1 hc with rfl | hmem
    · have hothers : ∀ q ∈ cs, q.fixture.id ≠ c.fixture.id :=
        fun q hq heq => hnd.1 (List.mem_map.2 ⟨q, hq, heq⟩)
      have hrest := find_rounds_of_ne now getFixture hothers
        (Saga.exec (pollCandidate now getFixture c) db)
      simp only [if_true] at hround
      exact hrest.trans hround
    · have hne : c.fixture.id ≠ c'.fixture.id := fun heq => hnd.1 (List.mem_map.2 ⟨c, hmem, heq⟩)
      simp only [if_neg hne, Option.map_id'] at hround
      rw [← hround]
      exact ih hnd.2 hmem _

end Rows

section Polls
variable {provider : String} {now : DateTime} {db : Db}

theorem nodup_candidates (provider : String) (now : DateTime) (db : Db) :
    ((candidates provider now db).map (·.fixture.id)).Nodup := by
  have hsub : ((db.fixtures.findMany (Pollable provider now db)).take 25).Sublist
      db.fixtures.rows := (List.take_sublist _ _).trans List.filter_sublist
  unfold candidates
  rw [List.map_map]
  exact (hsub.map Row.id).nodup db.fixtures.nodup_ids

theorem mem_candidates {c : Candidate} (hc : c ∈ candidates provider now db) :
    db.fixtures.find c.fixture.id = some c.fixture ∧ Pollable provider now db c.fixture ∧
      c.providerRefs = refsAt db provider c.fixture.id := by
  obtain ⟨f, hf, rfl⟩ := List.mem_map.1 hc
  obtain ⟨hrow, hpoll⟩ := (db.fixtures.mem_findMany _ f).1 (List.mem_of_mem_take hf)
  exact ⟨(Table.find_eq_some_iff _ _ _).2 ⟨hrow, rfl⟩, hpoll, rfl⟩

/-- With at most 25 pollable fixtures, all of them are candidates. -/
theorem candidate_of_pollable {f : Fixture} (hf : f ∈ db.fixtures.rows)
    (hpoll : Pollable provider now db f)
    (hfew : db.fixtures.count (Pollable provider now db) ≤ 25) :
    ⟨f, refsAt db provider f.id⟩ ∈ candidates provider now db := by
  unfold candidates
  rw [List.take_of_length_le hfew]
  exact List.mem_map.2 ⟨f, (db.fixtures.mem_findMany _ f).2 ⟨hf, hpoll⟩, rfl⟩

theorem find_poll_of_candidate (getFixture : String → Option RemoteFixture) {c : Candidate}
    (hc : c ∈ candidates provider now db) :
    (poll provider now getFixture db).fixtures.find c.fixture.id =
      some (polled now getFixture c c.fixture) := by
  unfold poll
  rw [find_rounds_of_mem now getFixture (nodup_candidates provider now db) hc,
    (mem_candidates hc).1, Option.map_some]

theorem find_poll_of_ne (getFixture : String → Option RemoteFixture) {k : ℕ}
    (hk : ∀ c ∈ candidates provider now db, c.fixture.id ≠ k) :
    (poll provider now getFixture db).fixtures.find k = db.fixtures.find k :=
  find_rounds_of_ne now getFixture hk db

theorem refs_poll (getFixture : String → Option RemoteFixture) :
    (poll provider now getFixture db).fixtureProviderRefs = db.fixtureProviderRefs :=
  refs_rounds now getFixture (candidates provider now db) db

end Polls

end ResultsPoller
end FootballIQ
