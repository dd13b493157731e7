import FootballIQ.LockTime
import FootballIQ.ResultsPoller

/-!
# Finished matches and the candidates of a poll

The poller looks for fixtures that are scheduled or live, and the fixture sync copies
the provider's status into the same column. A match is picked up as long as no sync
writes another status over a fixture that has no final result: from then on no poll
considers it, and only a manual entry finalizes it.
-/

namespace FootballIQ
namespace ResultPickup

open Transaction Relational Results ResultsPoller LockTime

/-- A sweep is a list of upserts, each of which commits on its own. -/
inductive Event where
  | sync (canonical : CanonicalFixture)
  | poll (now : DateTime) (getFixture : String → Option RemoteFixture)
  | finalize (now : DateTime) (fixtureId : ℕ) (result : FinalizeResultRequest)

/-- One job or call, run to completion, at the current provider. -/
def perform (provider : String) : Event → Db → Db
  | .sync canonical => commit (upsertFixture provider canonical)
  | .poll now getFixture => poll provider now getFixture
  | .finalize now fixtureId result => Saga.exec (finalize now fixtureId result)

/-- The answer reports the match as finished, with its score and first scorer. -/
structure Complete (remote : RemoteFixture) : Prop where
  status : remote.status = .finished
  homeGoals : remote.homeGoals ≠ none
  awayGoals : remote.awayGoals ≠ none
  firstToScore : remote.firstToScore ≠ none

/-- Whenever the provider reports a fixture without a result as finished, 105 minutes after its
kickoff, the fixture passes the filter of a poll, and a poll with at most 25 candidates
finalizes it as reported. -/
def PickedUp (provider : String) (db : Db) : Prop :=
  ∀ now getFixture k f ref remote, db.fixtures.find k = some f →
    usableRef (refsAt db provider k) = some ref → f.resultFinalizedAt = none →
    f.kickoffAt + 105 * 60 * 1000 ≤ now → getFixture ref = some remote → Complete remote →
    Pollable provider now db f ∧
      (db.fixtures.count (Pollable provider now db) ≤ 25 →
        ∃ f', (poll provider now getFixture db).fixtures.find k = some f' ∧
          f'.resultFinalizedAt = some now ∧ f'.homeGoals = remote.homeGoals ∧
          f'.awayGoals = remote.awayGoals ∧ f'.firstToScore = remote.firstToScore)

def OpenStatus (status : FixtureStatus) : Prop := status = .scheduled ∨ status = .live

instance (status : FixtureStatus) : Decidable (OpenStatus status) := by
  unfold OpenStatus
  infer_instance

/-- No sync writes a status other than scheduled or live onto a fixture of the provider that
has no final result. -/
def KeepsStatus (provider : String) (e : Event) (db : Db) : Prop :=
  match e with
  | .sync canonical =>
    match findRef db provider canonical.providerRef with
    | some ref =>
      ∀ f, db.fixtures.find ref.fixtureId = some f → f.resultFinalizedAt = none →
        usableRef (refsAt db provider ref.fixtureId) ≠ none → OpenStatus canonical.status
    | none => canonical.providerRef ≠ "" → OpenStatus canonical.status
  | _ => True

/-- Mapping rows refer to fixtures. -/
def Linked (db : Db) : Prop :=
  ∀ ref ∈ db.fixtureProviderRefs, db.fixtures.find ref.fixtureId ≠ none

/-- Every fixture of the provider without a final result has an open status. -/
def Watched (provider : String) (db : Db) : Prop :=
  ∀ k f, db.fixtures.find k = some f → f.resultFinalizedAt = none →
    usableRef (refsAt db provider k) ≠ none → OpenStatus f.status

section Pickup
variable {provider : String} {db : Db}

theorem Complete.autoResult {remote : RemoteFixture} (h : Complete remote) :
    ∃ result, autoResult remote = some result ∧ some result.homeGoals = remote.homeGoals ∧
      some result.awayGoals = remote.awayGoals ∧
      some result.firstToScore = remote.firstToScore := by
  obtain ⟨home, hhome⟩ := Option.ne_none_iff_exists'.1 h.homeGoals
  obtain ⟨away, haway⟩ := Option.ne_none_iff_exists'.1 h.awayGoals
  obtain ⟨first, hfirst⟩ := Option.ne_none_iff_exists'.1 h.firstToScore
  refine ⟨⟨home, away, remote.htHomeGoals.getD 0, remote.htAwayGoals.getD 0, first⟩, ?_,
    hhome.symm, haway.symm, hfirst.symm⟩
  unfold ResultsPoller.autoResult
  rw [h.status, hhome, haway, hfirst]

theorem refsAt_ne_nil {k : ℕ} (h : usableRef (refsAt db provider k) ≠ none) :
    refsAt db provider k ≠ [] := by
  intro hnil
  rw [hnil] at h
  exact h rfl

/-- A match that is a candidate and reported complete is finalized. -/
theorem finalized_of_candidate {now : DateTime} {getFixture : String → Option RemoteFixture}
    {c : Candidate} {remote : RemoteFixture} (hc : c ∈ candidates provider now db)
    (hanswer : answer getFixture c = some remote) (hcomplete : Complete remote) :
    ∃ f', (poll provider now getFixture db).fixtures.find c.fixture.id = some f' ∧
      f'.resultFinalizedAt = some now ∧ f'.homeGoals = remote.homeGoals ∧
      f'.awayGoals = remote.awayGoals ∧ f'.firstToScore = remote.firstToScore := by
  obtain ⟨result, hauto, hhome, haway, hfirst⟩ := hcomplete.autoResult
  have hopen := (mem_candidates hc).2.1.1
  refine ⟨finalized now result c.fixture, ?_, rfl, hhome, haway, hfirst⟩
  rw [find_poll_of_candidate getFixture hc]
  simp only [polled, hanswer, hauto, finalizedOnce, if_pos hopen]

/-- Finished matches are picked up in exactly those states where the status column of every
fixture that waits for its result is open. -/
theorem pickedUp_iff_watched : PickedUp provider db ↔ Watched provider db := by
  constructor
  · intro h k f hf hopen href
    obtain ⟨ref, href⟩ := Option.ne_none_iff_exists'.1 href
    have hpoll := (h (f.kickoffAt + 105 * 60 * 1000)
      (fun _ => some ⟨⟨ref, f.kickoffAt, .finished, some 0, some 0, none, none⟩, some .none⟩)
      k f ref _ hf href hopen (le_refl _) rfl ⟨rfl, by simp, by simp, by simp⟩).1
    exact hpoll.2.2.1
  · intro h now getFixture k f ref remote hf href hopen hkick hremote hcomplete
    have href' : usableRef (refsAt db provider k) ≠ none := by
      rw [href]
      simp
    obtain ⟨hrow, hid⟩ := (Table.find_eq_some_iff _ _ _).1 hf
    change f.id = k at hid
    subst hid
    have hpoll : Pollable provider now db f :=
      ⟨hopen, hkick, h f.id f hf hopen href', refsAt_ne_nil href'⟩
    refine ⟨hpoll, fun hfew => ?_⟩
    have hc := candidate_of_pollable hrow hpoll hfew
    have hanswer : answer getFixture ⟨f, refsAt db provider f.id⟩ = some remote := by
      unfold answer
      rw [href]
      exact hremote
    exact finalized_of_candidate hc hanswer hcomplete

end Pickup

section Steps
variable {provider : String} {db db' : Db}

theorem mem_of_findRef {providerRef : String} {ref : FixtureProviderRef}
    (h : findRef db provider providerRef = some ref) :
    ref ∈ db.fixtureProviderRefs ∧ ref.provider = provider ∧ ref.providerRef = providerRef := by
  have hp := List.find?_some h
  exact ⟨List.mem_of_find?_eq_some h, of_decide_eq_true hp⟩

theorem commit_upsert_of_some {canonical : CanonicalFixture} {ref : FixtureProviderRef}
    (hlink : Linked db) (href : findRef db provider canonical.providerRef = some ref) :
    commit (upsertFixture provider canonical) db = { db with
      fixtures := db.fixtures.update ref.fixtureId (synced canonical) (id_synced canonical) } := by
  have hex := hlink ref (mem_of_findRef href).1
  obtain ⟨r, hok⟩ := upsertFixture_of_some href hex
  rw [commit_of_ok hok]
  unfold upsertFixture at hok
  obtain ⟨_, _, ⟨rfl, rfl⟩, hok⟩ := (bind_ok_iff _ _ _ _).1 hok
  simp only [href, updateSynced, bind_ok_iff, Db.updateFixture_ok_iff] at hok
  obtain ⟨_, _, ⟨_, rfl⟩, _, rfl⟩ := hok
  rfl

theorem commit_upsert_of_none {canonical : CanonicalFixture}
    (href : findRef db provider canonical.providerRef = none) :
    commit (upsertFixture provider canonical) db = { db with
      fixtures := db.fixtures.insert (newFixture canonical) (id_newFixture canonical)
      fixtureProviderRefs := db.fixtureProviderRefs ++
        [FixtureProviderRef.mk db.fixtures.fresh provider canonical.providerRef]
      outbox := db.outbox ++ [.fixtureSynced db.fixtures.fresh] } := by
  obtain ⟨r, hok⟩ := upsertFixture_of_none href
  rw [commit_of_ok hok]
  unfold upsertFixture at hok
  obtain ⟨_, _, ⟨rfl, rfl⟩, hok⟩ := (bind_ok_iff _ _ _ _).1 hok
  simp only [href, bind_ok_iff, Db.emit_ok_iff] at hok
  obtain ⟨_, _, hcreate, _, _, rfl, _, rfl⟩ := hok
  obtain ⟨rfl, rfl⟩ := createSynced_ok hcreate
  rfl

theorem refsAt_append_of_ne {k : ℕ} (hk : k ≠ db.fixtures.fresh) (providerRef : String)
    (hrefs : db'.fixtureProviderRefs = db.fixtureProviderRefs ++
      [FixtureProviderRef.mk db.fixtures.fresh provider providerRef]) :
    refsAt db' provider k = refsAt db provider k := by
  unfold refsAt
  rw [hrefs, List.filter_append, List.map_append]
  simp [hk.symm]

/-- A new fixture has one reference, as no mapping row can have referred to it before. -/
theorem refsAt_append_fresh (hlink : Linked db) (providerRef : String)
    (hrefs : db'.fixtureProviderRefs = db.fixtureProviderRefs ++
      [FixtureProviderRef.mk db.fixtures.fresh provider providerRef]) :
    refsAt db' provider db.fixtures.fresh = [providerRef] := by
  have hnone : db.fixtureProviderRefs.filter (fun ref => ref.fixtureId = db.fixtures.fresh ∧
      ref.provider = provider) = [] := by
    rw [List.filter_eq_nil_iff]
    intro ref href hc
    have hfresh := (of_decide_eq_true hc).1
    obtain ⟨f, hf⟩ := Option.ne_none_iff_exists'.1 (hlink ref href)
    obtain ⟨hrow, hid⟩ := (Table.find_eq_some_iff _ _ _).1 hf
    exact db.fixtures.fresh_ne hrow (hid.trans hfresh)
  unfold refsAt
  rw [hrefs, List.filter_append, hnone]
  simp

theorem usableRef_singleton (ref : String) : usableRef [ref] ≠ none ↔ ref ≠ "" := by
  simp [usableRef, Option.filter]

theorem find_insert_cases {canonical : CanonicalFixture} {k : ℕ} {f : Fixture}
    (h : (db.fixtures.insert (newFixture canonical) (id_newFixture canonical)).find k = some f) :
    db.fixtures.find k = some f ∧ k ≠ db.fixtures.fresh ∨
      k = db.fixtures.fresh ∧ f = newFixture canonical db.fixtures.fresh := by
  obtain ⟨hrow, hid⟩ := (Table.find_eq_some_iff _ _ _).1 h
  rcases (Table.mem_insert _ _ _ f).1 hrow with hrow | rfl
  · apply Or.inl
    refine ⟨(Table.find_eq_some_iff _ _ _).2 ⟨hrow, hid⟩, ?_⟩
    rintro rfl
    exact db.fixtures.fresh_ne hrow hid
  · exact Or.inr ⟨hid.symm, rfl⟩

theorem watched_sync_iff {canonical : CanonicalFixture} (hlink : Linked db)
    (h : Watched provider db) : Watched provider (perform provider (.sync canonical) db) ↔
      KeepsStatus provider (.sync canonical) db := by
  simp only [perform, KeepsStatus]
  cases href : findRef db provider canonical.providerRef with
  | some ref =>
    rw [commit_upsert_of_some hlink href]
    constructor
    · intro h' f hf hopen href'
      exact h' ref.fixtureId (synced canonical f)
        (Table.find_update_self _ _ (id_synced canonical) hf) hopen href'
    · intro hkeep k f' hf' hopen href'
      change (db.fixtures.update ref.fixtureId (synced canonical) (id_synced canonical)).find k =
        some f' at hf'
      by_cases hk : k = ref.fixtureId
      · subst hk
        rw [Table.find_update] at hf'
        obtain ⟨f, hf, rfl⟩ := Option.map_eq_some_iff.1 hf'
        rw [if_pos rfl] at hopen ⊢
        exact hkeep f hf hopen href'
      · rw [Table.find_update_of_ne _ _ _ hk] at hf'
        exact h k f' hf' hopen href'
  | none =>
    rw [commit_upsert_of_none href]
    constructor
    · intro h' hne
      refine h' db.fixtures.fresh (newFixture canonical db.fixtures.fresh)
        (Table.find_insert_fresh _ _ (id_newFixture canonical)) rfl ?_
      rw [refsAt_append_fresh hlink canonical.providerRef rfl]
      exact (usableRef_singleton _).2 hne
    · intro hkeep k f' hf' hopen href'
      rcases find_insert_cases hf' with ⟨hf, hk⟩ | ⟨rfl, rfl⟩
      · rw [refsAt_append_of_ne hk canonical.providerRef rfl] at href'
        exact h k f' hf hopen href'
      · rw [refsAt_append_fresh hlink canonical.providerRef rfl] at href'
        exact hkeep ((usableRef_singleton _).1 href')

/-- A round of a poll leaves the row, marks it live or finalizes it. -/
theorem openStatus_polled {now : DateTime} {getFixture : String → Option RemoteFixture}
    {c : Candidate} {f : Fixture} (hf : OpenStatus f.status)
    (hopen : (polled now getFixture c f).resultFinalizedAt = none) :
    OpenStatus (polled now getFixture c f).status := by
  unfold polled at hopen ⊢
  cases hanswer : answer getFixture c with
  | none =>
    simp only [hanswer] at hopen ⊢
    exact hf
  | some remote =>
    simp only [hanswer] at hopen ⊢
    cases hauto : autoResult remote with
    | none =>
      split_ifs
      · exact Or.inr rfl
      · exact hf
    | some result =>
      simp only [hauto, finalizedOnce] at hopen ⊢
      split_ifs at hopen ⊢
      · cases hopen
      · exact hf

theorem watched_poll (h : Watched provider db) (now : DateTime)
    (getFixture : String → Option RemoteFixture) :
    Watched provider (poll provider now getFixture db) := by
  intro k f' hf' hopen href
  have hrefs : refsAt (poll provider now getFixture db) provider k = refsAt db provider k := by
    unfold refsAt
    rw [refs_poll]
  rw [hrefs] at href
  by_cases hk : ∃ c ∈ candidates provider now db, c.fixture.id = k
  · obtain ⟨c, hc, rfl⟩ := hk
    rw [find_poll_of_candidate getFixture hc, Option.some.injEq] at hf'
    subst hf'
    exact openStatus_polled (mem_candidates hc).2.1.2.2.1 hopen
  · rw [find_poll_of_ne getFixture (fun c hc heq => hk ⟨c, hc, heq⟩)] at hf'
    exact h k f' hf' hopen href

theorem watched_finalize (h : Watched provider db) (now : DateTime) (fixtureId : ℕ)
    (result : FinalizeResultRequest) :
    Watched provider (Saga.exec (finalize now fixtureId result) db) := by
  intro k f' hf' hopen href
  have hrefs : refsAt (Saga.exec (finalize now fixtureId result) db) provider k =
      refsAt db provider k := by
    unfold refsAt
    rw [refs_finalize]
  rw [hrefs] at href
  rw [find_finalize] at hf'
  obtain ⟨f, hf, rfl⟩ := Option.map_eq_some_iff.1 hf'
  unfold finalizedOnce at hopen ⊢
  split_ifs at hopen ⊢
  · cases hopen
  · exact h k f hf hopen href
  · exact h k f hf hopen href

theorem perform_watched_iff (hlink : Linked db) (h : Watched provider db) (e : Event) :
    Watched provider (perform provider e db) ↔ KeepsStatus provider e db := by
  cases e with
  | sync canonical => exact watched_sync_iff hlink h
  | poll now getFixture => exact iff_of_true (watched_poll h now getFixture) trivial
  | finalize now fixtureId result =>
    exact iff_of_true (watched_finalize h now fixtureId result) trivial

theorem linked_perform (hlink : Linked db) (e : Event) : Linked (perform provider e db) := by
  intro ref href
  cases e with
  | sync canonical =>
    simp only [perform] at href ⊢
    cases hfind : findRef db provider canonical.providerRef with
    | some ref' =>
      rw [commit_upsert_of_some hlink hfind] at href ⊢
      rw [Table.find_update, ne_eq, Option.map_eq_none_iff]
      exact hlink ref href
    | none =>
      rw [commit_upsert_of_none hfind] at href ⊢
      rcases List.mem_append.1 href with href | href
      · obtain ⟨f, hf⟩ := Option.ne_none_iff_exists'.1 (hlink ref href)
        change (db.fixtures.insert (newFixture canonical) (id_newFixture canonical)).find
          ref.fixtureId ≠ none
        rw [Table.find_insert_of_some _ _ (id_newFixture canonical) hf]
        simp
      · rw [List.mem_singleton.1 href]
        change (db.fixtures.insert (newFixture canonical) (id_newFixture canonical)).find
          db.fixtures.fresh ≠ none
        rw [Table.find_insert_fresh]
        simp
  | poll now getFixture =>
    simp only [perform, refs_poll] at href ⊢
    by_cases hk : ∃ c ∈ candidates provider now db, c.fixture.id = ref.fixtureId
    · obtain ⟨c, hc, heq⟩ := hk
      rw [← heq, find_poll_of_candidate getFixture hc]
      simp
    · rw [find_poll_of_ne getFixture (fun c hc heq => hk ⟨c, hc, heq⟩)]
      exact hlink ref href
  | finalize now fixtureId result =>
    simp only [perform, refs_finalize] at href ⊢
    rw [find_finalize, ne_eq, Option.map_eq_none_iff]
    exact hlink ref href

end Steps

/-- In every run of sweeps, polls and manual entries, finished matches are picked up
throughout exactly when no sync writes a status that is not open over a fixture that waits
for its result. -/
theorem pickedUp_iff {provider : String} {db : Db} (hlink : Linked db)
    (h : PickedUp provider db) (es : List Event) :
    Sequential.Throughout (perform provider) (PickedUp provider) db es ↔
      Sequential.Along (perform provider) (KeepsStatus provider) db es := by
  apply Sequential.Along.throughout_iff (F := fun _ _ => True) (I := Linked)
  · exact fun e s _ hl _ => linked_perform hl e
  · intro e s _ hl hp
    rw [pickedUp_iff_watched] at hp ⊢
    exact perform_watched_iff hl hp e
  · exact hlink
  · exact h
  · exact Sequential.along_of_forall (fun _ _ => trivial) db es

section Missed

/-- A sweep creates the fixture, and the sweep of its day finds the match finished. -/
def finishedBySync : List Event :=
  [.sync ⟨"497555", 0, .scheduled, none, none, none, none⟩,
    .sync ⟨"497555", 0, .finished, some 1, some 0, some 0, some 0⟩]

theorem linked_empty : Linked Db.empty := by
  intro ref href
  cases href

theorem pickedUp_empty : PickedUp "FOOTBALL_DATA" Db.empty := by
  intro now getFixture k f ref remote hf
  cases hf

theorem pickedUp_iff_finishedBySync :
    Sequential.Throughout (perform "FOOTBALL_DATA") (PickedUp "FOOTBALL_DATA") Db.empty
        finishedBySync ↔
      Sequential.Along (perform "FOOTBALL_DATA") (KeepsStatus "FOOTBALL_DATA") Db.empty
        finishedBySync :=
  pickedUp_iff linked_empty pickedUp_empty finishedBySync

/-- After the second sweep no poll considers the match, which has no result. -/
theorem sync_hides_finished : ¬ Sequential.Throughout (perform "FOOTBALL_DATA")
    (PickedUp "FOOTBALL_DATA") Db.empty finishedBySync := by
  intro h
  obtain ⟨⟨_, _, hstatus, _⟩, _⟩ := h.2.2 7200000
    (fun _ => some ⟨⟨"497555", 0, .finished, some 1, some 0, some 0, some 0⟩, some .home⟩) 0
    ⟨0, 0, .finished, some 1, some 0, some 0, some 0, none, none⟩ "497555" _ (by decide)
    (by decide) rfl (by decide) rfl ⟨rfl, by simp, by simp, by simp⟩
  rcases hstatus with hstatus | hstatus
  · cases hstatus
  · cases hstatus

end Missed

end ResultPickup
end FootballIQ
