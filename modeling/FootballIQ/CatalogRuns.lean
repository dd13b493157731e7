import FootballIQ.Resync
import FootballIQ.Simulation

/-!
# The catalog over all syncs

However many syncs run at once, a reference of the provider names one fixture for good,
under the league and the teams that the provider names, and each fixture that a sync has
created is announced once, by its event or by the sync that is about to write it.
-/

namespace FootballIQ
namespace FixtureSync

open Transaction Relational Interleaving Results

section Keys
variable {w w' : World}

def keyOf (ref : FixtureProviderRef) : Ref := (ref.provider, ref.providerRef)

/-- Each reference names one fixture, and each fixture has one reference at most and one
set of columns. -/
structure Keyed (w : World) : Prop where
  keys : (w.db.fixtureProviderRefs.map keyOf).Nodup
  fixtures : (w.db.fixtureProviderRefs.map FixtureProviderRef.fixtureId).Nodup
  refs_exist : ∀ ref ∈ w.db.fixtureProviderRefs, ref.fixtureId ∈ w.db.fixtures.rows.map Row.id
  sides : (w.sides.map Sides.fixtureId).Nodup
  sides_exist : ∀ s ∈ w.sides, s.fixtureId ∈ w.db.fixtures.rows.map Row.id

theorem Keyed.aside (h : Keyed w) (hrefs : w'.db.fixtureProviderRefs = w.db.fixtureProviderRefs)
    (hids : w'.db.fixtures.rows.map Row.id = w.db.fixtures.rows.map Row.id)
    (hsides : w'.sides = w.sides) : Keyed w' := by
  refine ⟨hrefs ▸ h.keys, hrefs ▸ h.fixtures, ?_, hsides ▸ h.sides, ?_⟩
  · rw [hrefs, hids]
    exact h.refs_exist
  · rw [hsides, hids]
    exact h.sides_exist

theorem createSynced_new {provider : String} {canonical : Results.CanonicalFixture} {db : Db}
    {r : ℕ × Db} (h : createSynced provider canonical db = .ok r) :
    findRef db provider canonical.providerRef = none := by
  simp only [createSynced, bind_ok_iff, get_ok_iff, throwIf_ok_iff] at h
  obtain ⟨_, _, ⟨rfl, rfl⟩, _, _, ⟨hnone, _⟩, _⟩ := h
  exact not_not.1 hnone

theorem nodup_snoc {α : Type} {l : List α} {a : α} (hl : l.Nodup) (ha : a ∉ l) :
    (l ++ [a]).Nodup := hl.append (List.nodup_singleton a) (by simpa using ha)

/-- A new fixture comes under a new reference. -/
theorem Keyed.create (h : Keyed w) {provider : String} {canonical : Results.CanonicalFixture}
    {db : Db} (leagueId homeTeamId awayTeamId : ℕ)
    (hok : createSynced provider canonical w.db = .ok (w.db.fixtures.fresh, db)) :
    Keyed { w with
      db := db
      sides := w.sides ++ [⟨w.db.fixtures.fresh, leagueId, homeTeamId, awayTeamId⟩] } := by
  have hnew := createSynced_new hok
  obtain ⟨_, rfl⟩ := createSynced_ok hok
  have hfresh : w.db.fixtures.fresh ∉ w.db.fixtures.rows.map Row.id := by
    intro hmem
    obtain ⟨f, hf, hid⟩ := List.mem_map.1 hmem
    exact w.db.fixtures.fresh_ne hf hid
  have hkey : keyOf ⟨w.db.fixtures.fresh, provider, canonical.providerRef⟩ ∉
      w.db.fixtureProviderRefs.map keyOf := by
    intro hmem
    obtain ⟨ref, href, heq⟩ := List.mem_map.1 hmem
    have hno := List.find?_eq_none.1 hnew ref href
    simp only [keyOf, Prod.mk.injEq] at heq
    exact hno (by simpa using heq)
  refine ⟨?_, ?_, ?_, ?_, ?_⟩
  · rw [List.map_append, List.map_singleton]
    exact nodup_snoc h.keys hkey
  · rw [List.map_append, List.map_singleton]
    apply nodup_snoc h.fixtures
    intro hmem
    obtain ⟨ref, href, heq⟩ := List.mem_map.1 hmem
    have hid : ref.fixtureId = w.db.fixtures.fresh := heq
    exact hfresh (hid ▸ h.refs_exist ref href)
  · intro ref href
    rw [Table.rows_insert, List.map_append, List.mem_append]
    rcases List.mem_append.1 href with href | href
    · exact Or.inl (h.refs_exist ref href)
    · rw [List.mem_singleton.1 href]
      exact Or.inr List.mem_cons_self
  · rw [List.map_append, List.map_singleton]
    apply nodup_snoc h.sides
    intro hmem
    obtain ⟨s, hs, heq⟩ := List.mem_map.1 hmem
    have hid : s.fixtureId = w.db.fixtures.fresh := heq
    exact hfresh (hid ▸ h.sides_exist s hs)
  · intro s hs
    rw [Table.rows_insert, List.map_append, List.mem_append]
    rcases List.mem_append.1 hs with hs | hs
    · exact Or.inl (h.sides_exist s hs)
    · rw [List.mem_singleton.1 hs]
      exact Or.inr List.mem_cons_self

theorem keyed_step (tick : Tick) (t : Task) (h : Keyed w) : Keyed (step tick t w).1 := by
  rcases step_cases tick t w with hsame | ⟨_, _, _, rfl⟩ | ⟨_, _, _, _, _, _, _, hstep⟩ |
    ⟨_, _, _, _, _, _, _, _, _, hstep⟩ | ⟨_, _, leagueId, homeTeamId, awayTeamId, _, _, hok, hstep⟩
  · exact h.aside hsame.refs hsame.ids hsame.sides
  · exact h.aside rfl rfl rfl
  · rw [hstep]
    exact h.aside rfl rfl rfl
  · rw [hstep]
    exact h.aside rfl rfl rfl
  · rw [hstep]
    exact h.create leagueId homeTeamId awayTeamId hok

end Keys

section Directory
variable {w w' : World}

/-- The references of league and teams that the provider gives for a fixture. -/
structure Directory where
  league : Ref → String
  home : Ref → String
  away : Ref → String

def Agrees (directory : Directory) (provider : String) (c : CanonicalFixture) : Prop :=
  c.leagueRef = directory.league (provider, c.providerRef) ∧
    c.homeTeam.providerRef = directory.home (provider, c.providerRef) ∧
    c.awayTeam.providerRef = directory.away (provider, c.providerRef)

/-- The provider names the same league and teams whenever it is asked. -/
def AnswersAgree (directory : Directory) (tick : Tick) (t : Task) (_ : World) : Prop :=
  match t with
  | .fetch provider _ => ∀ c ∈ tick.fixtures.getD [], Agrees directory provider c
  | _ => True

/-- The columns of a fixture name the league and the teams of the provider. -/
structure Links (directory : Directory) (w : World) (ref : FixtureProviderRef) (s : Sides) :
    Prop where
  fixture : s.fixtureId = ref.fixtureId
  league : w.leagues.lookup (ref.provider, directory.league (keyOf ref)) = some s.leagueId
  home : w.teams.lookup (ref.provider, directory.home (keyOf ref)) = some s.homeTeamId
  away : w.teams.lookup (ref.provider, directory.away (keyOf ref)) = some s.awayTeamId

/-- The columns of every fixture with a reference say what the provider says. -/
structure Faithful (directory : Directory) (w : World) : Prop extends Keyed w where
  linked : ∀ ref ∈ w.db.fixtureProviderRefs, ∃ s ∈ w.sides, Links directory w ref s

/-- What a sync has still to upsert agrees with the directory. -/
def Agreed (directory : Directory) : Task → Prop
  | .next loop => ∀ c ∈ loop.rest, Agrees directory loop.provider c
  | .upsert loop canonical _ => Agrees directory loop.provider canonical ∧
    ∀ c ∈ loop.rest, Agrees directory loop.provider c
  | _ => True

variable {directory : Directory}

theorem Links.grows {ref : FixtureProviderRef} {s : Sides} (h : Links directory w ref s)
    (hleagues : Mapping.Grows w.leagues w'.leagues) (hteams : Mapping.Grows w.teams w'.teams) :
    Links directory w' ref s :=
  ⟨h.fixture, hleagues.lookup h.league, hteams.lookup h.home, hteams.lookup h.away⟩

theorem faithful_step {tick : Tick} {t : Task} (hw : Faithful directory w) (ht : Progress w t)
    (hagreed : Agreed directory t) : Faithful directory (step tick t w).1 := by
  have hg := grows_step tick t w
  -- leagues and teams that are added leave the links as they are
  have hold : ∀ ref ∈ w.db.fixtureProviderRefs, ∃ s ∈ w.sides,
      Links directory (step tick t w).1 ref s := by
    intro ref href
    obtain ⟨s, hs, hlinks⟩ := hw.linked ref href
    exact ⟨s, hs, hlinks.grows hg.leagues hg.teams⟩
  refine ⟨keyed_step tick t hw.toKeyed, ?_⟩
  rcases step_cases tick t w with hsame | ⟨_, _, _, rfl⟩ | ⟨_, _, _, _, _, _, _, hstep⟩ |
    ⟨_, _, _, _, _, _, _, _, _, hstep⟩ |
    ⟨loop, canonical, leagueId, homeTeamId, awayTeamId, db, rfl, hok, hstep⟩
  · rw [hsame.refs, hsame.sides]
    exact hold
  · exact hold
  · rw [hstep] at hold ⊢
    exact hold
  · rw [hstep] at hold ⊢
    exact hold
  · rw [hstep] at hold ⊢
    obtain ⟨_, rfl⟩ := createSynced_ok hok
    obtain ⟨_, hleague, hhome, haway⟩ := ht.1
    obtain ⟨hl, hh, ha⟩ := hagreed.1
    intro ref href
    rcases List.mem_append.1 href with href | href
    · obtain ⟨s, hs, hlinks⟩ := hold ref href
      exact ⟨s, List.mem_append_left _ hs, hlinks⟩
    · rw [List.mem_singleton.1 href]
      exact ⟨_, List.mem_append_right _ List.mem_cons_self, rfl, hl ▸ hleague, hh ▸ hhome,
        ha ▸ haway⟩

theorem agreed_step {tick : Tick} {t t' : Task} (ht : Progress w t) (hagreed : Agreed directory t)
    (hG : AnswersAgree directory tick t w) (h : (step tick t w).2 = some t') :
    Agreed directory t' := by
  have hday : ∀ {provider : String} {days : ℕ}, nextDay provider days = some t' →
      Agreed directory t' := by
    intro provider days hnext
    cases days with
    | zero => cases hnext
    | succ days =>
      cases hnext
      trivial
  cases t with
  | lock provider =>
    simp only [step] at h
    split_ifs at h
    cases h
    trivial
  | fetch provider days =>
    simp only [step] at h
    split at h
    · next fixtures hfixtures =>
      cases h
      simp only [AnswersAgree, hfixtures, Option.getD_some] at hG
      exact hG
    · exact hday h
  | next loop =>
    simp only [step] at h
    cases hrest : loop.rest with
    | nil =>
      simp only [hrest] at h
      exact hday h
    | cons canonical rest =>
      simp only [hrest] at h
      cases h
      simp only [Agreed, hrest, List.forall_mem_cons] at hagreed
      exact hagreed
  | finalize fixtureId result =>
    simp only [step] at h
    split at h <;> cases h
    trivial
  | finalizeTx fixtureId result => cases h
  | upsert loop canonical stage =>
    rcases resolved_upsertStep ht.1 h with ⟨stage', rfl, _⟩ | ⟨loop', rfl, hprovider, _, hrest, _⟩ |
      hnext
    · exact hagreed
    · simp only [Agreed, hprovider, hrest]
      exact hagreed.2
    · exact hday hnext

theorem faithful_inductive (directory : Directory) : protocol.Inductive (AnswersAgree directory)
    (Faithful directory) (fun w t => Progress w t ∧ Agreed directory t) where
  init w call _ := by cases call <;> exact ⟨trivial, trivial⟩
  shared tick t w hw ht _ := faithful_step hw ht.1 ht.2
  cont tick t w t' _ ht hG h := ⟨progress_step tick ht.1 h, agreed_step ht.1 ht.2 hG h⟩
  stable tick t w u _ _ _ hu := ⟨hu.1.grows (grows_step tick t w), hu.2⟩

theorem grows_run (as : List (Act Call Tick)) (c : Config World Task) :
    Grows c.shared (protocol.run c as).shared := by
  apply Protocol.Along.run_rel protocol Grows.refl (fun _ _ _ h h' => h.trans h')
  exact protocol.along_of_forall (fun tick t w => grows_step tick t w) c as

/-- With a provider that names the same league and teams for a fixture whenever it is asked,
the catalog says what the provider says in every state of every run of syncs and
finalizations, and what it has once said it says for good. -/
theorem faithful_of_run {as bs : List (Act Call Tick)} (hw : Faithful directory w)
    (has : protocol.Along (AnswersAgree directory) ⟨w, []⟩ as) :
    Faithful directory (protocol.run ⟨w, []⟩ as).shared ∧
      Grows (protocol.run ⟨w, []⟩ as).shared (protocol.run ⟨w, []⟩ (as ++ bs)).shared := by
  have hstart : Protocol.Holds (Faithful directory)
      (fun w t => Progress w t ∧ Agreed directory t) (⟨w, []⟩ : Config World Task) := ⟨hw, by simp⟩
  refine ⟨((faithful_inductive directory).run hstart has).1, ?_⟩
  rw [Protocol.run_append]
  exact grows_run bs _

instance (directory : Directory) (provider : String) (c : CanonicalFixture) :
    Decidable (Agrees directory provider c) := inferInstanceAs (Decidable (_ ∧ _ ∧ _))

instance (directory : Directory) (tick : Tick) (w : World) :
    ∀ t, Decidable (AnswersAgree directory tick t w)
  | .fetch provider _ =>
    inferInstanceAs (Decidable (∀ c ∈ tick.fixtures.getD [], Agrees directory provider c))
  | .lock _ | .next _ | .upsert _ _ _ | .finalize _ _ | .finalizeTx _ _ => .isTrue trivial

theorem emptyWorld_keyed : Keyed emptyWorld :=
  ⟨List.nodup_nil, List.nodup_nil, by simp [emptyWorld, Db.empty], List.nodup_nil,
    by simp [emptyWorld]⟩

/-- Two syncs at once over an empty catalog; one fails at the league that both insert. -/
def racingSyncs : List (Act Call Tick) :=
  .start (.syncDate "FD") :: .start (.syncDate "FD") ::
    (List.replicate 12 [Act.resume 1 (answer .scheduled none),
      .resume 0 (answer .scheduled none)]).flatten

theorem faithful_of_run_derby :
    Faithful ⟨fun _ => "npl", fun _ => "t0", fun _ => "t1"⟩
        (protocol.run ⟨emptyWorld, []⟩ racingSyncs).shared ∧
      Grows (protocol.run ⟨emptyWorld, []⟩ racingSyncs).shared
        (protocol.run ⟨emptyWorld, []⟩ (racingSyncs ++ secondSync)).shared := by
  have hempty : Faithful ⟨fun _ => "npl", fun _ => "t0", fun _ => "t1"⟩ emptyWorld :=
    ⟨emptyWorld_keyed, by simp [emptyWorld, Db.empty]⟩
  exact faithful_of_run hempty (by decide +kernel)

end Directory

section Announcements
variable {w : World}

/-- The fixture that a sync has created and is about to announce. -/
def announcing : Task → Option ℕ
  | .upsert _ _ (.announce fixtureId) => some fixtureId
  | _ => none

/-- The fixtures that are announced or about to be, against those with a reference. -/
def AnnouncedOnce (c : Config World Task) : Prop :=
  ((announced c.shared.db ++ c.pending.filterMap announcing : List ℕ) : Multiset ℕ) =
    (c.shared.db.fixtureProviderRefs.map FixtureProviderRef.fixtureId : List ℕ)

theorem announcing_nextDay (provider : String) (days : ℕ) :
    (nextDay provider days).bind announcing = none := by
  cases days <;> rfl

theorem announcing_created (loop : Loop) (canonical : CanonicalFixture) (w : World)
    {stage : ℕ → Stage} (hstage : ∀ id, announcing (.upsert loop canonical (stage id)) = none)
    (o : Option (ℕ × World)) : (created loop canonical w stage o).2.bind announcing = none := by
  cases o with
  | none => exact announcing_nextDay loop.provider loop.days
  | some r => exact hstage r.1

/-- Only the insert of a fixture leads to its announcement. -/
theorem announcing_step {tick : Tick} {t : Task}
    (h : ∀ loop canonical leagueId homeTeamId awayTeamId,
      t ≠ .upsert loop canonical (.write none leagueId homeTeamId awayTeamId)) :
    (step tick t w).2.bind announcing = none := by
  cases t with
  | lock provider =>
    simp only [step]
    split_ifs <;> rfl
  | fetch provider days =>
    simp only [step]
    split
    · rfl
    · exact announcing_nextDay provider days
  | next loop =>
    simp only [step]
    split
    · exact announcing_nextDay loop.provider loop.days
    · rfl
  | finalize fixtureId result =>
    simp only [step]
    split <;> rfl
  | finalizeTx fixtureId result => rfl
  | upsert loop canonical stage =>
    cases stage with
    | findRef | announce fixtureId => rfl
    | findLeague ref | findHome ref leagueId | findAway ref leagueId homeTeamId =>
      simp only [step, upsertStep]
      split <;> rfl
    | createLeague ref | createHome ref leagueId | createAway ref leagueId homeTeamId =>
      exact announcing_created loop canonical w (fun id => rfl) _
    | write ref leagueId homeTeamId awayTeamId =>
      cases ref with
      | none => exact absurd rfl (h loop canonical leagueId homeTeamId awayTeamId)
      | some fixtureId =>
        simp only [step, upsertStep]
        split
        · rfl
        · exact announcing_nextDay loop.provider loop.days

/-- A step announces its fixture, or creates one that it goes on to announce. -/
theorem announced_step (tick : Tick) (t : Task) (w : World) :
    ∃ new, (step tick t w).1.db.fixtureProviderRefs.map FixtureProviderRef.fixtureId =
        w.db.fixtureProviderRefs.map FixtureProviderRef.fixtureId ++ new ∧
      (announced (step tick t w).1.db : Multiset ℕ) +
          (((step tick t w).2.bind announcing).toList : Multiset ℕ) =
        (announced w.db : Multiset ℕ) + ((announcing t).toList : Multiset ℕ) + (new : Multiset ℕ) := by
  by_cases hcreate : ∃ loop canonical leagueId homeTeamId awayTeamId,
      t = .upsert loop canonical (.write none leagueId homeTeamId awayTeamId)
  · obtain ⟨loop, canonical, leagueId, homeTeamId, awayTeamId, rfl⟩ := hcreate
    simp only [step, upsertStep]
    cases hrun : createSynced loop.provider canonical.toCanonicalFixture w.db with
    | ok r =>
      obtain ⟨hid, hdb⟩ := createSynced_ok hrun
      refine ⟨[r.1], ?_, ?_⟩
      · simp only [hdb, hid, List.map_append, List.map_singleton]
      · have hevents : announced r.2 = announced w.db := by rw [hdb]; rfl
        simp [hevents, announcing]
    | error e =>
      refine ⟨[], (List.append_nil _).symm, ?_⟩
      simp only [announcing_nextDay]
      simp [announcing]
  · have hnext : (step tick t w).2.bind announcing = none := by
      apply announcing_step
      intro loop canonical leagueId homeTeamId awayTeamId heq
      exact hcreate ⟨loop, canonical, leagueId, homeTeamId, awayTeamId, heq⟩
    rw [hnext]
    by_cases hannounce : ∃ loop canonical fixtureId, t = .upsert loop canonical (.announce fixtureId)
    · obtain ⟨loop, canonical, fixtureId, rfl⟩ := hannounce
      have hevents : announced (step tick (.upsert loop canonical (.announce fixtureId)) w).1.db =
          announced w.db ++ [fixtureId] := by
        change List.filterMap _ (w.db.outbox ++ [_]) = _
        rw [List.filterMap_append]
        rfl
      refine ⟨[], (List.append_nil _).symm, ?_⟩
      rw [hevents]
      change ((announced w.db ++ [fixtureId] : List ℕ) : Multiset ℕ) + 0 =
        (announced w.db : Multiset ℕ) + (([fixtureId] : List ℕ) : Multiset ℕ) + 0
      rw [Multiset.coe_add]
    · have hnone : announcing t = none := by
        cases t with
        | upsert loop canonical stage =>
          cases stage with
          | announce fixtureId => exact absurd ⟨loop, canonical, fixtureId, rfl⟩ hannounce
          | _ => rfl
        | _ => rfl
      rw [hnone]
      rcases step_cases tick t w with hsame | hno | ⟨_, _, _, _, _, _, _, hstep⟩ |
        ⟨_, _, _, _, _, _, _, _, _, hstep⟩ | ⟨loop, canonical, leagueId, homeTeamId, awayTeamId, _,
          heq, _⟩
      · exact ⟨[], by rw [hsame.refs, List.append_nil], by rw [hsame.announced]; simp⟩
      · exact absurd hno hannounce
      · exact ⟨[], by rw [hstep, List.append_nil], by rw [hstep]; simp⟩
      · exact ⟨[], by rw [hstep, List.append_nil], by rw [hstep]; simp⟩
      · exact absurd ⟨loop, canonical, leagueId, homeTeamId, awayTeamId, heq⟩ hcreate

theorem announcedOnce_start {c : Config World Task} (h : AnnouncedOnce c) (call : Call) :
    AnnouncedOnce (protocol.next c (.start call)) := by
  have hnone : announcing (init call) = none := by cases call <;> rfl
  change ((announced c.shared.db ++ (c.pending ++ [init call]).filterMap announcing : List ℕ) :
    Multiset ℕ) = _
  rw [List.filterMap_append, List.filterMap_cons_none hnone, List.filterMap_nil, List.append_nil]
  exact h

theorem announcedOnce_resume {c : Config World Task} {i : ℕ} {tick : Tick} {t : Task}
    (hi : c.pending[i]? = some t) (h : AnnouncedOnce c) :
    AnnouncedOnce (protocol.next c (.resume i tick)) := by
  obtain ⟨l, r, hpending, hnext⟩ := protocol.next_resume_some tick hi
  obtain ⟨new, hrefs, hevents⟩ := announced_step tick t c.shared
  have hbefore := Protocol.filterMap_split announcing l r (some t)
  have hafter := Protocol.filterMap_split announcing l r (step tick t c.shared).2
  rw [Option.bind_some, Option.toList_some, List.append_assoc, List.singleton_append,
    ← hpending] at hbefore
  rw [hnext]
  unfold AnnouncedOnce at h ⊢
  change ((announced (step tick t c.shared).1.db ++
    (l ++ (step tick t c.shared).2.toList ++ r).filterMap announcing : List ℕ) : Multiset ℕ) =
      ((step tick t c.shared).1.db.fixtureProviderRefs.map FixtureProviderRef.fixtureId : List ℕ)
  rw [← Multiset.coe_add, hafter, hrefs, ← Multiset.coe_add, ← h, ← Multiset.coe_add, hbefore,
    ← add_assoc, hevents]
  abel

theorem keyed_run (as : List (Act Call Tick)) {c : Config World Task} (h : Keyed c.shared) :
    Keyed (protocol.run c as).shared := by
  apply Protocol.Along.invariant (I := fun c => Keyed c.shared) protocol (fun _ _ h => h) ?_ h
    (protocol.along_of_forall (G := fun _ _ _ => True) (fun _ _ _ => trivial) c as)
  intro c i tick t hi _ h
  rw [protocol.shared_next_resume hi]
  exact keyed_step tick t h

/-- In every state of every run each fixture with a reference is announced by its event or
about to be by the sync that has created it, never twice, and no other fixture is. -/
theorem announced_of_run {w : World} (hkeyed : Keyed w) (hw : AnnouncedOnce ⟨w, []⟩)
    (as : List (Act Call Tick)) :
    AnnouncedOnce (protocol.run ⟨w, []⟩ as) ∧
      (announced (protocol.run ⟨w, []⟩ as).shared.db ++
        (protocol.run ⟨w, []⟩ as).pending.filterMap announcing).Nodup := by
  have honce : AnnouncedOnce (protocol.run ⟨w, []⟩ as) := by
    apply Protocol.Along.invariant (I := AnnouncedOnce) protocol
      (fun c call h => announcedOnce_start h call)
      (fun c i tick t hi _ h => announcedOnce_resume hi h) hw
    exact protocol.along_of_forall (fun _ _ _ => trivial) _ as
  refine ⟨honce, ?_⟩
  rw [← Multiset.coe_nodup, show ((_ : List ℕ) : Multiset ℕ) = _ from honce, Multiset.coe_nodup]
  exact (keyed_run as hkeyed).fixtures

theorem announced_of_run_derby : AnnouncedOnce (protocol.run ⟨emptyWorld, []⟩ racingSyncs) ∧
    (announced (protocol.run ⟨emptyWorld, []⟩ racingSyncs).shared.db ++
      (protocol.run ⟨emptyWorld, []⟩ racingSyncs).pending.filterMap announcing).Nodup := by
  have hempty : AnnouncedOnce ⟨emptyWorld, []⟩ := rfl
  exact announced_of_run emptyWorld_keyed hempty racingSyncs

end Announcements

end FixtureSync
end FootballIQ
