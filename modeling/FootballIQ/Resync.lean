import FootballIQ.FixtureSync

/-!
# Syncing again

Whatever a sync is past is known to the catalog for good. So syncs that come later and are
answered with the same references find everything, and create nothing.
-/

namespace FootballIQ
namespace FixtureSync

open Transaction Relational Interleaving Results

section Progress
variable {w w' : World} {provider : String} {canonical : CanonicalFixture}

/-- League, teams and fixture are known under the references of the provider. -/
structure Known (w : World) (provider : String) (canonical : CanonicalFixture) : Prop where
  league : w.leagues.lookup (provider, canonical.leagueRef) ≠ none
  home : w.teams.lookup (provider, canonical.homeTeam.providerRef) ≠ none
  away : w.teams.lookup (provider, canonical.awayTeam.providerRef) ≠ none
  fixture : findRef w.db provider canonical.providerRef ≠ none

def FoundRef (w : World) (provider : String) (canonical : CanonicalFixture) (existingRef : Option ℕ) :
    Prop :=
  ∀ id, existingRef = some id →
    ∃ ref, findRef w.db provider canonical.providerRef = some ref ∧ ref.fixtureId = id

/-- What an upsert has resolved when it is at a stage. -/
def Resolved (w : World) (provider : String) (canonical : CanonicalFixture) : Stage → Prop
  | .findRef => True
  | .findLeague ref | .createLeague ref => FoundRef w provider canonical ref
  | .findHome ref leagueId | .createHome ref leagueId => FoundRef w provider canonical ref ∧
    w.leagues.lookup (provider, canonical.leagueRef) = some leagueId
  | .findAway ref leagueId homeTeamId | .createAway ref leagueId homeTeamId =>
    FoundRef w provider canonical ref ∧
      w.leagues.lookup (provider, canonical.leagueRef) = some leagueId ∧
      w.teams.lookup (provider, canonical.homeTeam.providerRef) = some homeTeamId
  | .write ref leagueId homeTeamId awayTeamId => FoundRef w provider canonical ref ∧
    w.leagues.lookup (provider, canonical.leagueRef) = some leagueId ∧
      w.teams.lookup (provider, canonical.homeTeam.providerRef) = some homeTeamId ∧
      w.teams.lookup (provider, canonical.awayTeam.providerRef) = some awayTeamId
  | .announce _ => Known w provider canonical

/-- Whatever a sync is past is known. -/
def Progress (w : World) : Task → Prop
  | .next loop => ∀ c ∈ loop.payload, c ∈ loop.rest ∨ Known w loop.provider c
  | .upsert loop canonical stage => Resolved w loop.provider canonical stage ∧
    ∀ c ∈ loop.payload, c = canonical ∨ c ∈ loop.rest ∨ Known w loop.provider c
  | _ => True

/-- All that a sync has reported is known. -/
def Reported (w : World) : Prop := ∀ r ∈ w.reports, ∀ c ∈ r.payload, Known w r.provider c

theorem lookup_ne_none {κ ρ : Type} [DecidableEq κ] [Row ρ] {m m' : Mapping κ ρ} {k : κ}
    (h : Mapping.Grows m m') (hk : m.lookup k ≠ none) : m'.lookup k ≠ none := by
  obtain ⟨id, hid⟩ := Option.ne_none_iff_exists'.1 hk
  rw [h.lookup hid]
  exact Option.some_ne_none id

theorem Known.grows (h : Known w provider canonical) (hg : Grows w w') :
    Known w' provider canonical := by
  refine ⟨lookup_ne_none hg.leagues h.league, lookup_ne_none hg.teams h.home,
    lookup_ne_none hg.teams h.away, ?_⟩
  obtain ⟨ref, href⟩ := Option.ne_none_iff_exists'.1 h.fixture
  rw [findRef_grows hg href]
  exact Option.some_ne_none ref

theorem FoundRef.grows {existingRef : Option ℕ} (h : FoundRef w provider canonical existingRef)
    (hg : Grows w w') : FoundRef w' provider canonical existingRef := by
  intro id hid
  obtain ⟨ref, href, heq⟩ := h id hid
  exact ⟨ref, findRef_grows hg href, heq⟩

theorem Resolved.grows {stage : Stage} (h : Resolved w provider canonical stage) (hg : Grows w w') :
    Resolved w' provider canonical stage := by
  cases stage with
  | findRef => trivial
  | findLeague ref | createLeague ref => exact FoundRef.grows h hg
  | findHome ref leagueId | createHome ref leagueId =>
    exact ⟨h.1.grows hg, hg.leagues.lookup h.2⟩
  | findAway ref leagueId homeTeamId | createAway ref leagueId homeTeamId =>
    exact ⟨h.1.grows hg, hg.leagues.lookup h.2.1, hg.teams.lookup h.2.2⟩
  | write ref leagueId homeTeamId awayTeamId =>
    exact ⟨h.1.grows hg, hg.leagues.lookup h.2.1, hg.teams.lookup h.2.2.1,
      hg.teams.lookup h.2.2.2⟩
  | announce fixtureId => exact Known.grows h hg

theorem Progress.grows {t : Task} (h : Progress w t) (hg : Grows w w') : Progress w' t := by
  cases t with
  | next loop => exact fun c hc => (h c hc).imp_right (fun hknown => hknown.grows hg)
  | upsert loop canonical stage =>
    exact ⟨h.1.grows hg, fun c hc => (h.2 c hc).imp_right (fun hor =>
      hor.imp_right (fun hknown => hknown.grows hg))⟩
  | _ => trivial

theorem Reported.grows (h : Reported w) (hg : Grows w w') (hreports : w'.reports = w.reports) :
    Reported w' := by
  intro r hr c hc
  rw [hreports] at hr
  exact (h r hr c hc).grows hg

theorem created_next {loop : Loop} {stage : ℕ → Stage} {o : Option (ℕ × World)} {t' : Task}
    (h : (created loop canonical w stage o).2 = some t') :
    (∃ id, o = some (id, (created loop canonical w stage o).1) ∧
        t' = .upsert loop canonical (stage id)) ∨ nextDay loop.provider loop.days = some t' := by
  cases o with
  | none => exact Or.inr h
  | some r =>
    cases h
    exact Or.inl ⟨r.1, rfl, rfl⟩

theorem lookup_createLeague {id : ℕ} (h : createLeague provider canonical w = some (id, w')) :
    w'.leagues.lookup (provider, canonical.leagueRef) = some id := by
  obtain ⟨r, hr, heq⟩ := Option.map_eq_some_iff.1 h
  cases heq
  exact (Mapping.grows_tryCreate hr).2

theorem lookup_createTeam {team : CanonicalTeam} {id : ℕ}
    (h : createTeam provider team w = some (id, w')) :
    w'.teams.lookup (provider, team.providerRef) = some id := by
  obtain ⟨r, hr, heq⟩ := Option.map_eq_some_iff.1 h
  cases heq
  exact (Mapping.grows_tryCreate hr).2

theorem known_of_lookups {leagueId homeTeamId awayTeamId : ℕ}
    (hleague : w.leagues.lookup (provider, canonical.leagueRef) = some leagueId)
    (hhome : w.teams.lookup (provider, canonical.homeTeam.providerRef) = some homeTeamId)
    (haway : w.teams.lookup (provider, canonical.awayTeam.providerRef) = some awayTeamId)
    (hfixture : findRef w.db provider canonical.providerRef ≠ none) : Known w provider canonical := by
  refine ⟨?_, ?_, ?_, hfixture⟩
  · rw [hleague]
    exact Option.some_ne_none _
  · rw [hhome]
    exact Option.some_ne_none _
  · rw [haway]
    exact Option.some_ne_none _

/-- The reference that comes with a new fixture is found. -/
theorem findRef_createSynced {db db' : Db} {canonical : Results.CanonicalFixture} {id : ℕ}
    (h : createSynced provider canonical db = .ok (id, db')) :
    findRef db' provider canonical.providerRef ≠ none := by
  obtain ⟨_, rfl⟩ := createSynced_ok h
  unfold findRef
  rw [List.find?_append]
  simp

/-- Where a stage can lead: to a later one with what it has resolved, to the next fixture with
this one known, or to the next day. -/
def Leads (w : World) (loop : Loop) (canonical : CanonicalFixture) (t' : Task) : Prop :=
  (∃ stage', t' = .upsert loop canonical stage' ∧ Resolved w loop.provider canonical stage') ∨
    (∃ loop', t' = .next loop' ∧ loop'.provider = loop.provider ∧
      loop'.payload = loop.payload ∧ loop'.rest = loop.rest ∧ Known w loop.provider canonical) ∨
    nextDay loop.provider loop.days = some t'

section Stages
variable {loop : Loop} {ref : Option ℕ} {leagueId homeTeamId awayTeamId : ℕ} {t' : Task}

theorem leads_findLeague (href : FoundRef w loop.provider canonical ref)
    (h : (upsertStep loop canonical (.findLeague ref) w).2 = some t') :
    Leads (upsertStep loop canonical (.findLeague ref) w).1 loop canonical t' := by
  simp only [upsertStep] at h ⊢
  cases hfind : w.leagues.lookup (loop.provider, canonical.leagueRef) with
  | some leagueId =>
    simp only [hfind] at h ⊢
    cases h
    exact Or.inl ⟨_, rfl, href, hfind⟩
  | none =>
    simp only [hfind] at h ⊢
    cases h
    exact Or.inl ⟨_, rfl, href⟩

theorem leads_findHome (hstage : Resolved w loop.provider canonical (.findHome ref leagueId))
    (h : (upsertStep loop canonical (.findHome ref leagueId) w).2 = some t') :
    Leads (upsertStep loop canonical (.findHome ref leagueId) w).1 loop canonical t' := by
  simp only [upsertStep] at h ⊢
  cases hfind : w.teams.lookup (loop.provider, canonical.homeTeam.providerRef) with
  | some teamId =>
    simp only [hfind] at h ⊢
    cases h
    exact Or.inl ⟨_, rfl, hstage.1, hstage.2, hfind⟩
  | none =>
    simp only [hfind] at h ⊢
    cases h
    exact Or.inl ⟨_, rfl, hstage⟩

theorem leads_findAway
    (hstage : Resolved w loop.provider canonical (.findAway ref leagueId homeTeamId))
    (h : (upsertStep loop canonical (.findAway ref leagueId homeTeamId) w).2 = some t') :
    Leads (upsertStep loop canonical (.findAway ref leagueId homeTeamId) w).1 loop canonical t' := by
  simp only [upsertStep] at h ⊢
  cases hfind : w.teams.lookup (loop.provider, canonical.awayTeam.providerRef) with
  | some teamId =>
    simp only [hfind] at h ⊢
    cases h
    exact Or.inl ⟨_, rfl, hstage.1, hstage.2.1, hstage.2.2, hfind⟩
  | none =>
    simp only [hfind] at h ⊢
    cases h
    exact Or.inl ⟨_, rfl, hstage⟩

/-- A fixture that is there has been found with its league and its teams. -/
theorem leads_update {fixtureId : ℕ} (hstage : Resolved w loop.provider canonical
      (.write (some fixtureId) leagueId homeTeamId awayTeamId))
    (hg : Grows w (upsertStep loop canonical
      (.write (some fixtureId) leagueId homeTeamId awayTeamId) w).1)
    (h : (upsertStep loop canonical
      (.write (some fixtureId) leagueId homeTeamId awayTeamId) w).2 = some t') :
    Leads (upsertStep loop canonical
      (.write (some fixtureId) leagueId homeTeamId awayTeamId) w).1 loop canonical t' := by
  obtain ⟨href, hleague, hhome, haway⟩ := hstage
  simp only [upsertStep] at h hg ⊢
  cases hrun : updateSynced fixtureId canonical.toCanonicalFixture w.db with
  | ok r =>
    simp only [hrun] at h hg ⊢
    cases h
    obtain ⟨ref, hfind, _⟩ := href fixtureId rfl
    have hknown : Known w loop.provider canonical :=
      known_of_lookups hleague hhome haway (by rw [hfind]; exact Option.some_ne_none ref)
    exact Or.inr (Or.inl ⟨_, rfl, rfl, rfl, rfl, hknown.grows hg⟩)
  | error e =>
    simp only [hrun] at h ⊢
    exact Or.inr (Or.inr h)

/-- A fixture that is created is known from then on. -/
theorem leads_create (hstage : Resolved w loop.provider canonical
      (.write none leagueId homeTeamId awayTeamId))
    (hg : Grows w (upsertStep loop canonical (.write none leagueId homeTeamId awayTeamId) w).1)
    (h : (upsertStep loop canonical (.write none leagueId homeTeamId awayTeamId) w).2 = some t') :
    Leads (upsertStep loop canonical (.write none leagueId homeTeamId awayTeamId) w).1 loop
      canonical t' := by
  obtain ⟨_, hleague, hhome, haway⟩ := hstage
  simp only [upsertStep] at h hg ⊢
  cases hrun : createSynced loop.provider canonical.toCanonicalFixture w.db with
  | ok r =>
    simp only [hrun] at h hg ⊢
    cases h
    exact Or.inl ⟨_, rfl, known_of_lookups (hg.leagues.lookup hleague) (hg.teams.lookup hhome)
      (hg.teams.lookup haway) (findRef_createSynced hrun)⟩
  | error e =>
    simp only [hrun] at h ⊢
    exact Or.inr (Or.inr h)

end Stages

/-- An upsert resolves one row after the other and then writes. -/
theorem resolved_upsertStep {loop : Loop} {stage : Stage} {t' : Task}
    (hstage : Resolved w loop.provider canonical stage)
    (h : (upsertStep loop canonical stage w).2 = some t') :
    Leads (upsertStep loop canonical stage w).1 loop canonical t' := by
  have hg : Grows w (upsertStep loop canonical stage w).1 :=
    grows_step ⟨0, none⟩ (.upsert loop canonical stage) w
  cases stage with
  | findRef =>
    cases h
    refine Or.inl ⟨_, rfl, ?_⟩
    intro id hid
    exact Option.map_eq_some_iff.1 hid
  | findLeague ref =>
    exact leads_findLeague hstage h
  | createLeague ref =>
    rcases created_next h with ⟨id, ho, rfl⟩ | hday
    · exact Or.inl ⟨_, rfl, FoundRef.grows hstage hg, lookup_createLeague ho⟩
    · exact Or.inr (Or.inr hday)
  | findHome ref leagueId =>
    exact leads_findHome hstage h
  | createHome ref leagueId =>
    rcases created_next h with ⟨id, ho, rfl⟩ | hday
    · exact Or.inl ⟨_, rfl, hstage.1.grows hg, hg.leagues.lookup hstage.2, lookup_createTeam ho⟩
    · exact Or.inr (Or.inr hday)
  | findAway ref leagueId homeTeamId =>
    exact leads_findAway hstage h
  | createAway ref leagueId homeTeamId =>
    rcases created_next h with ⟨id, ho, rfl⟩ | hday
    · exact Or.inl ⟨_, rfl, hstage.1.grows hg, hg.leagues.lookup hstage.2.1,
        hg.teams.lookup hstage.2.2, lookup_createTeam ho⟩
    · exact Or.inr (Or.inr hday)
  | write ref leagueId homeTeamId awayTeamId =>
    cases ref with
    | some fixtureId => exact leads_update hstage hg h
    | none => exact leads_create hstage hg h
  | announce fixtureId =>
    cases h
    exact Or.inr (Or.inl ⟨_, rfl, rfl, rfl, rfl, hstage.grows hg⟩)

theorem reports_upsertStep (loop : Loop) (canonical : CanonicalFixture) (stage : Stage) (w : World) :
    (upsertStep loop canonical stage w).1.reports = w.reports := by
  cases stage with
  | findRef | announce fixtureId => rfl
  | findLeague ref | findHome ref leagueId | findAway ref leagueId homeTeamId =>
    simp only [upsertStep]
    split <;> rfl
  | createLeague ref =>
    simp only [upsertStep, createLeague]
    cases w.leagues.tryCreate (loop.provider, canonical.leagueRef) (newLeague canonical)
      (id_newLeague canonical) <;> rfl
  | createHome ref leagueId | createAway ref leagueId homeTeamId =>
    simp only [upsertStep, createTeam]
    cases w.teams.tryCreate (loop.provider, _) _ _ <;> rfl
  | write ref leagueId homeTeamId awayTeamId =>
    cases ref <;> simp only [upsertStep] <;> split <;> rfl

/-- A step reports nothing, or what its sync was past. -/
theorem reports_step (tick : Tick) (t : Task) (w : World) :
    (step tick t w).1.reports = w.reports ∨ ∃ loop, t = .next loop ∧ loop.rest = [] ∧
      (step tick t w).1.reports =
        w.reports ++ [⟨loop.provider, loop.payload, loop.created, loop.updated⟩] := by
  cases t with
  | lock provider =>
    simp only [step]
    split_ifs <;> exact Or.inl rfl
  | fetch provider days | finalize fixtureId result =>
    simp only [step]
    split <;> exact Or.inl rfl
  | next loop =>
    cases hrest : loop.rest with
    | nil => exact Or.inr ⟨loop, rfl, hrest, by simp only [step, hrest]⟩
    | cons canonical rest => exact Or.inl (by simp only [step, hrest])
  | finalizeTx fixtureId result => exact Or.inl rfl
  | upsert loop canonical stage =>
    exact Or.inl (reports_upsertStep loop canonical stage w)

theorem reported_step (tick : Tick) {t : Task} (hw : Reported w) (ht : Progress w t) :
    Reported (step tick t w).1 := by
  have hg := grows_step tick t w
  rcases reports_step tick t w with hsame | ⟨loop, rfl, hrest, hreports⟩
  · exact hw.grows hg hsame
  · intro r hr c hc
    rw [hreports, List.mem_append, List.mem_singleton] at hr
    rcases hr with hr | rfl
    · exact (hw r hr c hc).grows hg
    · rcases ht c hc with hmem | hknown
      · rw [hrest] at hmem
        cases hmem
      · exact hknown.grows hg

theorem progress_step (tick : Tick) {t t' : Task} (ht : Progress w t)
    (h : (step tick t w).2 = some t') : Progress (step tick t w).1 t' := by
  have hday : ∀ {provider : String} {days : ℕ} {w : World},
      nextDay provider days = some t' → Progress w t' := by
    intro provider days w hnext
    cases days with
    | zero => cases hnext
    | succ days =>
      cases hnext
      trivial
  cases t with
  | lock provider =>
    simp only [step] at h
    split_ifs at h
    cases h
    trivial
  | fetch provider days =>
    simp only [step] at h ⊢
    split at h
    · cases h
      exact fun c hc => Or.inl hc
    · exact hday h
  | next loop =>
    simp only [step] at h ⊢
    cases hrest : loop.rest with
    | nil =>
      simp only [hrest] at h
      exact hday h
    | cons canonical rest =>
      simp only [hrest] at h ⊢
      cases h
      refine ⟨trivial, ?_⟩
      intro c hc
      have hor := ht c hc
      rw [hrest, List.mem_cons, or_assoc] at hor
      exact hor
  | finalize fixtureId result =>
    simp only [step] at h
    split at h <;> cases h
    trivial
  | finalizeTx fixtureId result => cases h
  | upsert loop canonical stage =>
    have hg := grows_step tick (.upsert loop canonical stage) w
    rcases resolved_upsertStep ht.1 h with ⟨stage', rfl, hstage⟩ |
      ⟨loop', rfl, hprovider, hpayload, hrest, hknown⟩ | hnext
    · exact ⟨hstage, fun c hc => (ht.2 c hc).imp_right (fun hor =>
        hor.imp_right (fun hold => hold.grows hg))⟩
    · intro c hc
      rw [hprovider, hrest]
      rw [hpayload] at hc
      rcases ht.2 c hc with rfl | hmem | hold
      · exact Or.inr hknown
      · exact Or.inl hmem
      · exact Or.inr (hold.grows hg)
    · exact hday hnext

theorem reported_inductive : protocol.Inductive (fun _ _ _ => True) Reported Progress where
  init w call _ := by cases call <;> trivial
  shared tick t w hw ht _ := reported_step tick hw ht
  cont tick t w t' _ ht _ h := progress_step tick ht h
  stable tick t w u _ _ _ hu := hu.grows (grows_step tick t w)

end Progress

section Repeating
variable {base w w' : World} {provider : String} {canonical : CanonicalFixture}

theorem SameKeys.trans (h : SameKeys base w) (h' : SameKeys w w') : SameKeys base w' :=
  ⟨h'.leagues.trans h.leagues, h'.teams.trans h.teams, h'.refs.trans h.refs, h'.ids.trans h.ids,
    h'.sides.trans h.sides, h'.announced.trans h.announced⟩

/-- The stages of an upsert that finds all it looks for. -/
def Finds : Stage → Prop
  | .findRef => True
  | .findLeague ref | .findHome ref _ | .findAway ref _ _ | .write ref _ _ _ => ref ≠ none
  | _ => False

/-- What a sync of known fixtures has done so far. -/
def Repeats (base : World) : Task → Prop
  | .next loop => loop.created = 0 ∧ loop.updated + loop.rest.length = loop.payload.length ∧
    ∀ c ∈ loop.rest, Known base loop.provider c
  | .upsert loop canonical stage => Finds stage ∧ Known base loop.provider canonical ∧
    loop.created = 0 ∧ loop.updated + loop.rest.length + 1 = loop.payload.length ∧
    ∀ c ∈ loop.rest, Known base loop.provider c
  | _ => True

/-- The provider answers with known fixtures. -/
def AnswersKnown (base : World) (tick : Tick) (t : Task) (_ : World) : Prop :=
  match t with
  | .fetch provider _ => ∀ c ∈ tick.fixtures.getD [], Known base provider c
  | _ => True

/-- Nothing has been created since, and the reports since then say so. -/
def Unchanged (base w : World) : Prop :=
  SameKeys base w ∧ ∃ rs, w.reports = base.reports ++ rs ∧
    ∀ r ∈ rs, r.created = 0 ∧ r.updated = r.payload.length

theorem SameKeys.known (h : SameKeys base w) (hknown : Known base provider canonical) :
    Known w provider canonical := hknown.grows h.grows

theorem finds_upsertStep {loop : Loop} {stage : Stage} (hfinds : Finds stage)
    (hknown : Known w loop.provider canonical) :
    SameKeys w (upsertStep loop canonical stage w).1 ∧
      ∀ t', (upsertStep loop canonical stage w).2 = some t' →
        (∃ stage', t' = .upsert loop canonical stage' ∧ Finds stage') ∨
          t' = .next { loop with updated := loop.updated + 1 } ∨
          nextDay loop.provider loop.days = some t' := by
  cases stage with
  | findRef =>
    refine ⟨SameKeys.refl w, ?_⟩
    rintro t' ⟨⟩
    refine Or.inl ⟨_, rfl, ?_⟩
    rw [Finds, ne_eq, Option.map_eq_none_iff]
    exact hknown.fixture
  | findLeague ref =>
    obtain ⟨id, hid⟩ := Option.ne_none_iff_exists'.1 hknown.league
    simp only [upsertStep, hid]
    refine ⟨SameKeys.refl w, ?_⟩
    rintro t' ⟨⟩
    exact Or.inl ⟨_, rfl, hfinds⟩
  | findHome ref leagueId =>
    obtain ⟨id, hid⟩ := Option.ne_none_iff_exists'.1 hknown.home
    simp only [upsertStep, hid]
    refine ⟨SameKeys.refl w, ?_⟩
    rintro t' ⟨⟩
    exact Or.inl ⟨_, rfl, hfinds⟩
  | findAway ref leagueId homeTeamId =>
    obtain ⟨id, hid⟩ := Option.ne_none_iff_exists'.1 hknown.away
    simp only [upsertStep, hid]
    refine ⟨SameKeys.refl w, ?_⟩
    rintro t' ⟨⟩
    exact Or.inl ⟨_, rfl, hfinds⟩
  | write ref leagueId homeTeamId awayTeamId =>
    obtain ⟨fixtureId, rfl⟩ := Option.ne_none_iff_exists'.1 hfinds
    simp only [upsertStep]
    cases hrun : updateSynced fixtureId canonical.toCanonicalFixture w.db with
    | ok r =>
      refine ⟨(sameFixtures_updateSynced hrun).sameKeys, ?_⟩
      rintro t' ⟨⟩
      exact Or.inr (Or.inl rfl)
    | error e => exact ⟨SameKeys.refl w, fun t' h => Or.inr (Or.inr h)⟩
  | _ => exact absurd hfinds id

theorem unchanged_of_reports (h : Unchanged base w) (hkeys : SameKeys w w')
    (hreports : w'.reports = w.reports) : Unchanged base w' := by
  obtain ⟨hsame, rs, hrs, hall⟩ := h
  exact ⟨hsame.trans hkeys, rs, hreports.trans hrs, hall⟩

theorem unchanged_step {tick : Tick} {t : Task} (hw : Unchanged base w) (ht : Repeats base t) :
    Unchanged base (step tick t w).1 := by
  cases t with
  | next loop =>
    cases hrest : loop.rest with
    | nil =>
      obtain ⟨hsame, rs, hrs, hall⟩ := hw
      obtain ⟨hcreated, hupdated, _⟩ := ht
      rw [hrest, List.length_nil, add_zero] at hupdated
      simp only [step, hrest]
      refine ⟨hsame.trans ⟨rfl, rfl, rfl, rfl, rfl, rfl⟩,
        rs ++ [⟨loop.provider, loop.payload, loop.created, loop.updated⟩], ?_, ?_⟩
      · rw [hrs, List.append_assoc]
      · intro r hr
        rcases List.mem_append.1 hr with hr | hr
        · exact hall r hr
        · rw [List.mem_singleton.1 hr]
          exact ⟨hcreated, hupdated⟩
    | cons canonical rest =>
      simp only [step, hrest]
      exact hw
  | upsert loop canonical stage =>
    have hknown : Known w loop.provider canonical := hw.1.known ht.2.1
    exact unchanged_of_reports hw (finds_upsertStep ht.1 hknown).1
      (reports_upsertStep loop canonical stage w)
  | lock provider =>
    simp only [step]
    split_ifs
    · exact hw
    · exact unchanged_of_reports hw ⟨rfl, rfl, rfl, rfl, rfl, rfl⟩ rfl
  | fetch provider days | finalize fixtureId result =>
    simp only [step]
    split <;> exact hw
  | finalizeTx fixtureId result =>
    exact unchanged_of_reports hw (sameFixtures_finalizeTx tick.now fixtureId result w.db).sameKeys rfl

theorem repeats_step {tick : Tick} {t t' : Task} (hw : Unchanged base w) (ht : Repeats base t)
    (hG : AnswersKnown base tick t w) (h : (step tick t w).2 = some t') : Repeats base t' := by
  have hday : ∀ {provider : String} {days : ℕ}, nextDay provider days = some t' → Repeats base t' := by
    intro provider days hnext
    cases days with
    | zero => cases hnext
    | succ days =>
      cases hnext
      trivial
  cases t with
  | lock provider =>
    simp only [step] at h
    split_ifs at h
    cases h
    trivial
  | fetch provider days =>
    simp only [step] at h
    split at h
    · next fixtures hfixtures =>
      cases h
      simp only [AnswersKnown, hfixtures, Option.getD_some] at hG
      exact ⟨rfl, Nat.zero_add _, hG⟩
    · exact hday h
  | next loop =>
    obtain ⟨hcreated, hupdated, hrest⟩ := ht
    simp only [step] at h
    cases hcons : loop.rest with
    | nil =>
      simp only [hcons] at h
      exact hday h
    | cons canonical rest =>
      simp only [hcons] at h
      cases h
      rw [hcons] at hupdated hrest
      rw [List.forall_mem_cons] at hrest
      exact ⟨trivial, hrest.1, hcreated, hupdated, hrest.2⟩
  | finalize fixtureId result =>
    simp only [step] at h
    split at h <;> cases h
    trivial
  | finalizeTx fixtureId result => cases h
  | upsert loop canonical stage =>
    obtain ⟨hfinds, hknown, hcreated, hupdated, hrest⟩ := ht
    rcases (finds_upsertStep hfinds (hw.1.known hknown)).2 t' h with ⟨stage', rfl, hfinds'⟩ | rfl |
      hnext
    · exact ⟨hfinds', hknown, hcreated, hupdated, hrest⟩
    · have hcount : loop.updated + 1 + loop.rest.length = loop.payload.length := by omega
      exact ⟨hcreated, hcount, hrest⟩
    · exact hday hnext

theorem unchanged_inductive (base : World) : protocol.Inductive (AnswersKnown base) (Unchanged base)
    (fun _ t => Repeats base t) where
  init w call _ := by cases call <;> trivial
  shared tick t w hw ht _ := unchanged_step hw ht
  cont tick t w t' hw ht hG h := repeats_step hw ht hG h
  stable tick t w u _ _ _ hu := hu

/-- The same references, whatever else the provider says. -/
def SameRefs (c c' : CanonicalFixture) : Prop :=
  c.providerRef = c'.providerRef ∧ c.leagueRef = c'.leagueRef ∧
    c.homeTeam.providerRef = c'.homeTeam.providerRef ∧
    c.awayTeam.providerRef = c'.awayTeam.providerRef

/-- Whatever the provider answers has the references of a fixture that a sync has reported. -/
def AnswersReported (base : World) (tick : Tick) (t : Task) (_ : World) : Prop :=
  match t with
  | .fetch provider _ => ∀ c ∈ tick.fixtures.getD [],
    ∃ r ∈ base.reports, r.provider = provider ∧ ∃ c' ∈ r.payload, SameRefs c c'
  | _ => True

theorem Known.sameRefs {c c' : CanonicalFixture} (h : Known w provider c') (hs : SameRefs c c') :
    Known w provider c := by
  obtain ⟨href, hleague, hhome, haway⟩ := hs
  exact ⟨hleague ▸ h.league, hhome ▸ h.home, haway ▸ h.away, href ▸ h.fixture⟩

theorem answersKnown_of_reported {tick : Tick} {t : Task} (hbase : Reported base)
    (h : AnswersReported base tick t w) : AnswersKnown base tick t w := by
  cases t with
  | fetch provider days =>
    intro c hc
    obtain ⟨r, hr, rfl, c', hc', hs⟩ := h c hc
    exact (hbase r hr c' hc').sameRefs hs
  | _ => trivial

/-- Syncs of what completed syncs have reported create nothing, however many of them run
at once, and report updates only. -/
theorem resync_creates_nothing (hw : w.reports = []) {as bs : List (Act Call Tick)}
    (hbs : protocol.Along (AnswersReported (protocol.run ⟨w, []⟩ as).shared)
      ⟨(protocol.run ⟨w, []⟩ as).shared, []⟩ bs) :
    Unchanged (protocol.run ⟨w, []⟩ as).shared
      (protocol.run ⟨(protocol.run ⟨w, []⟩ as).shared, []⟩ bs).shared := by
  have hfirst : Protocol.Holds Reported Progress (⟨w, []⟩ : Config World Task) := by
    refine ⟨?_, by simp⟩
    intro r hr
    rw [hw] at hr
    cases hr
  have hbase : Reported (protocol.run ⟨w, []⟩ as).shared :=
    (reported_inductive.run hfirst (protocol.along_of_forall (fun _ _ _ => trivial) _ as)).1
  have hsecond : Protocol.Holds (Unchanged (protocol.run ⟨w, []⟩ as).shared)
      (fun _ t => Repeats (protocol.run ⟨w, []⟩ as).shared t)
      (⟨(protocol.run ⟨w, []⟩ as).shared, []⟩ : Config World Task) :=
    ⟨⟨SameKeys.refl _, [], by simp⟩, by simp⟩
  exact ((unchanged_inductive _).run hsecond
    (hbs.mono _ (fun _ _ _ h => answersKnown_of_reported hbase h))).1

end Repeating

section Sample

instance (base : World) (tick : Tick) (t : Task) (w : World) :
    Decidable (AnswersReported base tick t w) := by
  unfold AnswersReported SameRefs
  split <;> infer_instance

def emptyWorld : World := ⟨Db.empty, Mapping.empty, Mapping.empty, [], none, []⟩

/-- The one match of the day, as the provider has it at some time. -/
def derby (status : FixtureStatus) (goals : Option ℕ) : CanonicalFixture where
  providerRef := "fx1"
  kickoffAt := 1000
  status := status
  homeGoals := goals
  awayGoals := goals
  htHomeGoals := none
  htAwayGoals := none
  leagueRef := "npl"
  leagueName := none
  leagueCountry := some "Nigeria"
  homeTeam := ⟨"t0", "Lagos United", some "LAG", none⟩
  awayTeam := ⟨"t1", "Abuja City", some "ABJ", none⟩

def answer (status : FixtureStatus) (goals : Option ℕ) : Tick := ⟨0, some [derby status goals]⟩

/-- A sync that finds nothing. -/
def firstSync : List (Act Call Tick) :=
  .start (.syncDate "FD") :: List.replicate 12 (.resume 0 (answer .scheduled none))

/-- Two syncs at once after the match. -/
def secondSync : List (Act Call Tick) :=
  .start (.syncDate "FD") :: .start (.syncDate "FD") ::
    (List.replicate 8 [Act.resume 1 (answer .finished (some 1)),
      .resume 0 (answer .finished (some 1))]).flatten

theorem resync_creates_nothing_derby :
    Unchanged (protocol.run ⟨emptyWorld, []⟩ firstSync).shared
      (protocol.run ⟨(protocol.run ⟨emptyWorld, []⟩ firstSync).shared, []⟩ secondSync).shared := by
  have hbs : protocol.Along (AnswersReported (protocol.run ⟨emptyWorld, []⟩ firstSync).shared)
      ⟨(protocol.run ⟨emptyWorld, []⟩ firstSync).shared, []⟩ secondSync := by decide +kernel
  exact resync_creates_nothing rfl hbs

end Sample

end FixtureSync
end FootballIQ
