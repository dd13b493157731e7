import FootballIQ.CatalogRuns
import FootballIQ.RatingJobs

/-!
# Ratings over all runs

Whatever ratings, syncs and changes of the weights run at once, a stored rating can be explained:
by the weights that it names, and by what the provider has answered about the fixture's teams.
-/

namespace FootballIQ
namespace RatingRuns

open Transaction Relational Interleaving Difficulty FootballData FormGuide

section References
variable {teams : Mapping FixtureSync.Ref FixtureSync.Team} {catalog : FixtureSync.World}
  {directory : FixtureSync.Directory}

/-- A team has one reference at each provider. -/
def OneRef (teams : Mapping FixtureSync.Ref FixtureSync.Team) : Prop :=
  (teams.refs.map (fun r => (r.1.1, r.2))).Nodup

theorem OneRef.refOf (h : OneRef teams) {providerRef : String} {teamId : ℕ}
    (hteam : teams.lookup (provider, providerRef) = some teamId) :
    refOf teams teamId = providerRef := by
  have hmem : ((provider, providerRef), teamId) ∈ teams.refs :=
    Mapping.lookup_eq_some_iff.1 hteam
  have hfind := find?_of_nodup h hmem
  simp only [RatingRuns.refOf, hfind, Option.map_some, Option.getD_some]

theorem OneRef.create (h : OneRef teams) {k : FixtureSync.Ref} {mk : ℕ → FixtureSync.Team}
    {hmk : ∀ id, Row.id (mk id) = id} {id : ℕ} {teams' : Mapping FixtureSync.Ref FixtureSync.Team}
    (hcreate : teams.tryCreate k mk hmk = some (id, teams')) : OneRef teams' := by
  unfold Mapping.tryCreate at hcreate
  split_ifs at hcreate
  cases hcreate
  unfold OneRef Mapping.create
  rw [List.map_append, List.map_singleton]
  apply FixtureSync.nodup_snoc h
  intro hmem
  obtain ⟨r, hr, heq⟩ := List.mem_map.1 hmem
  have hfresh : r.2 = teams.rows.fresh := congrArg Prod.snd heq
  exact teams.targets r hr (hfresh ▸ teams.rows.find_fresh)

theorem oneRef_step (tick : FixtureSync.Tick) (task : FixtureSync.Task)
    (h : OneRef catalog.teams) : OneRef (FixtureSync.step tick task catalog).1.teams := by
  rcases FixtureSync.step_cases tick task catalog with hsame | ⟨_, _, _, rfl⟩ |
    ⟨_, _, _, _, _, _, _, hstep⟩ | ⟨_, _, _, _, _, _, _, _, hm, hstep⟩ |
    ⟨_, _, _, _, _, _, _, _, hstep⟩
  · exact hsame.teams ▸ h
  · exact h
  · rw [hstep]
    exact h
  · rw [hstep]
    exact h.create hm
  · rw [hstep]
    exact h

/-- The references are those of the teams that the provider names for the fixture. -/
def Named (directory : FixtureSync.Directory) (catalog : FixtureSync.World) (fixtureId : ℕ)
    (refs : Refs) : Prop :=
  fixtureId ∈ catalog.db.fixtures.rows.map Row.id ∧
    ∀ ref ∈ catalog.db.fixtureProviderRefs, ref.fixtureId = fixtureId → ref.provider = provider →
      refs = ⟨directory.home (FixtureSync.keyOf ref), directory.away (FixtureSync.keyOf ref)⟩

/-- What is read of a fixture that a sync has created is what the provider says. -/
theorem named_of_refsOf (hfaithful : FixtureSync.Faithful directory catalog)
    (hone : OneRef catalog.teams) {fixtureId : ℕ} {refs : Refs}
    (h : refsOf catalog fixtureId = some refs) : Named directory catalog fixtureId refs := by
  simp only [refsOf, Option.bind_eq_bind, Option.bind_eq_some_iff, Option.pure_def,
    Option.some.injEq] at h
  obtain ⟨f, hf, sides, hsides, rfl⟩ := h
  obtain ⟨hmem, hid⟩ := (Table.find_eq_some_iff _ _ _).1 hf
  refine ⟨List.mem_map.2 ⟨f, hmem, hid⟩, fun ref href hfixture hprovider => ?_⟩
  obtain ⟨s, hs, hlinks⟩ := hfaithful.linked ref href
  have hfound := find?_of_nodup hfaithful.sides hs
  rw [hlinks.fixture.trans hfixture, hsides, Option.some.injEq] at hfound
  subst hfound
  have hhome := hlinks.home
  have haway := hlinks.away
  rw [hprovider] at hhome haway
  rw [hone.refOf hhome, hone.refOf haway]

/-- A fixture gets no reference after its row. -/
theorem Named.grows {catalog' : FixtureSync.World} {fixtureId : ℕ} {refs : Refs}
    (h : Named directory catalog fixtureId refs) (hg : FixtureSync.Grows catalog catalog') :
    Named directory catalog' fixtureId refs := by
  obtain ⟨news, _, hrefs, _, hids, _⟩ := hg.fixtures
  have hnodup := catalog'.db.fixtures.nodup_ids
  rw [hids] at hnodup
  refine ⟨hids ▸ List.mem_append_left _ h.1, fun ref href hfixture hprovider => ?_⟩
  rw [hrefs] at href
  rcases List.mem_append.1 href with hold | hnew
  · exact h.2 ref hold hfixture hprovider
  · have hmem : fixtureId ∈ news.map FixtureProviderRef.fixtureId :=
      hfixture ▸ List.mem_map_of_mem hnew
    exact absurd hmem (List.disjoint_of_nodup_append hnodup h.1)

end References

section Explanations
variable {directory : FixtureSync.Directory} {span : ℕ} {w w' : World}

/-- The provider has answered this for the key less than half an hour and `late` before. -/
def Recent (late : ℕ) (now : DateTime) (w : World) (key : String) (matchList : List FdMatch) :
    Prop :=
  ∃ t, (key, matchList, t) ∈ w.answered ∧ now < t + (late + cacheTtl)

/-- The engine is given nothing, as a request has failed, or recent answers to all three. -/
def Supplied (late : ℕ) (now : DateTime) (w : World) (refs : Refs) (input : DifficultyInput) :
    Prop :=
  (input = noInput ∧ ∃ d t, (refs.key d, t) ∈ w.failures ∧ now ≤ t + late) ∨
    ∃ feeds, input = inputOf refs.home refs.away feeds ∧
      ∀ d, Recent late now w (refs.key d) (feedOf feeds d)

/-- At `t` the version was the newest active one, and its weights can still be read. -/
structure Weighed (w : World) (t : DateTime) (weightSet : Settings.WeightSet) : Prop where
  active : ∃ sets, (t, sets) ∈ w.history ∧ newestActive sets = some weightSet
  stored : ∃ current, w.weightSets.find weightSet.id = some current ∧
    current.weights = weightSet.weights

/-- A row can be recomputed from its columns: the stars from the score, the score from the signals
and the weights of the version it names, the signals from what the provider has answered about the
teams of the fixture. -/
structure Explained (directory : FixtureSync.Directory) (span : ℕ) (w : World)
    (d : FixtureDifficulty) (b : Breakdown) : Prop where
  stars : d.stars = scoreToStars b.score
  score : ∃ t weightSet, Weighed w t weightSet ∧ weightSet.id = b.weightSetId ∧
    b.computedAt ≤ t + span ∧ b.score = weightedScore b.signals (weightsOf weightSet.weights)
  signals : ∃ refs input, Named directory w.catalog d.fixtureId refs ∧
    Supplied span b.computedAt w refs input ∧ b.signals = computeSignals input

/-- What a rating has to go on with. -/
def Ready (w : World) (j : Job) : Stage → Prop
  | .gather | .done => True
  | .weigh input => Supplied 0 j.startedAt w j.refs input
  | .write input weightSet => Supplied 0 j.startedAt w j.refs input ∧
    ∃ t, j.startedAt ≤ t ∧ Weighed w t weightSet

structure Briefed (directory : FixtureSync.Directory) (w : World) (j : Job) : Prop where
  named : Named directory w.catalog j.fixtureId j.refs
  found : ∀ d matchList, j.found d = some matchList →
    Recent 0 j.startedAt w (j.refs.key d) matchList
  ready : Ready w j j.stage

theorem Recent.grows (h : Grows w w') {late : ℕ} {now : DateTime} {key : String}
    {matchList : List FdMatch} (hr : Recent late now w key matchList) :
    Recent late now w' key matchList := by
  obtain ⟨t, hmem, hlt⟩ := hr
  exact ⟨t, h.answered hmem, hlt⟩

theorem Supplied.grows (h : Grows w w') {late : ℕ} {now : DateTime} {refs : Refs}
    {input : DifficultyInput} (hs : Supplied late now w refs input) :
    Supplied late now w' refs input := by
  rcases hs with ⟨hinput, d, t, hmem, hle⟩ | ⟨feeds, hinput, hrecent⟩
  · exact Or.inl ⟨hinput, d, t, h.failures hmem, hle⟩
  · exact Or.inr ⟨feeds, hinput, fun d => (hrecent d).grows h⟩

/-- What was recent when a rating began is not much older when it is written. -/
theorem Supplied.later {startedAt now : DateTime} {refs : Refs} {input : DifficultyInput}
    (hs : Supplied 0 startedAt w refs input) (hnow : now ≤ startedAt + span) :
    Supplied span now w refs input := by
  rcases hs with ⟨hinput, d, t, hmem, hle⟩ | ⟨feeds, hinput, hrecent⟩
  · exact Or.inl ⟨hinput, d, t, hmem, Nat.le_trans hnow (Nat.add_le_add_right hle span)⟩
  · refine Or.inr ⟨feeds, hinput, fun d => ?_⟩
    obtain ⟨t, hmem, hlt⟩ := hrecent d
    refine ⟨t, hmem, ?_⟩
    calc now ≤ startedAt + span := hnow
      _ < t + (0 + cacheTtl) + span := Nat.add_lt_add_right hlt span
      _ = t + (span + cacheTtl) := by rw [Nat.zero_add, Nat.add_assoc, Nat.add_comm cacheTtl span]

theorem Weighed.grows (h : Grows w w') {t : DateTime} {weightSet : Settings.WeightSet}
    (hw : Weighed w t weightSet) : Weighed w' t weightSet := by
  obtain ⟨sets, hmem, hactive⟩ := hw.active
  obtain ⟨current, hfind, hweights⟩ := hw.stored
  obtain ⟨current', hfind', hsame⟩ := h.weights.find hfind
  exact ⟨⟨sets, h.history hmem, hactive⟩, current', hfind', hsame.trans hweights⟩

theorem Explained.grows (h : Grows w w') {d : FixtureDifficulty} {b : Breakdown}
    (he : Explained directory span w d b) : Explained directory span w' d b := by
  obtain ⟨t, weightSet, hweighed, hscore⟩ := he.score
  obtain ⟨refs, input, hnamed, hsupplied, hsignals⟩ := he.signals
  exact ⟨he.stars, ⟨t, weightSet, hweighed.grows h, hscore⟩, refs, input, hnamed.grows h.catalog,
    hsupplied.grows h, hsignals⟩

theorem Ready.grows (h : Grows w w') {j : Job} {stage : Stage} (hr : Ready w j stage) :
    Ready w' j stage := by
  cases stage with
  | gather | done => trivial
  | weigh input => exact Supplied.grows h hr
  | write input weightSet =>
    obtain ⟨hs, t, ht, hw⟩ := hr
    exact ⟨hs.grows h, t, ht, hw.grows h⟩

theorem Briefed.grows (h : Grows w w') {j : Job} (hj : Briefed directory w j) :
    Briefed directory w' j :=
  ⟨hj.named.grows h.catalog, fun d matchList hd => (hj.found d matchList hd).grows h,
    hj.ready.grows h⟩

theorem Briefed.settle {j : Job} (hj : Briefed directory w j) : Briefed directory w j.settle := by
  unfold Job.settle
  split
  · next home away history _ hhome haway hhistory =>
    refine ⟨hj.named, hj.found, Or.inr ⟨⟨home, away, history⟩, rfl, fun d => ?_⟩⟩
    cases d with
    | home => exact hj.found _ _ hhome
    | away => exact hj.found _ _ haway
    | history => exact hj.found _ _ hhistory
  · exact hj

/-- An answer is recent when it comes. -/
theorem Briefed.receive {j : Job} (hj : Briefed directory w j) {now : DateTime}
    (hnow : j.startedAt ≤ now) (d : Datum) (answer : Option (List FdMatch)) :
    Briefed directory (w.receive now j.process (j.refs.key d) answer) (j.receive d answer) := by
  have hgrown := hj.grows (grows_receive now j.process (j.refs.key d) answer w)
  unfold Job.receive
  split
  · next matchList =>
    refine Briefed.settle ⟨hgrown.named, fun d' matchList' hd' => ?_, hgrown.ready⟩
    have hupdated : Function.update j.found d (some matchList) d' = some matchList' := hd'
    by_cases heq : d' = d
    · subst heq
      rw [Function.update_self, Option.some.injEq] at hupdated
      subst hupdated
      refine ⟨now, List.mem_append_right _ List.mem_cons_self, ?_⟩
      exact Nat.lt_of_le_of_lt hnow (Nat.lt_add_of_pos_right (by decide))
    · rw [Function.update_of_ne heq] at hupdated
      exact hgrown.found d' matchList' hupdated
  · exact ⟨hgrown.named, hgrown.found,
      Or.inl ⟨rfl, d, now, List.mem_append_right _ List.mem_cons_self, hnow⟩⟩
  · exact ⟨hgrown.named, hgrown.found, hgrown.ready⟩

end Explanations

section Runs
variable {directory : FixtureSync.Directory} {span : ℕ} {w w' : World} {t : Task} {input : Input}

def Loaded (answered : List (String × List FdMatch × DateTime)) (k : ℕ × String)
    (matchList : List FdMatch) (t : DateTime) : Prop := (k.2, matchList, t) ∈ answered

structure Sound (directory : FixtureSync.Directory) (span : ℕ) (w : World) : Prop where
  faithful : FixtureSync.Faithful directory w.catalog
  oneRef : OneRef w.catalog.teams
  cache : w.cache.Justified (Loaded w.answered) (0 + cacheTtl)
  explained : ∀ d ∈ w.catalog.db.fixtureDifficulties.rows, ∀ b,
    w.breakdowns d.fixtureId = some b → Explained directory span w d b

def Knows (directory : FixtureSync.Directory) (w : World) : Task → Prop
  | .sync task => FixtureSync.Progress w.catalog task ∧ FixtureSync.Agreed directory task
  | .request _ fixtureId refs => Named directory w.catalog fixtureId refs
  | .rating j => Briefed directory w j
  | _ => True

def Stage.writes : Stage → Prop
  | .write _ _ => True
  | _ => False

/-- The provider names the same league and teams whenever it is asked, and a rating takes no
longer than `span` from its first look at what is remembered to its write. -/
def Timely (directory : FixtureSync.Directory) (span : ℕ) (input : Input) (t : Task) (w : World) :
    Prop :=
  match t with
  | .sync task => FixtureSync.AnswersAgree directory input.tick task w.catalog
  | .rating j => j.startedAt ≤ input.tick.now ∧
    (j.stage.writes → input.tick.now ≤ j.startedAt + span)
  | _ => True

theorem Knows.grows (h : Grows w w') (ht : Knows directory w t) : Knows directory w' t := by
  cases t with
  | sync task => exact ⟨ht.1.grows h.catalog, ht.2⟩
  | request process fixtureId refs => exact Named.grows ht h.catalog
  | rating j => exact Briefed.grows h ht
  | configure _ | computeForFixture _ _ | restart _ => trivial

/-- A step that leaves rows and breakdowns alone. -/
theorem Sound.aside (hw : Sound directory span w) (h : Grows w w')
    (hfaithful : FixtureSync.Faithful directory w'.catalog) (hone : OneRef w'.catalog.teams)
    (hcache : w'.cache.Justified (Loaded w'.answered) (0 + cacheTtl))
    (hrows : w'.catalog.db.fixtureDifficulties = w.catalog.db.fixtureDifficulties)
    (hbreakdowns : w'.breakdowns = w.breakdowns) : Sound directory span w' := by
  refine ⟨hfaithful, hone, hcache, fun d hd b hb => ?_⟩
  rw [hrows] at hd
  rw [hbreakdowns] at hb
  exact (hw.explained d hd b hb).grows h

theorem Sound.see (hw : Sound directory span w) (now : DateTime) :
    Sound directory span (w.see now) :=
  hw.aside (grows_see now w) hw.faithful hw.oneRef hw.cache rfl rfl

theorem Sound.receive (hw : Sound directory span w) (now : DateTime) (process : ℕ) (key : String)
    (answer : Option (List FdMatch)) :
    Sound directory span (w.receive now process key answer) := by
  cases answer with
  | none =>
    exact hw.aside (grows_receive now process key none w) hw.faithful hw.oneRef hw.cache rfl rfl
  | some matchList =>
    have hloaded : Loaded (w.answered ++ [(key, matchList, now)]) (process, key) matchList now :=
      List.mem_append_right _ List.mem_cons_self
    have hold : w.cache.Justified (Loaded (w.answered ++ [(key, matchList, now)])) (0 + cacheTtl) :=
      hw.cache.mono (fun _ _ _ h => List.mem_append_left _ h)
    have hcache : ReadThrough.Cache.Justified (Loaded (w.answered ++ [(key, matchList, now)]))
        (0 + cacheTtl) (w.cache.set now cacheTtl (process, key) matchList) :=
      hold.set hloaded (Nat.le_refl now)
    exact hw.aside (grows_receive now process key (some matchList) w) hw.faithful hw.oneRef hcache
      rfl rfl

theorem Sound.rate (hw : Sound directory span w) {now t : DateTime} {fixtureId : ℕ} {refs : Refs}
    {input : DifficultyInput} {weightSet : Settings.WeightSet}
    (hnamed : Named directory w.catalog fixtureId refs)
    (hsupplied : Supplied span now w refs input) (hweighed : Weighed w t weightSet)
    (hnow : now ≤ t + span) :
    Sound directory span
      (w.rate now fixtureId (computeStars input (weightsOf weightSet.weights)) weightSet.id) := by
  have hg := grows_rate now fixtureId (computeStars input (weightsOf weightSet.weights))
    weightSet.id w
  have hlinked : FixtureSync.Faithful directory (w.rate now fixtureId
      (computeStars input (weightsOf weightSet.weights)) weightSet.id).catalog := by
    refine ⟨hw.faithful.toKeyed.aside rfl rfl rfl, fun ref href => ?_⟩
    obtain ⟨s, hs, hlinks⟩ := hw.faithful.linked ref href
    exact ⟨s, hs, hlinks.grows (Mapping.Grows.refl _) (Mapping.Grows.refl _)⟩
  refine ⟨hlinked, hw.oneRef, hw.cache, fun d hd b hb => ?_⟩
  simp only [World.rate] at hb
  rcases mem_upsertStars hd with ⟨hid, hstars⟩ | ⟨hid, hold⟩
  · rw [hid, Function.update_self, Option.some.injEq] at hb
    subst hb
    exact ⟨hstars, ⟨t, weightSet, hweighed.grows hg, rfl, hnow, rfl⟩, refs, input,
      hid ▸ hnamed.grows hg.catalog, hsupplied.grows hg, rfl⟩
  · rw [Function.update_of_ne hid] at hb
    exact (hw.explained d hold b hb).grows hg

theorem mem_newestActive {sets : Table Settings.WeightSet} {weightSet : Settings.WeightSet}
    (h : newestActive sets = some weightSet) : sets.find weightSet.id = some weightSet := by
  have hmem := List.mem_of_getLast? h
  exact sets.find_id ((Table.mem_findMany _ _ _).1 hmem).1

theorem sound_step (hw : Sound directory span w) (ht : Knows directory w t)
    (hG : Timely directory span input t w) : Sound directory span (step input t w).1 := by
  have hseen := hw.see input.tick.now
  have hknown := ht.grows (grows_see input.tick.now w)
  cases t with
  | sync task =>
    exact hseen.aside (grows_act input (.sync task) _)
      (FixtureSync.faithful_step hw.faithful ht.1 ht.2) (oneRef_step _ _ hw.oneRef) hw.cache
      (difficulties_sync _ _ _) rfl
  | configure call =>
    exact hseen.aside (grows_act input (.configure call) _) hw.faithful hw.oneRef hw.cache rfl rfl
  | computeForFixture _ _ | request _ _ _ => exact hseen
  | restart process =>
    exact hseen.aside (grows_act input (.restart process) _) hw.faithful hw.oneRef
      (hw.cache.delWhere _) rfl rfl
  | rating j =>
    simp only [step, act]
    split
    · split_ifs
      · exact hseen.receive _ _ _ _
      · exact hseen
    · unfold proceed
      split
      · exact hseen
      · split <;> exact hseen
      · next computed weightSet hstage =>
        have hready := hknown.ready
        rw [hstage] at hready
        obtain ⟨hsupplied, t, ht, hweighed⟩ := hready
        have hnow := hG.2 (hstage ▸ trivial)
        exact hseen.rate hknown.named (hsupplied.later hnow) hweighed
          (Nat.le_trans hnow (Nat.add_le_add_right ht span))
      · split_ifs <;> exact hseen

/-- A rating goes on with what it has. -/
theorem Briefed.proceed {j : Job} (hj : Briefed directory w j) {now : DateTime}
    (hnow : j.startedAt ≤ now) (hseen : (now, w.weightSets) ∈ w.history) {t' : Task}
    (h : (proceed now j w).2 = some t') : Knows directory (proceed now j w).1 t' := by
  have hdone : ∀ w', Grows w w' → Briefed directory w' { j with stage := .done } :=
    fun w' hg => ⟨(hj.grows hg).named, (hj.grows hg).found, trivial⟩
  have hready := hj.ready
  unfold RatingRuns.proceed at h ⊢
  cases hstage : j.stage with
  | gather =>
    simp only [hstage] at h ⊢
    cases h
    exact hj
  | weigh input =>
    rw [hstage] at hready
    cases hactive : newestActive w.weightSets with
    | none =>
      simp only [hstage, hactive] at h ⊢
      cases h
      exact hdone w (Grows.refl w)
    | some weightSet =>
      simp only [hstage, hactive] at h ⊢
      cases h
      have hweighed : Weighed w now weightSet :=
        ⟨⟨w.weightSets, hseen, hactive⟩, weightSet, mem_newestActive hactive, rfl⟩
      exact ⟨hj.named, hj.found, hready, now, hnow, hweighed⟩
  | write input weightSet =>
    simp only [hstage] at h ⊢
    cases h
    exact hdone _ (grows_rate _ _ _ _ w)
  | done =>
    simp only [hstage] at h ⊢
    split_ifs at h ⊢
    cases h
    exact hj

theorem knows_next {t' : Task} (hw : Sound directory span w) (ht : Knows directory w t)
    (hG : Timely directory span input t w) (h : (step input t w).2 = some t') :
    Knows directory (step input t w).1 t' := by
  have hseen := hw.see input.tick.now
  have hknown := ht.grows (grows_see input.tick.now w)
  cases t with
  | sync task =>
    obtain ⟨next, hnext, rfl⟩ := Option.map_eq_some_iff.1 h
    exact ⟨FixtureSync.progress_step _ ht.1 hnext, FixtureSync.agreed_step ht.1 ht.2 hG hnext⟩
  | computeForFixture process fixtureId =>
    obtain ⟨refs, hrefs, rfl⟩ := Option.map_eq_some_iff.1 h
    exact named_of_refsOf hw.faithful hw.oneRef hrefs
  | request process fixtureId refs =>
    cases h
    refine Briefed.settle ⟨hknown, fun d matchList hd => ?_, trivial⟩
    exact hseen.cache.get hd
  | rating j =>
    cases hanswer : input.answer with
    | some a =>
      obtain ⟨d, answer⟩ := a
      simp only [step, act, hanswer] at h ⊢
      split_ifs at h ⊢
      · cases h
        exact hknown.receive hG.1 d answer
      · cases h
        exact hknown
    | none =>
      simp only [step, act, hanswer] at h ⊢
      exact hknown.proceed hG.1 (List.mem_append_right _ List.mem_cons_self) h
  | configure _ | restart _ => cases h

theorem inductive_sound (directory : FixtureSync.Directory) (span : ℕ) :
    protocol.Inductive (Timely directory span) (Sound directory span) (Knows directory) where
  init w call _ := by
    cases call with
    | sync call => cases call <;> exact ⟨trivial, trivial⟩
    | configure _ | computeForFixture _ _ | restart _ => trivial
  shared _ _ _ hw ht hG := sound_step hw ht hG
  cont _ _ _ _ hw ht hG h := knows_next hw ht hG h
  stable input t w _ _ _ _ hu := hu.grows (grows_step input t w)

/-- The overrides of the rows that are there stay. -/
theorem overrides_step (input : Input) (t : Task) (w : World) :
    Table.Keeps FixtureDifficulty.overrideStars w.catalog.db.fixtureDifficulties
      (step input t w).1.catalog.db.fixtureDifficulties := by
  have hsame : ∀ w' : World, w'.catalog = w.catalog →
      Table.Keeps FixtureDifficulty.overrideStars w.catalog.db.fixtureDifficulties
        w'.catalog.db.fixtureDifficulties := by
    intro w' hw'
    rw [hw']
    exact Table.Keeps.refl _ _
  cases t with
  | sync task =>
    simp only [step, act, difficulties_sync]
    exact Table.Keeps.refl _ _
  | configure _ | computeForFixture _ _ | request _ _ _ | restart _ => exact hsame _ rfl
  | rating j =>
    simp only [step, act]
    split
    · split_ifs
      · unfold World.receive
        split <;> exact hsame _ rfl
      · exact hsame _ rfl
    · unfold proceed
      split
      · exact hsame _ rfl
      · split <;> exact hsame _ rfl
      · exact keeps_upsertStars _ _ _
      · split_ifs <;> exact hsame _ rfl

theorem overrides_run (as : List (Act Call Input)) (c : Config World Task) :
    Table.Keeps FixtureDifficulty.overrideStars c.shared.catalog.db.fixtureDifficulties
      (protocol.run c as).shared.catalog.db.fixtureDifficulties := by
  apply Protocol.Along.run_rel (R := fun w w' : World => Table.Keeps
    FixtureDifficulty.overrideStars w.catalog.db.fixtureDifficulties
    w'.catalog.db.fixtureDifficulties) protocol (fun _ => Table.Keeps.refl _ _)
    (fun _ _ _ h h' => h.trans h')
  exact protocol.along_of_forall overrides_step c as

/-- In every interleaving of ratings, syncs, changes of the weights and restarts, with requests
that are answered late or fail, every rating that is stored can be recomputed from its columns and
what the provider has answered about the fixture's teams, and overrides survive. -/
theorem explained_of_run {catalog : FixtureSync.World} {weightSets : Table Settings.WeightSet}
    (hfaithful : FixtureSync.Faithful directory catalog) (hone : OneRef catalog.teams)
    {as : List (Act Call Input)}
    (has : protocol.Along (Timely directory span) ⟨begins catalog weightSets, []⟩ as) :
    (∀ d ∈ (protocol.run ⟨begins catalog weightSets, []⟩
        as).shared.catalog.db.fixtureDifficulties.rows, ∀ b,
      (protocol.run ⟨begins catalog weightSets, []⟩ as).shared.breakdowns d.fixtureId = some b →
        Explained directory span (protocol.run ⟨begins catalog weightSets, []⟩ as).shared d b) ∧
      Table.Keeps FixtureDifficulty.overrideStars catalog.db.fixtureDifficulties
        (protocol.run ⟨begins catalog weightSets, []⟩
          as).shared.catalog.db.fixtureDifficulties := by
  have hsound : Sound directory span (begins catalog weightSets) :=
    ⟨hfaithful, hone, ReadThrough.Cache.justified_empty, by simp [begins]⟩
  have hstart : Protocol.Holds (Sound directory span) (Knows directory)
      (⟨begins catalog weightSets, []⟩ : Config World Task) := ⟨hsound, by simp⟩
  exact ⟨((inductive_sound directory span).run hstart has).1.explained,
    overrides_run as ⟨begins catalog weightSets, []⟩⟩

end Runs

section Sample

/-- A match of the teams 57 and 61. -/
def fixture : FixtureSync.CanonicalFixture :=
  { FixtureSync.derby .scheduled none with
    homeTeam := ⟨"57", "Lagos United", some "LAG", none⟩
    awayTeam := ⟨"61", "Abuja City", some "ABJ", none⟩ }

def clock (now : DateTime) : Input := ⟨⟨now, some [fixture]⟩, none⟩

def answer (now : DateTime) (d : Datum) (matchList : Option (List FdMatch)) : Input :=
  ⟨⟨now, none⟩, some (d, matchList)⟩

/-- The fixture is created and rated twice in one process, the second time from what it remembers
and under new weights; a rating in another process gets no answers. -/
def ratings : List (Act Call Input) :=
  [.start (.configure (.create ⟨[("form", 1), ("headToHead", 1)], true⟩)), .resume 0 (clock 1),
    .start (.sync (.syncDate provider))] ++ List.replicate 12 (.resume 0 (clock 2)) ++
  [.start (.computeForFixture 0 0), .resume 0 (clock 10), .resume 0 (clock 11),
    .resume 0 (answer 12 .history (some derbyFeeds.history)),
    .resume 0 (answer 13 .home (some derbyFeeds.home)),
    .start (.configure (.create ⟨[("headToHead", 1)], true⟩)),
    .resume 0 (answer 14 .away (some derbyFeeds.away)), .resume 0 (clock 15), .resume 1 (clock 16),
    .resume 0 (clock 17), .resume 0 (clock 18),
    .start (.computeForFixture 0 0), .resume 0 (clock 20), .resume 0 (clock 21),
    .start (.computeForFixture 1 0), .resume 1 (clock 22), .resume 1 (clock 23),
    .resume 1 (answer 24 .away none), .resume 1 (clock 25), .resume 1 (clock 26),
    .resume 0 (clock 27), .resume 0 (clock 28)]

instance : ∀ stage : Stage, Decidable stage.writes
  | .write _ _ => .isTrue trivial
  | .gather | .weigh _ | .done => .isFalse id

instance (directory : FixtureSync.Directory) (span : ℕ) (input : Input) (w : World) :
    ∀ t, Decidable (Timely directory span input t w)
  | .sync task =>
    inferInstanceAs (Decidable (FixtureSync.AnswersAgree directory input.tick task w.catalog))
  | .rating j => inferInstanceAs (Decidable (j.startedAt ≤ input.tick.now ∧
      (j.stage.writes → input.tick.now ≤ j.startedAt + span)))
  | .configure _ | .computeForFixture _ _ | .request _ _ _ | .restart _ => .isTrue trivial

def ratedWorld : World :=
  (protocol.run ⟨begins FixtureSync.emptyWorld Table.empty, []⟩ ratings).shared

theorem explained_of_run_derby :
    ratedWorld.catalog.db.fixtureDifficulties.rows = [⟨0, 4, none⟩] ∧
      (ratedWorld.breakdowns 0).map (·.weightSetId) = some 1 ∧
      ∀ d ∈ ratedWorld.catalog.db.fixtureDifficulties.rows, ∀ b,
        ratedWorld.breakdowns d.fixtureId = some b →
          Explained ⟨fun _ => "npl", fun _ => "57", fun _ => "61"⟩ 10 ratedWorld d b := by
  have hfaithful : FixtureSync.Faithful ⟨fun _ => "npl", fun _ => "57", fun _ => "61"⟩
      FixtureSync.emptyWorld :=
    ⟨FixtureSync.emptyWorld_keyed, by simp [FixtureSync.emptyWorld, Db.empty]⟩
  exact ⟨by decide +kernel, by decide +kernel,
    (explained_of_run hfaithful List.nodup_nil (by decide +kernel)).1⟩

end Sample

end RatingRuns
end FootballIQ
