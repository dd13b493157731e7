import FootballIQ.ScoringRuns

/-!
# The contest is announced as scored once

Two counts outside any transaction decide whether a contest is complete. What
they count only goes down, so a job that has seen both at zero is right about it;
and the job that commits last, or a later one, is still to count when the last
prediction is scored.
-/

namespace FootballIQ
namespace Completion

open Transaction Relational Interleaving Contests Scoring Platform ScoringRuns

/-- The state before the first result event: the contest is locked and not announced. -/
structure Locked (contestId : ℕ) (db : Db) : Prop where
  status : statusOf db contestId = some .locked
  unannounced : announced db contestId = 0
  nonempty : ∃ m ∈ db.contestMatches.rows, m.contestId = contestId
  pinned : Pinned db contestId

section Invariant
variable (contestId : ℕ)

/-- A scored contest is complete and announced once, any other is not announced. -/
structure Sane (db : Db) : Prop where
  live : statusOf db contestId ∈ [some .locked, some .scoring, some .scored]
  once : announced db contestId = if statusOf db contestId = some .scored then 1 else 0
  complete : statusOf db contestId = some .scored → AllFinal db contestId ∧ AllScored db contestId
  pinned : Pinned db contestId

/-- What a job that works on the contest has seen. -/
def Counted (db : Db) (t : Task) : Prop :=
  match t with
  | .scoring job =>
    match job.stage with
    | .readMatches | .scoreMatch _ _ => True
    | .count cm _ => cm.contestId = contestId → statusOf db contestId ≠ some .locked
    | .countOther cm _ predictionsFirst first => cm.contestId = contestId →
        statusOf db contestId ≠ some .locked ∧
          (first = 0 → countPending predictionsFirst db contestId = 0)
    | .complete cm _ => cm.contestId = contestId →
        statusOf db contestId ≠ some .locked ∧ AllFinal db contestId ∧ AllScored db contestId
  | _ => True

variable {contestId} {tick : Tick} {db db' : Db} {t t' u : Task} {next : Option Task}

theorem Locked.sane (h : Locked contestId db) : Sane contestId db where
  live := by simp [h.status]
  once := by simp [h.status, h.unannounced]
  complete hs := by simp [h.status] at hs
  pinned := h.pinned

theorem not_locked_of_outcome (h : Outcome tick db t db' next)
    (hs : statusOf db contestId ≠ some .locked) : statusOf db' contestId ≠ some .locked := by
  rcases h.status contestId with ⟨heq, _⟩ | ⟨_, heq, _⟩ | ⟨_, heq, _⟩
  · rwa [heq]
  · simp [heq]
  · simp [heq]

theorem scored_of_outcome (h : Outcome tick db t db' next)
    (hs : statusOf db contestId = some .scored) : statusOf db' contestId = some .scored := by
  rcases h.status contestId with ⟨heq, _⟩ | ⟨hlocked, _⟩ | ⟨_, heq, _⟩
  · rw [heq, hs]
  · simp [hs] at hlocked
  · exact heq

/-- Only the job that has seen the contest complete moves it to SCORED. -/
theorem Sane.after (hI : Sane contestId db) (hc : Counted contestId db t)
    (h : Outcome tick db t db' next) : Sane contestId db' := by
  have hprogress := h.progress
  have hlive := hI.live
  have honce := hI.once
  refine ⟨?_, ?_, ?_, hprogress.pinned hI.pinned⟩
  · rcases h.status contestId with ⟨heq, _⟩ | ⟨_, heq, _⟩ | ⟨_, heq, _⟩
    · rwa [heq]
    · simp [heq]
    · simp [heq]
  · rcases h.status contestId with ⟨heq, hann⟩ | ⟨hs, heq, hann⟩ | ⟨hs, heq, hann, _⟩
    · rw [hann, heq, honce]
    · simp [hann, heq, honce, hs]
    · simp [hann, heq, honce, hs]
  · intro hscored
    rcases h.status contestId with ⟨heq, _⟩ | ⟨_, heq, _⟩ | ⟨_, _, _, f, result, cm, rest, rfl, hcm⟩
    · obtain ⟨hfinal, hall⟩ := hI.complete (heq.symm.trans hscored)
      exact ⟨hprogress.allFinal hfinal, hprogress.allScored hall⟩
    · simp [heq] at hscored
    · obtain ⟨_, hfinal, hall⟩ := hc hcm
      exact ⟨hprogress.allFinal hfinal, hprogress.allScored hall⟩

theorem Counted.stable (hI : Sane contestId db) (h : Outcome tick db t db' next)
    (hu : Counted contestId db u) : Counted contestId db' u := by
  have hprogress := h.progress
  have hlocked : statusOf db contestId ≠ some .locked → statusOf db' contestId ≠ some .locked :=
    not_locked_of_outcome h
  cases u with
  | scoring job =>
    obtain ⟨f, result, stage⟩ := job
    cases stage with
    | readMatches | scoreMatch cm rest => trivial
    | count cm rest => exact fun hcm => hlocked (hu hcm)
    | countOther cm rest predictionsFirst first =>
      intro hcm
      obtain ⟨hs, hzero⟩ := hu hcm
      exact ⟨hlocked hs, fun h0 => hprogress.countPending hI.pinned (hzero h0)⟩
    | complete cm rest =>
      intro hcm
      obtain ⟨hs, hfinal, hall⟩ := hu hcm
      exact ⟨hlocked hs, hprogress.allFinal hfinal, hprogress.allScored hall⟩
  | _ => trivial

theorem counted_next {f : ℕ} {result : FinalResult} {stage : Stage} {cms : List ContestMatch}
    (h : ScoringJob.next ⟨f, result, stage⟩ cms = some t') : Counted contestId db t' := by
  obtain ⟨cm, rest, _, rfl⟩ := ScoringJob.next_some h
  trivial

/-- Both counts at zero mean that the contest is complete. -/
theorem complete_of_counts (hp : Pinned db contestId) {predictionsFirst : Bool}
    (h : countPending predictionsFirst db contestId = 0)
    (h' : countPending (!predictionsFirst) db contestId = 0) :
    AllFinal db contestId ∧ AllScored db contestId := by
  cases predictionsFirst with
  | true => exact ⟨allFinal_of_pendingFixtures hp h', pendingPredictions_eq_zero_iff.1 h⟩
  | false => exact ⟨allFinal_of_pendingFixtures hp h, pendingPredictions_eq_zero_iff.1 h'⟩

theorem counted_cont (hI : Sane contestId db) (hc : Counted contestId db t)
    (h : Outcome tick db t db' next) (hn : next = some t') : Counted contestId db' t' := by
  cases h with
  | ignored | finalized => cases hn
  | begun | redelivered =>
    cases hn
    trivial
  | checked hall =>
    rw [hall t' hn]
    trivial
  | matchesRead | incomplete | marked => exact counted_next hn
  | @scored f result cm rest db' hscore =>
    cases hn
    intro hcm
    rw [(status_scored contestId hscore).1, hcm]
    split_ifs with hcond
    · simp
    · exact fun hs => hcond ⟨rfl, hs⟩
  | counted =>
    cases hn
    intro hcm
    refine ⟨hc hcm, fun hzero => ?_⟩
    rwa [hcm] at hzero
  | complete hzero =>
    cases hn
    intro hcm
    obtain ⟨hs, hfirst⟩ := hc hcm
    have hother := hzero.2
    rw [hcm] at hother
    exact ⟨hs, complete_of_counts hI.pinned (hfirst hzero.1) hother⟩

/-- The facts of a pending call: it holds matches of its fixture, and what it counted. -/
def Informed (contestId : ℕ) (db : Db) (t : Task) : Prop :=
  FromTable db t ∧ Counted contestId db t

theorem inductive_sane (drawHash : ℕ → ℕ → String) (contestId : ℕ) :
    (protocol drawHash).Inductive ResultStep (Sane contestId) (Informed contestId) where
  init _ _ _ := ⟨trivial, trivial⟩
  shared _ _ _ hI hL hG := hI.after hL.2 (outcome_step drawHash hG)
  cont _ _ _ _ hI hL hG hn :=
    have h := outcome_step drawHash hG
    ⟨h.fromTable hL.1 hn, counted_cont hI hL.2 h hn⟩
  stable _ _ _ _ hI _ hG hu :=
    have h := outcome_step drawHash hG
    ⟨hu.1.of_progress h.progress, hu.2.stable hI h⟩

theorem inductive_sane_allFinal (drawHash : ℕ → ℕ → String) (contestId : ℕ) :
    (protocol drawHash).Inductive ResultStep
      (fun db => Sane contestId db ∧ AllFinal db contestId) (Informed contestId) :=
  (inductive_sane drawHash contestId).and_kept
    (fun _ _ _ _ _ hG hf => (outcome_step drawHash hG).progress.allFinal hf)

end Invariant

section Promises
variable {contestId : ℕ} {m : ContestMatch} {f : ℕ} {tick : Tick} {db db' : Db} {t u : Task}
  {next : Option Task}

/-- A job of the final fixture `f` works on the match, which is of the contest. -/
structure OnJob (contestId : ℕ) (m : ContestMatch) (f : ℕ) (db : Db) : Prop where
  final : Final db f
  mem : m ∈ db.contestMatches.rows
  contest : m.contestId = contestId
  fixture : m.fixtureId = f

theorem OnJob.of_progress (h : Progress db db') (hj : OnJob contestId m f db) :
    OnJob contestId m f db' :=
  ⟨h.final hj.final, h.matches_ ▸ hj.mem, hj.contest, hj.fixture⟩

/-- The call has still to score the match. -/
def WillScore (contestId : ℕ) (m : ContestMatch) (db : Db) (t : Task) : Prop :=
  match t with
  | .ready (.resultFinalized f) => OnJob contestId m f db
  | .scoring job => OnJob contestId m job.fixtureId db ∧
    match job.stage with
    | .readMatches => True
    | .scoreMatch cm rest => m ∈ cm :: rest
    | .count _ rest | .countOther _ rest _ _ | .complete _ rest => m ∈ rest
  | _ => False

/-- The call has still to count the contest, at its turn for the match, or has counted
zero so far. -/
def WillCheck (contestId : ℕ) (m : ContestMatch) (db : Db) (t : Task) : Prop :=
  match t with
  | .ready (.resultFinalized f) => OnJob contestId m f db
  | .scoring job => OnJob contestId m job.fixtureId db ∧
    match job.stage with
    | .readMatches => True
    | .scoreMatch cm rest | .count cm rest | .complete cm rest => m ∈ cm :: rest
    | .countOther cm rest _ first => (m = cm ∧ first = 0) ∨ m ∈ rest
  | _ => False

theorem WillScore.of_progress (h : Progress db db') (hu : WillScore contestId m db u) :
    WillScore contestId m db' u := by
  cases u with
  | ready call =>
    cases call with
    | resultFinalized f => exact OnJob.of_progress h hu
    | _ => exact hu
  | scoring job => exact ⟨hu.1.of_progress h, hu.2⟩
  | _ => exact hu

theorem WillCheck.of_progress (h : Progress db db') (hu : WillCheck contestId m db u) :
    WillCheck contestId m db' u := by
  cases u with
  | ready call =>
    cases call with
    | resultFinalized f => exact OnJob.of_progress h hu
    | _ => exact hu
  | scoring job => exact ⟨hu.1.of_progress h, hu.2⟩
  | _ => exact hu

/-- A job goes on to the matches that it still holds. -/
theorem will_next {result : FinalResult} {stage : Stage} {cms : List ContestMatch}
    (hj : OnJob contestId m f db) (hm : m ∈ cms) :
    ∃ t', ScoringJob.next ⟨f, result, stage⟩ cms = some t' ∧ WillScore contestId m db t' ∧
      WillCheck contestId m db t' := by
  cases cms with
  | nil => cases hm
  | cons cm rest => exact ⟨_, rfl, ⟨hj, hm⟩, ⟨hj, hm⟩⟩

/-- A live contest that is not yet scored is read by the jobs of its fixtures. -/
theorem OnJob.mem_readMatches (hj : OnJob contestId m f db) (hI : Sane contestId db)
    (hs : statusOf db contestId ≠ some .scored) : m ∈ readMatches f db := by
  refine ScoringRuns.mem_readMatches.2 ⟨hj.mem, hj.fixture, ?_⟩
  rw [hj.contest]
  have hlive := hI.live
  simp only [List.mem_cons, List.not_mem_nil, or_false] at hlive
  rcases hlive with h | h | h
  · obtain ⟨c, hc, hstatus⟩ := Option.map_eq_some_iff.1 h
    exact ⟨c, hc, Or.inl hstatus⟩
  · obtain ⟨c, hc, hstatus⟩ := Option.map_eq_some_iff.1 h
    exact ⟨c, hc, Or.inr hstatus⟩
  · exact absurd h hs

/-- A call that has still to score the match does so or still has to. -/
theorem WillScore.after (hI : Sane contestId db) (hw : WillScore contestId m db t)
    (h : Outcome tick db t db' next) :
    (statusOf db' contestId = some .scored ∨ MatchScored db' m) ∨
      ∃ t', next = some t' ∧ WillScore contestId m db' t' := by
  cases h with
  | ignored hread => exact absurd hread (readResult_ne_none hw.final)
  | checked | finalized => exact hw.elim
  | begun => exact Or.inr ⟨_, rfl, hw, trivial⟩
  | redelivered => exact Or.inr ⟨_, rfl, hw.1⟩
  | matchesRead =>
    by_cases hs : statusOf db contestId = some .scored
    · exact Or.inl (Or.inl hs)
    · obtain ⟨t', ht', hscore, _⟩ := will_next hw.1 (hw.1.mem_readMatches hI hs)
      exact Or.inr ⟨t', ht', hscore⟩
  | scored hscore =>
    obtain ⟨hprogress, hall⟩ := progress_scored hscore
    rcases List.mem_cons.1 hw.2 with rfl | hm
    · exact Or.inl (Or.inr hall)
    · exact Or.inr ⟨_, rfl, hw.1.of_progress hprogress, hm⟩
  | counted | complete => exact Or.inr ⟨_, rfl, hw⟩
  | incomplete =>
    obtain ⟨t', ht', hscore, _⟩ := will_next hw.1 hw.2
    exact Or.inr ⟨t', ht', hscore⟩
  | marked =>
    obtain ⟨t', ht', hscore, _⟩ := will_next hw.1 hw.2
    exact Or.inr ⟨t', ht', hscore.of_progress (progress_markScored _ _ db)⟩

/-- Over a complete contest a call that has still to count it moves it to SCORED or
still has to. -/
theorem WillCheck.after (hI : Sane contestId db) (hf : AllFinal db contestId)
    (hs : AllScored db contestId) (hc : Counted contestId db t) (hw : WillCheck contestId m db t)
    (h : Outcome tick db t db' next) :
    statusOf db' contestId = some .scored ∨ ∃ t', next = some t' ∧ WillCheck contestId m db' t' := by
  have hzero : ∀ predictions, countPending predictions db contestId = 0 := by
    intro predictions
    cases predictions with
    | true => exact pendingPredictions_eq_zero_iff.2 hs
    | false => exact pendingFixtures_eq_zero hf
  cases h with
  | ignored hread => exact absurd hread (readResult_ne_none hw.final)
  | checked | finalized => exact hw.elim
  | begun => exact Or.inr ⟨_, rfl, hw, trivial⟩
  | redelivered => exact Or.inr ⟨_, rfl, hw.1⟩
  | matchesRead =>
    by_cases hscored : statusOf db contestId = some .scored
    · exact Or.inl hscored
    · obtain ⟨t', ht', _, hcheck⟩ := will_next hw.1 (hw.1.mem_readMatches hI hscored)
      exact Or.inr ⟨t', ht', hcheck⟩
  | scored hscore => exact Or.inr ⟨_, rfl, hw.1.of_progress (progress_scored hscore).1, hw.2⟩
  | counted =>
    refine Or.inr ⟨_, rfl, hw.1, ?_⟩
    rcases List.mem_cons.1 hw.2 with rfl | hm
    · exact Or.inl ⟨rfl, hw.1.contest ▸ hzero _⟩
    · exact Or.inr hm
  | incomplete hpos =>
    rcases hw.2 with ⟨rfl, rfl⟩ | hm
    · rw [hw.1.contest, hzero] at hpos
      exact absurd hpos (by simp)
    · obtain ⟨t', ht', _, hcheck⟩ := will_next hw.1 hm
      exact Or.inr ⟨t', ht', hcheck⟩
  | complete =>
    refine Or.inr ⟨_, rfl, hw.1, ?_⟩
    rcases hw.2 with ⟨rfl, _⟩ | hm
    · exact List.mem_cons_self
    · exact List.mem_cons_of_mem _ hm
  | @marked f result cm rest =>
    rcases List.mem_cons.1 hw.2 with rfl | hm
    · refine Or.inl ?_
      obtain ⟨hlocked, _⟩ := hc hw.1.contest
      rw [(status_marked db contestId tick.now m.contestId).1, hw.1.contest]
      have hlive := hI.live
      simp only [List.mem_cons, List.not_mem_nil, or_false] at hlive
      rcases hlive with h | h | h
      · exact absurd h hlocked
      · rw [if_pos ⟨rfl, h⟩]
      · simp [h]
    · obtain ⟨t', ht', _, hcheck⟩ := will_next hw.1 hm
      exact Or.inr ⟨t', ht', hcheck.of_progress (progress_markScored _ _ db)⟩

/-- The step that scores the last prediction of a contest leaves a job that will count. -/
theorem check_of_last (hp : Pinned db contestId) (ht : FromTable db t)
    (h : Outcome tick db t db' next) (hbefore : ¬ AllScored db contestId)
    (hafter : AllScored db' contestId) :
    ∃ m t', next = some t' ∧ WillCheck contestId m db' t' := by
  cases h with
  | @scored f result cm rest db' hscore =>
    obtain ⟨hmem, hfix⟩ := ht.2 cm List.mem_cons_self
    have hcm : cm.contestId = contestId := by
      by_contra hne
      exact hbefore (allScored_of_scored hscore hp hmem hne hafter)
    have hj : OnJob contestId cm f db := ⟨ht.1, hmem, hcm, hfix⟩
    exact ⟨cm, _, rfl, hj.of_progress (progress_scored hscore).1, List.mem_cons_self⟩
  | @finalized f result =>
    refine absurd ?_ hbefore
    rcases commit_cases (Results.finalizeTx tick.now f result) db with ⟨u, db', hok, hc⟩ | ⟨_, _, hc⟩
    · obtain ⟨_, hdb⟩ := (Results.finalizeTx_ok_iff tick.now f result db (u, db')).1 hok
      rw [hc, show db' = _ from hdb] at hafter
      exact hafter
    · rwa [hc] at hafter
  | @marked f result cm rest =>
    refine absurd ?_ hbefore
    rcases markScored_cases tick.now cm.contestId db with ⟨_, _, _, hc⟩ | ⟨_, hc⟩
    · rw [hc] at hafter
      exact hafter
    · rwa [hc] at hafter
  | _ => exact absurd hafter hbefore

end Promises

section Runs
variable (drawHash : ℕ → ℕ → String) (contestId : ℕ)

theorem keeping_score (m : ContestMatch) :
    (protocol drawHash).Keeping ResultStep (Sane contestId) (Informed contestId)
      (fun db => statusOf db contestId = some .scored ∨ MatchScored db m)
      (WillScore contestId m) where
  lost _ _ _ _ _ hG hgoal := by
    have h := outcome_step drawHash hG
    rcases hgoal with hs | hs
    · exact Or.inl (Or.inl (scored_of_outcome h hs))
    · exact Or.inl (Or.inr (h.progress.matchScored hs))
  own _ _ _ hI _ hG hw := hw.after hI (outcome_step drawHash hG)
  other _ _ _ _ _ _ hG hw := hw.of_progress (outcome_step drawHash hG).progress

theorem keeping_check :
    (protocol drawHash).Keeping ResultStep (fun db => Sane contestId db ∧ AllFinal db contestId)
      (Informed contestId) (fun db => statusOf db contestId = some .scored ∨ ¬ AllScored db contestId)
      (fun db t => ∃ m, WillCheck contestId m db t) where
  lost tick t db hI hL hG hgoal := by
    have h := outcome_step drawHash hG
    rcases hgoal with hs | hs
    · exact Or.inl (Or.inl (scored_of_outcome h hs))
    · by_cases hafter : AllScored (step drawHash tick t db).1 contestId
      · obtain ⟨m, t', hn, hw⟩ := check_of_last hI.1.pinned hL.1 h hs hafter
        exact Or.inr ⟨t', hn, m, hw⟩
      · exact Or.inl (Or.inr hafter)
  own tick t db hI hL hG hw := by
    obtain ⟨m, hw⟩ := hw
    have h := outcome_step drawHash hG
    by_cases hs : AllScored db contestId
    · rcases hw.after hI.1 hI.2 hs hL.2 h with hdone | ⟨t', hn, hw'⟩
      · exact Or.inl (Or.inl hdone)
      · exact Or.inr ⟨t', hn, m, hw'⟩
    · by_cases hafter : AllScored (step drawHash tick t db).1 contestId
      · obtain ⟨m', t', hn, hw'⟩ := check_of_last hI.1.pinned hL.1 h hs hafter
        exact Or.inr ⟨t', hn, m', hw'⟩
      · exact Or.inl (Or.inr hafter)
  other _ _ _ _ _ _ hG hw := by
    obtain ⟨m, hw⟩ := hw
    exact ⟨m, hw.of_progress (outcome_step drawHash hG).progress⟩

variable {drawHash} {contestId} {c : Config Db Task} {as : List (Act Call Tick)}

theorem progress_run (hA : (protocol drawHash).Along ResultStep c as) :
    Progress c.shared ((protocol drawHash).run c as).shared :=
  Protocol.Along.run_rel _ Progress.refl (fun _ _ _ h h' => h.trans h')
    (hA.mono _ (fun _ _ _ hG => (outcome_step drawHash hG).progress))

/-- A job for the fixture is started in the run, at a moment when its result is final. -/
def Heard (drawHash : ℕ → ℕ → String) (c : Config Db Task) (as : List (Act Call Tick)) (f : ℕ) :
    Prop :=
  ∃ bs cs, as = bs ++ .start (.resultFinalized f) :: cs ∧
    Final ((protocol drawHash).run c bs).shared f

theorem final_of_earlier (hA : (protocol drawHash).Along ResultStep c as)
    {bs bs' : List (Act Call Tick)} (h : bs <+: bs') (h' : bs' <+: as) {f : ℕ}
    (hf : Final ((protocol drawHash).run c bs).shared f) :
    Final ((protocol drawHash).run c bs').shared f := by
  obtain ⟨ds, rfl⟩ := h
  obtain ⟨es, rfl⟩ := h'
  rw [Protocol.along_append, Protocol.along_append] at hA
  rw [Protocol.run_append]
  exact (progress_run hA.1.2).final hf

theorem heard_of_mem (bs : List (Act Call Tick)) {cs : List (Act Call Tick)}
    (hA : (protocol drawHash).Along ResultStep c (bs ++ cs)) {f : ℕ}
    (hf : Final ((protocol drawHash).run c bs).shared f)
    (hmem : .start (.resultFinalized f) ∈ cs) : Heard drawHash c (bs ++ cs) f := by
  obtain ⟨cs₁, cs₂, rfl⟩ := List.append_of_mem hmem
  refine ⟨bs ++ cs₁, cs₂, by simp, ?_⟩
  exact final_of_earlier hA (List.prefix_append bs cs₁) (by simp) hf

/-- When every match of a list has been heard, one was the last, and by then all
fixtures of the list were final. -/
theorem last_heard (hA : (protocol drawHash).Along ResultStep c as) (ms : List ContestMatch)
    (hne : ms ≠ []) (h : ∀ m ∈ ms, Heard drawHash c as m.fixtureId) :
    ∃ m ∈ ms, ∃ bs cs, as = bs ++ .start (.resultFinalized m.fixtureId) :: cs ∧
      ∀ m' ∈ ms, Final ((protocol drawHash).run c bs).shared m'.fixtureId := by
  induction ms with
  | nil => exact absurd rfl hne
  | cons m ms ih =>
    obtain ⟨bs, cs, has, hf⟩ := h m List.mem_cons_self
    by_cases hms : ms = []
    · subst hms
      exact ⟨m, List.mem_cons_self, bs, cs, has, by simpa using hf⟩
    · obtain ⟨m₁, hm₁, bs₁, cs₁, has₁, hf₁⟩ := ih hms (fun m' hm' => h m' (List.mem_cons_of_mem _ hm'))
      have hbs : bs <+: as := ⟨_, has.symm⟩
      have hbs₁ : bs₁ <+: as := ⟨_, has₁.symm⟩
      rcases List.prefix_or_prefix_of_prefix hbs hbs₁ with hle | hle
      · refine ⟨m₁, List.mem_cons_of_mem _ hm₁, bs₁, cs₁, has₁, ?_⟩
        intro m' hm'
        rcases List.mem_cons.1 hm' with rfl | hm'
        · exact final_of_earlier hA hle hbs₁ hf
        · exact hf₁ m' hm'
      · refine ⟨m, List.mem_cons_self, bs, cs, has, ?_⟩
        intro m' hm'
        rcases List.mem_cons.1 hm' with rfl | hm'
        · exact hf
        · exact final_of_earlier hA hle hbs (hf₁ m' hm')

section Quiet
variable {db : Db}

theorem holds_start (hstart : Locked contestId db) :
    Protocol.Holds (Sane contestId) (Informed contestId) (⟨db, []⟩ : Config Db Task) :=
  ⟨hstart.sane, by simp⟩

/-- A match that was heard is scored when nothing is pending any more. -/
theorem scored_of_heard (hstart : Locked contestId db)
    (hA : (protocol drawHash).Along ResultStep ⟨db, []⟩ as) {m : ContestMatch}
    (hm : m ∈ db.contestMatches.rows) (hid : m.contestId = contestId)
    (hheard : Heard drawHash ⟨db, []⟩ as m.fixtureId)
    (hquiet : ((protocol drawHash).run ⟨db, []⟩ as).pending = []) :
    statusOf ((protocol drawHash).run ⟨db, []⟩ as).shared contestId = some .scored ∨
      MatchScored ((protocol drawHash).run ⟨db, []⟩ as).shared m := by
  obtain ⟨bs, cs, rfl, hf⟩ := hheard
  rw [Protocol.along_append] at hA
  rw [Protocol.run_append] at hquiet ⊢
  have hI := inductive_sane drawHash contestId
  have hmem : m ∈ ((protocol drawHash).run ⟨db, []⟩ bs).shared.contestMatches.rows :=
    (progress_run hA.1).matches_ ▸ hm
  exact ((keeping_score drawHash contestId m).run_start hI (hI.run (holds_start hstart) hA.1) hA.2
    ⟨hf, hmem, hid, rfl⟩).goal_of_pending hquiet

/-- Once every fixture was heard and nothing is pending, everything is scored. -/
theorem allScored_of_heard (hstart : Locked contestId db)
    (hA : (protocol drawHash).Along ResultStep ⟨db, []⟩ as)
    (hheard : ∀ m ∈ db.contestMatches.rows, m.contestId = contestId →
      Heard drawHash ⟨db, []⟩ as m.fixtureId)
    (hquiet : ((protocol drawHash).run ⟨db, []⟩ as).pending = []) :
    AllScored ((protocol drawHash).run ⟨db, []⟩ as).shared contestId := by
  have hI := ((inductive_sane drawHash contestId).run (holds_start hstart) hA).1
  by_cases hs : statusOf ((protocol drawHash).run ⟨db, []⟩ as).shared contestId = some .scored
  · exact (hI.complete hs).2
  · refine allScored_of_matches hI.pinned (fun m hm hid => ?_)
    rw [(progress_run hA).matches_] at hm
    exact (scored_of_heard hstart hA hm hid (hheard m hm hid) hquiet).resolve_left hs

/-- Once every fixture was heard and nothing is pending, the contest is SCORED. -/
theorem status_of_heard (hstart : Locked contestId db)
    (hA : (protocol drawHash).Along ResultStep ⟨db, []⟩ as)
    (hheard : ∀ m ∈ db.contestMatches.rows, m.contestId = contestId →
      Heard drawHash ⟨db, []⟩ as m.fixtureId)
    (hquiet : ((protocol drawHash).run ⟨db, []⟩ as).pending = []) :
    statusOf ((protocol drawHash).run ⟨db, []⟩ as).shared contestId = some .scored := by
  have hall := allScored_of_heard hstart hA hheard hquiet
  obtain ⟨m₀, hm₀, hid₀⟩ := hstart.nonempty
  obtain ⟨m, hm, bs, cs, rfl, hfinal⟩ := last_heard hA
    (db.contestMatches.findMany (fun m => m.contestId = contestId))
    (List.ne_nil_of_mem ((Table.mem_findMany _ _ _).2 ⟨hm₀, hid₀⟩))
    (fun m hm => hheard m ((Table.mem_findMany _ _ _).1 hm).1 ((Table.mem_findMany _ _ _).1 hm).2)
  obtain ⟨hmem, hid⟩ := (Table.mem_findMany _ _ _).1 hm
  rw [Protocol.along_append] at hA
  have hmatches := (progress_run hA.1).matches_
  have hallFinal : AllFinal ((protocol drawHash).run ⟨db, []⟩ bs).shared contestId := by
    intro m' hm' hid'
    rw [hmatches] at hm'
    exact hfinal m' ((Table.mem_findMany _ _ _).2 ⟨hm', hid'⟩)
  -- from the last start on every fixture of the contest is final
  have hI := inductive_sane drawHash contestId
  have hholds := hI.run (holds_start hstart) hA.1
  rw [Protocol.run_append] at hquiet hall ⊢
  have hkept := (keeping_check drawHash contestId).run_start
    (inductive_sane_allFinal drawHash contestId) ⟨⟨hholds.1, hallFinal⟩, hholds.2⟩ hA.2
    ⟨m, hfinal m hm, hmatches ▸ hmem, hid, rfl⟩
  exact (hkept.goal_of_pending hquiet).resolve_right (not_not_intro hall)

end Quiet

/-- In any run of scoring jobs and finalizations over a locked contest, the contest is
announced as scored at most once, and only when it is complete; and once a job of each
of its fixtures was started after the result and no call is pending, exactly once. -/
theorem announced_once {db : Db} (hstart : Locked contestId db)
    (hA : (protocol drawHash).Along ResultStep ⟨db, []⟩ as) :
    announced ((protocol drawHash).run ⟨db, []⟩ as).shared contestId ≤ 1 ∧
      (announced ((protocol drawHash).run ⟨db, []⟩ as).shared contestId ≠ 0 →
        AllFinal ((protocol drawHash).run ⟨db, []⟩ as).shared contestId ∧
        AllScored ((protocol drawHash).run ⟨db, []⟩ as).shared contestId) ∧
      ((∀ m ∈ db.contestMatches.rows, m.contestId = contestId →
          Heard drawHash ⟨db, []⟩ as m.fixtureId) →
        ((protocol drawHash).run ⟨db, []⟩ as).pending = [] →
        statusOf ((protocol drawHash).run ⟨db, []⟩ as).shared contestId = some .scored ∧
          announced ((protocol drawHash).run ⟨db, []⟩ as).shared contestId = 1) := by
  have hI := ((inductive_sane drawHash contestId).run (holds_start hstart) hA).1
  have honce := hI.once
  refine ⟨?_, ?_, ?_⟩
  · rw [honce]
    split_ifs <;> omega
  · intro hann
    refine hI.complete ?_
    by_contra hs
    rw [if_neg hs] at honce
    exact hann honce
  · intro hheard hquiet
    have hs := status_of_heard hstart hA hheard hquiet
    rw [if_pos hs] at honce
    exact ⟨hs, honce⟩

end Runs

section Race

def atNoon : Tick := ⟨200, false, false⟩

def allFinalized : List (Act Call Tick) :=
  (List.range 5).flatMap (fun i =>
    [.start (.finalize (i + 1) ⟨2, 1, 1, 0, .home⟩), .resume 0 atNoon, .resume 0 atNoon])

/-- Five jobs score the five fixtures side by side; each counts after all have scored. -/
def fiveJobs : List (Act Call Tick) :=
  (List.range 5).map (fun i => .start (.resultFinalized (i + 1))) ++
    (List.range 5).flatMap (fun _ => (List.range 5).map (fun i => .resume i atNoon)) ++
    List.replicate 5 (.resume 0 atNoon)

theorem locked_stakedDb : Locked 1 stakedDb where
  status := by decide +kernel
  unannounced := by decide +kernel
  nonempty := by decide +kernel
  pinned := by
    refine ⟨by decide +kernel, ?_⟩
    have h : ∀ p ∈ stakedDb.predictions.rows, ∃ slot ∈ stakedDb.contestSlots.find p.slotId,
        slot.contestId = 1 ∧ ∃ m ∈ stakedDb.contestMatches.rows, m.id = slot.contestMatchId ∧
          m.contestId = 1 := by decide +kernel
    intro p hp _
    obtain ⟨slot, hslot, hcontest, m, hm, hid, hm1⟩ := h p hp
    exact ⟨slot, m, hslot, hcontest, hm, hid, hm1⟩

theorem announced_once_fiveJobs :
    statusOf ((protocol (fun _ _ => "")).run ⟨stakedDb, []⟩ (allFinalized ++ fiveJobs)).shared 1 =
        some .scored ∧
      announced ((protocol (fun _ _ => "")).run ⟨stakedDb, []⟩ (allFinalized ++ fiveJobs)).shared 1 =
        1 := by
  have hA : (protocol (fun _ _ => "")).Along ResultStep ⟨stakedDb, []⟩ (allFinalized ++ fiveJobs) := by
    decide +kernel
  have hfinal : ∀ f ∈ [1, 2, 3, 4, 5], Final
      ((protocol (fun _ _ => "")).run ⟨stakedDb, []⟩ allFinalized).shared f := by
    have h : ∀ f ∈ [1, 2, 3, 4, 5], ∃ x ∈ ((protocol (fun _ _ => "")).run ⟨stakedDb, []⟩
        allFinalized).shared.fixtures.find f, x.resultFinalizedAt ≠ none := by decide +kernel
    exact h
  have hfixtures : ∀ m ∈ stakedDb.contestMatches.rows, m.fixtureId ∈ [1, 2, 3, 4, 5] := by
    decide +kernel
  have hstarted : ∀ f ∈ [1, 2, 3, 4, 5], .start (.resultFinalized f) ∈ fiveJobs := by decide
  refine (announced_once locked_stakedDb hA).2.2 (fun m hm _ => ?_) (by decide +kernel)
  exact heard_of_mem allFinalized hA (hfinal _ (hfixtures m hm)) (hstarted _ (hfixtures m hm))

end Race

end Completion
end FootballIQ
