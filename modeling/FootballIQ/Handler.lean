import FootballIQ.ScoringOutcome

/-!
# The result handler without interleaving

One delivery runs its loop to the end: every match of the fixture whose contest
is LOCKED or SCORING is scored, and a contest that is complete by then is moved to
SCORED. Matches that are not read are not touched.
-/

namespace FootballIQ
namespace Handler

open Transaction Relational Interleaving Contests Scoring Platform ScoringRuns ScoringOutcome

/-- Every match belongs to a contest that exists with its rule set. -/
def Referenced (db : Db) : Prop := ∀ m ∈ db.contestMatches.rows, rulesOf db m.contestId ≠ none

/-- No prediction of the contest on the match is scored. -/
def Untouched (db : Db) (contestId : ℕ) (m : ContestMatch) : Prop :=
  ∀ p ∈ db.predictions.rows, BelongsTo db contestId p → onMatch db m.id p → p.scoredAt = none

/-- The statuses of a contest from its lock to its last score. -/
def afterLock : List (Option ContestStatus) := [some .locked, some .scoring, some .scored]

section Turns
variable {now contestId : ℕ} {result : FinalResult} {cm : ContestMatch} {db db₁ db' : Db}

theorem scoreContestMatch_commits (now : DateTime) (result : FinalResult)
    (hr : rulesOf db cm.contestId ≠ none) :
    ∃ db', scoreContestMatch now cm.contestId cm.id result db = .ok (⟨⟩, db') := by
  obtain ⟨rules, hrules⟩ := Option.ne_none_iff_exists'.1 hr
  have hopen : rulesOf { db with contests := openScoring db cm.contestId } cm.contestId =
      rulesOf db cm.contestId := rulesOf_updateWhere (by intro c; rfl) (by intro c; rfl) rfl rfl
  rw [hrules] at hopen
  unfold rulesOf at hopen
  simp only [Option.bind_eq_bind, Option.bind_eq_some_iff] at hopen
  obtain ⟨c, hc, ruleSet, hset, _⟩ := hopen
  exact ⟨_, (scoreContestMatch_ok_iff now cm.contestId cm.id result db ⟨⟨⟩, _⟩).2
    ⟨c, ruleSet, hc, hset, rfl⟩⟩

theorem rulesOf_scored (h : scoreContestMatch now cm.contestId cm.id result db = .ok (⟨⟩, db₁))
    (k : ℕ) : rulesOf db₁ k = rulesOf db k := by
  obtain ⟨_, _, _, _, hr⟩ := (scoreContestMatch_ok_iff _ _ _ _ _ _).1 h
  have hsets : db₁.ruleSets = db.ruleSets := by rw [show db₁ = _ from hr]; rfl
  exact rulesOf_updateWhere (by intro c; rfl) (by intro c; rfl) (congrArg Db.contests hr) hsets

theorem fixtures_scored (h : scoreContestMatch now cm.contestId cm.id result db = .ok (⟨⟩, db₁)) :
    db₁.fixtures = db.fixtures := by
  obtain ⟨_, _, _, _, hr⟩ := (scoreContestMatch_ok_iff _ _ _ _ _ _).1 h
  rw [show db₁ = _ from hr]
  rfl

/-- Scoring one match touches no other. -/
theorem untouched_scored (h : scoreContestMatch now cm.contestId cm.id result db = .ok (⟨⟩, db₁))
    {m : ContestMatch} (hne : m.id ≠ cm.id) (hm : Untouched db contestId m) :
    Untouched db₁ contestId m := by
  have hprogress := (progress_scored h).1
  obtain ⟨_, ruleSet, _, _, hr⟩ := (scoreContestMatch_ok_iff _ _ _ _ _ _).1 h
  intro p' hp' hbelongs hon
  have hpreds : db₁.predictions = scoredPredictions db now ruleSet.marketRules cm.id result :=
    congrArg Db.predictions hr
  rw [hpreds] at hp'
  obtain ⟨p, hp, rfl⟩ := mem_scoredPredictions.1 hp'
  by_cases hcm : onMatch db cm.id p
  · rw [if_pos hcm] at hon
    obtain ⟨slot, hslot, hid⟩ := onMatch_iff.1 hcm
    obtain ⟨slot', hslot', hid'⟩ := onMatch_iff.1 ((hprogress.onMatch_iff rfl m.id).2 hon)
    rw [Option.some.inj (hslot.symm.trans hslot')] at hid
    exact absurd (hid'.symm.trans hid) hne
  · rw [if_neg hcm] at hbelongs hon ⊢
    exact hm p hp ((hprogress.belongsTo_iff rfl).2 hbelongs) ((hprogress.onMatch_iff rfl m.id).2 hon)

/-- What `finalizeContestIfComplete` leaves: it writes at most the status and the event. -/
theorem finalize_cases (now k : ℕ) (db : Db) :
    (finalizeContestIfComplete now k db = db ∧
        (0 < pendingFixtures db k ∨ 0 < pendingPredictions db k)) ∨
      (finalizeContestIfComplete now k db = commit (markScored now k) db ∧ AllScored db k) := by
  unfold finalizeContestIfComplete
  split_ifs with h
  · exact Or.inl ⟨rfl, h⟩
  · exact Or.inr ⟨rfl, pendingPredictions_eq_zero_iff.1 (by omega)⟩

theorem markScored_keeps (now k : ℕ) (db : Db) :
    (commit (markScored now k) db).predictions = db.predictions ∧
      (commit (markScored now k) db).fixtures = db.fixtures ∧
      ∀ j, rulesOf (commit (markScored now k) db) j = rulesOf db j := by
  rcases markScored_cases now k db with ⟨_, _, _, hc⟩ | ⟨_, hc⟩
  · rw [hc]
    exact ⟨rfl, rfl, fun j => rulesOf_updateWhere (by intro c; rfl) (by intro c; rfl) rfl rfl⟩
  · rw [hc]
    exact ⟨rfl, rfl, fun _ => rfl⟩

/-- One turn of the loop: the score of the match, and the completion check of its contest. -/
structure Turn (cm : ContestMatch) (db db' : Db) : Prop where
  progress : Progress db db'
  fixtures : db'.fixtures = db.fixtures
  rules : ∀ k, rulesOf db' k = rulesOf db k
  scored : MatchScored db' cm
  untouched : ∀ k m, m.id ≠ cm.id → Untouched db k m → Untouched db' k m
  others : ∀ k, cm.contestId ≠ k → statusOf db' k = statusOf db k
  own : statusOf db cm.contestId ∈ afterLock → Pinned db cm.contestId →
    statusOf db' cm.contestId ∈ [some .scoring, some .scored] ∧
      (AllFinal db' cm.contestId → AllScored db' cm.contestId →
        statusOf db' cm.contestId = some .scored)
  sound : ∀ k, statusOf db' k = some .scored → statusOf db k = some .scored ∨ AllScored db' k
  unscored : ∀ k, Pinned db k → cm ∈ db.contestMatches.rows → cm.contestId ≠ k →
    AllScored db' k → AllScored db k

theorem turn_scored (h : scoreContestMatch now cm.contestId cm.id result db = .ok (⟨⟩, db₁)) :
    Turn cm db (finalizeContestIfComplete now cm.contestId db₁) := by
  obtain ⟨hprogress, hscored⟩ := progress_scored h
  have hstatus := fun k => (status_scored k h).1
  have hopen : statusOf db cm.contestId ∈ afterLock →
      statusOf db₁ cm.contestId ∈ [some .scoring, some .scored] := by
    intro hlive
    rw [hstatus]
    simp only [afterLock, List.mem_cons, List.not_mem_nil, or_false] at hlive
    rcases hlive with hs | hs | hs <;> simp [hs]
  rcases finalize_cases now cm.contestId db₁ with ⟨heq, hpending⟩ | ⟨heq, hall⟩
  · rw [heq]
    refine ⟨hprogress, fixtures_scored h, rulesOf_scored h, hscored,
      fun k m hne hm => untouched_scored h hne hm, ?_, ?_, ?_, ?_⟩
    · intro k hne
      rw [hstatus, if_neg (fun hc => hne hc.1.symm)]
    · refine fun hlive hp => ⟨hopen hlive, fun hf hs => ?_⟩
      rw [pendingFixtures_eq_zero hf, pendingPredictions_eq_zero_iff.2 hs] at hpending
      exact absurd hpending (by simp)
    · intro k hs
      rw [hstatus] at hs
      split_ifs at hs
      · cases hs
      · exact Or.inl hs
    · exact fun k hp hcm hne hs => allScored_of_scored h hp hcm hne hs
  · rw [heq]
    have hmark := progress_markScored now cm.contestId db₁
    obtain ⟨hpreds, hfixtures, hrules⟩ := markScored_keeps now cm.contestId db₁
    have hmarked := fun k => (status_marked db₁ k now cm.contestId).1
    refine ⟨hprogress.trans hmark, hfixtures.trans (fixtures_scored h),
      fun k => (hrules k).trans (rulesOf_scored h k), hmark.matchScored hscored, ?_, ?_, ?_, ?_, ?_⟩
    · intro k m hne hm p hp hbelongs hon
      rw [hpreds] at hp
      exact untouched_scored h hne hm p hp ((hmark.belongsTo_iff rfl).2 hbelongs)
        ((hmark.onMatch_iff rfl m.id).2 hon)
    · intro k hne
      rw [hmarked, if_neg (fun hc => hne hc.1.symm), hstatus, if_neg (fun hc => hne hc.1.symm)]
    · intro hlive hp
      have hafter := hopen hlive
      simp only [List.mem_cons, List.not_mem_nil, or_false] at hafter
      have hdone : statusOf (commit (markScored now cm.contestId) db₁) cm.contestId =
          some .scored := by
        rw [hmarked]
        rcases hafter with hs | hs <;> simp [hs]
      exact ⟨by simp [hdone], fun _ _ => hdone⟩
    · intro k hs
      by_cases hk : k = cm.contestId
      · subst hk
        exact Or.inr (hmark.allScored hall)
      · rw [hmarked, if_neg (fun hc => hk hc.1), hstatus, if_neg (fun hc => hk hc.1)] at hs
        exact Or.inl hs
    · intro k hp hcm hne hs
      refine allScored_of_scored h hp hcm hne (fun p hmem hbelongs => ?_)
      exact hs p (hpreds ▸ hmem) ((hmark.belongsTo_iff rfl).1 hbelongs)

end Turns

section Loop
variable {contestId : ℕ} (now : DateTime) (result : FinalResult)

theorem scoreMatches_cons {cm : ContestMatch} {cms : List ContestMatch} {db db₁ : Db}
    (h : scoreContestMatch now cm.contestId cm.id result db = .ok (⟨⟩, db₁)) :
    scoreMatches now result (cm :: cms) db =
      scoreMatches now result cms (finalizeContestIfComplete now cm.contestId db₁) := by
  simp only [scoreMatches, h]

/-- What the whole loop does, as one contest sees it. -/
structure Loop (contestId : ℕ) (cms : List ContestMatch) (db db' : Db) : Prop where
  progress : Progress db db'
  fixtures : db'.fixtures = db.fixtures
  rules : ∀ k, rulesOf db' k = rulesOf db k
  scored : ∀ cm ∈ cms, MatchScored db' cm
  untouched : ∀ m, (∀ cm ∈ cms, m.id ≠ cm.id) → Untouched db contestId m → Untouched db' contestId m
  others : (∀ cm ∈ cms, cm.contestId ≠ contestId) → statusOf db' contestId = statusOf db contestId ∧
    (AllScored db' contestId → AllScored db contestId)
  own : (∃ cm ∈ cms, cm.contestId = contestId) → statusOf db contestId ∈ afterLock →
    statusOf db' contestId ∈ [some .scoring, some .scored] ∧
      (AllFinal db' contestId → AllScored db' contestId → statusOf db' contestId = some .scored)
  sound : statusOf db' contestId = some .scored →
    statusOf db contestId = some .scored ∨ AllScored db' contestId

theorem loop_scoreMatches (cms : List ContestMatch) {db : Db} (hp : Pinned db contestId)
    (hr : Referenced db) (hcms : ∀ cm ∈ cms, cm ∈ db.contestMatches.rows) :
    Loop contestId cms db (scoreMatches now result cms db) := by
  induction cms generalizing db with
  | nil =>
    exact ⟨Progress.refl db, rfl, fun _ => rfl, by simp, fun _ _ h => h,
      fun _ => ⟨rfl, fun h => h⟩, by simp, Or.inl⟩
  | cons cm cms ih =>
    obtain ⟨db₁, h⟩ := scoreContestMatch_commits now result (hr cm (hcms cm List.mem_cons_self))
    have hturn := turn_scored h
    rw [scoreMatches_cons now result h]
    generalize finalizeContestIfComplete now cm.contestId db₁ = db₂ at hturn
    have hmatches := hturn.progress.matches_
    have hloop := ih (hturn.progress.pinned hp)
      (fun m hm => by rw [hturn.rules]; exact hr m (hmatches ▸ hm))
      (fun m hm => hmatches ▸ hcms m (List.mem_cons_of_mem _ hm))
    refine ⟨hturn.progress.trans hloop.progress, hloop.fixtures.trans hturn.fixtures,
      fun k => (hloop.rules k).trans (hturn.rules k), ?_, ?_, ?_, ?_, ?_⟩
    · intro m hm
      rcases List.mem_cons.1 hm with rfl | hm
      · exact hloop.progress.matchScored hturn.scored
      · exact hloop.scored m hm
    · intro m hm hun
      exact hloop.untouched m (fun c hc => hm c (List.mem_cons_of_mem _ hc))
        (hturn.untouched contestId m (hm cm List.mem_cons_self) hun)
    · intro hne
      obtain ⟨hs, hall⟩ := hloop.others (fun c hc => hne c (List.mem_cons_of_mem _ hc))
      have hcm := hne cm List.mem_cons_self
      exact ⟨hs.trans (hturn.others contestId hcm), fun h =>
        hturn.unscored contestId hp (hcms cm List.mem_cons_self) hcm (hall h)⟩
    · intro hex hlive
      by_cases hcm : cm.contestId = contestId
      · subst hcm
        obtain ⟨hstatus, hfinish⟩ := hturn.own hlive hp
        by_cases hrest : ∃ c ∈ cms, c.contestId = cm.contestId
        · refine hloop.own hrest ?_
          simp only [List.mem_cons, List.not_mem_nil, or_false] at hstatus
          rcases hstatus with hs | hs <;> simp [hs, afterLock]
        · push Not at hrest
          obtain ⟨hs, hall⟩ := hloop.others hrest
          rw [hs]
          refine ⟨hstatus, fun hf hscored => hfinish ?_ (hall hscored)⟩
          intro m hm hid
          obtain ⟨x, hx, hfinal⟩ := hf m (hloop.progress.matches_ ▸ hm) hid
          exact ⟨x, hloop.fixtures ▸ hx, hfinal⟩
      · have hrest : ∃ c ∈ cms, c.contestId = contestId := by
          obtain ⟨c, hc, hid⟩ := hex
          rcases List.mem_cons.1 hc with rfl | hc
          · exact absurd hid hcm
          · exact ⟨c, hc, hid⟩
        refine hloop.own hrest ?_
        rwa [hturn.others contestId hcm]
    · intro hs
      rcases hloop.sound hs with hs | hs
      · exact (hturn.sound contestId hs).imp_right hloop.progress.allScored
      · exact Or.inr hs

end Loop

section Alone
variable (drawHash : ℕ → ℕ → String) (now : DateTime) (predictionsFirst : Bool) (f : ℕ)
  (result : FinalResult)

theorem next_alone (tick : Tick) (t : Task) (db : Db) :
    (protocol drawHash).next ⟨db, [t]⟩ (.resume 0 tick) =
      ⟨(step drawHash tick t db).1, (step drawHash tick t db).2.toList⟩ := by
  simp [Protocol.next, protocol]

theorem step_of_ok {tick : Tick} {t : Task} {db db' : Db} {next : Option Task}
    (h : action drawHash tick t db = .ok (next, db')) : step drawHash tick t db = (db', next) := by
  rw [step, h]

theorem action_scoreMatch {cm : ContestMatch} (rest : List ContestMatch) {db db₁ : Db}
    (h : scoreContestMatch now cm.contestId cm.id result db = .ok (⟨⟩, db₁)) :
    action drawHash ⟨now, false, predictionsFirst⟩ (.scoring ⟨f, result, .scoreMatch cm rest⟩) db =
      .ok (some (.scoring ⟨f, result, .count cm rest⟩), db₁) := by
  simp only [action, ScoringJob.action, bind_ok_iff, throwIf_ok_iff, get_ok_iff, pure_ok_iff]
  exact ⟨⟨⟩, db, ⟨by simp, rfl⟩, db, db, ⟨rfl, rfl⟩, ⟨⟩, db₁, h, rfl, rfl⟩

theorem action_complete (cm : ContestMatch) (rest : List ContestMatch) (db : Db) :
    action drawHash ⟨now, false, predictionsFirst⟩ (.scoring ⟨f, result, .complete cm rest⟩) db =
      .ok (ScoringJob.next ⟨f, result, .complete cm rest⟩ rest,
        commit (markScored now cm.contestId) db) := by
  have hmark : ∃ db', markScored now cm.contestId db = .ok (⟨⟩, db') := by
    unfold markScored
    rcases moveContest_cases cm.contestId .scoring
      (fun c => { c with status := .scored, scoredAt := some now }) (fun _ => rfl) db with
      ⟨_, _, _, hmove⟩ | ⟨_, hmove⟩
    · exact ⟨_, by rw [bind_of_ok hmove]; rfl⟩
    · exact ⟨_, by rw [bind_of_ok hmove]; rfl⟩
  obtain ⟨db', hdb'⟩ := hmark
  rw [commit_of_ok hdb']
  simp only [action, ScoringJob.action, bind_ok_iff, throwIf_ok_iff, get_ok_iff, pure_ok_iff]
  refine ⟨⟨⟩, db, ⟨by simp, rfl⟩, db, db, ⟨rfl, rfl⟩, ⟨⟩, db', hdb', ?_⟩
  simp only [and_self]

/-- Left alone, a job that is about to score a match takes one turn of the loop. -/
theorem run_turn {cm : ContestMatch} (rest : List ContestMatch) {db db₁ : Db}
    (h : scoreContestMatch now cm.contestId cm.id result db = .ok (⟨⟩, db₁)) :
    ∃ n, (protocol drawHash).run ⟨db, [.scoring ⟨f, result, .scoreMatch cm rest⟩]⟩
        (List.replicate n (.resume 0 ⟨now, false, predictionsFirst⟩)) =
      ⟨finalizeContestIfComplete now cm.contestId db₁,
        (ScoringJob.next ⟨f, result, .readMatches⟩ rest).toList⟩ := by
  have hscore := step_of_ok drawHash
    (action_scoreMatch drawHash now predictionsFirst f result rest h)
  have hcount : step drawHash ⟨now, false, predictionsFirst⟩ (.scoring ⟨f, result, .count cm rest⟩)
      db₁ = (db₁, some (.scoring ⟨f, result, .countOther cm rest predictionsFirst
        (countPending predictionsFirst db₁ cm.contestId)⟩)) := rfl
  have hother : step drawHash ⟨now, false, predictionsFirst⟩ (.scoring ⟨f, result,
      .countOther cm rest predictionsFirst (countPending predictionsFirst db₁ cm.contestId)⟩) db₁ =
      (db₁, if 0 < countPending predictionsFirst db₁ cm.contestId ∨
          0 < countPending (!predictionsFirst) db₁ cm.contestId
        then ScoringJob.next ⟨f, result, .readMatches⟩ rest
        else some (.scoring ⟨f, result, .complete cm rest⟩)) := rfl
  have hpending : (0 < countPending predictionsFirst db₁ cm.contestId ∨
      0 < countPending (!predictionsFirst) db₁ cm.contestId) ↔
      (0 < pendingFixtures db₁ cm.contestId ∨ 0 < pendingPredictions db₁ cm.contestId) := by
    cases predictionsFirst with
    | true => exact or_comm
    | false => exact Iff.rfl
  by_cases hmore : 0 < pendingFixtures db₁ cm.contestId ∨ 0 < pendingPredictions db₁ cm.contestId
  · refine ⟨3, ?_⟩
    simp only [List.replicate, Protocol.run_cons, Protocol.run_nil, next_alone, hscore,
      Option.toList_some, hcount, hother]
    rw [if_pos (hpending.2 hmore), finalizeContestIfComplete, if_pos hmore]
  · refine ⟨4, ?_⟩
    have hdone := step_of_ok drawHash
      (action_complete drawHash now predictionsFirst f result cm rest db₁)
    simp only [List.replicate, Protocol.run_cons, Protocol.run_nil, next_alone, hscore,
      Option.toList_some, hcount, hother]
    rw [if_neg (fun hp => hmore (hpending.1 hp)), Option.toList_some, next_alone, hdone,
      finalizeContestIfComplete, if_neg hmore]
    rfl

theorem run_loop (cms : List ContestMatch) {db : Db} (hr : Referenced db)
    (hcms : ∀ cm ∈ cms, cm ∈ db.contestMatches.rows) :
    ∃ n, (protocol drawHash).run ⟨db, (ScoringJob.next ⟨f, result, .readMatches⟩ cms).toList⟩
        (List.replicate n (.resume 0 ⟨now, false, predictionsFirst⟩)) =
      ⟨scoreMatches now result cms db, []⟩ := by
  induction cms generalizing db with
  | nil => exact ⟨0, rfl⟩
  | cons cm cms ih =>
    obtain ⟨db₁, h⟩ := scoreContestMatch_commits now result (hr cm (hcms cm List.mem_cons_self))
    have hturn := turn_scored h
    obtain ⟨n, hn⟩ := run_turn drawHash now predictionsFirst f result cms h
    obtain ⟨k, hk⟩ := ih
      (fun m hm => by rw [hturn.rules]; exact hr m (hturn.progress.matches_ ▸ hm))
      (fun m hm => hturn.progress.matches_ ▸ hcms m (List.mem_cons_of_mem _ hm))
    refine ⟨n + k, ?_⟩
    rw [List.replicate_add, Protocol.run_append]
    change (protocol drawHash).run ((protocol drawHash).run
      ⟨db, [.scoring ⟨f, result, .scoreMatch cm cms⟩]⟩ _) _ = _
    rw [hn, hk, scoreMatches_cons now result h]

/-- A delivery that is left alone runs the handler to its end. -/
theorem run_deliver {db : Db} (hr : Referenced db) :
    ∃ n, (protocol drawHash).run ⟨db, []⟩ (.start (.resultFinalized f) ::
        List.replicate n (.resume 0 ⟨now, false, predictionsFirst⟩)) =
      ⟨onResultFinalized now f db, []⟩ := by
  have hread : step drawHash ⟨now, false, predictionsFirst⟩ (.ready (.resultFinalized f)) db =
      (db, (readResult f db).map (fun result => .scoring ⟨f, result, .readMatches⟩)) := rfl
  have hbegin : ∀ n, (protocol drawHash).run ⟨db, []⟩ (.start (.resultFinalized f) ::
      List.replicate (n + 1) (.resume 0 ⟨now, false, predictionsFirst⟩)) =
      (protocol drawHash).run ⟨db, ((readResult f db).map
        (fun result => Task.scoring ⟨f, result, .readMatches⟩)).toList⟩
        (List.replicate n (.resume 0 ⟨now, false, predictionsFirst⟩)) := by
    intro n
    rw [List.replicate_succ, Protocol.run_cons, Protocol.run_cons]
    change (protocol drawHash).run ((protocol drawHash).next
      ⟨db, [.ready (.resultFinalized f)]⟩ _) _ = _
    rw [next_alone, hread]
  unfold onResultFinalized
  cases hr' : readResult f db with
  | none =>
    refine ⟨1, ?_⟩
    rw [hbegin 0, hr']
    rfl
  | some result =>
    obtain ⟨n, hn⟩ := run_loop drawHash now predictionsFirst f result (readMatches f db) hr
      (fun cm hcm => (mem_readMatches.1 hcm).1)
    refine ⟨n + 1 + 1, ?_⟩
    have hmatches : step drawHash ⟨now, false, predictionsFirst⟩
        (.scoring ⟨f, result, .readMatches⟩) db =
        (db, ScoringJob.next ⟨f, result, .readMatches⟩ (readMatches f db)) := rfl
    rw [hbegin, hr', Option.map_some, Option.toList_some, List.replicate_succ, Protocol.run_cons,
      next_alone, hmatches, hn]

end Alone

end Handler
end FootballIQ
