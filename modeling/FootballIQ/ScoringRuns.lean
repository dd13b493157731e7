import FootballIQ.Frames

/-!
# Runs of scoring jobs

The steps of scoring jobs and of result finalizations, what each of them does,
and what none of them undoes: a fixture stays final, a prediction stays scored,
and nobody moves a pick to another slot or a match to another contest.
-/

namespace FootballIQ
namespace ScoringRuns

open Transaction Relational Interleaving Contests Scoring Platform

/-- The steps of scoring jobs. -/
def ScoringStep (_tick : Tick) (t : Task) (_db : Db) : Prop :=
  match t with
  | .ready (.resultFinalized _) => True
  | .scoring _ => True
  | _ => False

/-- The steps of scoring jobs and of finalizations. -/
def ResultStep (tick : Tick) (t : Task) (db : Db) : Prop :=
  match t with
  | .ready (.finalize _ _) => True
  | .finalizeTx _ _ => True
  | t => ScoringStep tick t db

instance (tick : Tick) (db : Db) : ∀ t, Decidable (ScoringStep tick t db)
  | .scoring _ => .isTrue trivial
  | .ready (.resultFinalized _) => .isTrue trivial
  | .ready (.deposit _ _) | .ready (.create _ _) | .ready (.publish _) | .ready (.submitSlip _ _)
  | .ready (.lock _) | .ready (.cancel _ _) | .ready (.finalize _ _) | .ready (.distribute _)
  | .settle _ _ | .publishTx _ _ | .submitTx _ | .cancelTx _ _ | .finalizeTx _ _
  | .distributeTx _ => .isFalse id

instance (tick : Tick) (db : Db) : ∀ t, Decidable (ResultStep tick t db)
  | .ready (.finalize _ _) | .finalizeTx _ _ => .isTrue trivial
  | .scoring _ => .isTrue trivial
  | .ready (.resultFinalized _) => .isTrue trivial
  | .ready (.deposit _ _) | .ready (.create _ _) | .ready (.publish _) | .ready (.submitSlip _ _)
  | .ready (.lock _) | .ready (.cancel _ _) | .ready (.distribute _)
  | .settle _ _ | .publishTx _ _ | .submitTx _ | .cancelTx _ _ | .distributeTx _ => .isFalse id

theorem ScoringStep.result {tick : Tick} {t : Task} {db : Db} (h : ScoringStep tick t db) :
    ResultStep tick t db := by
  unfold ResultStep
  split <;> trivial

section Outcomes
variable (drawHash : ℕ → ℕ → String)

/-- What a step of these tasks does: its new state and what it leaves pending. -/
inductive Outcome (tick : Tick) (db : Db) : Task → Db → Option Task → Prop
  | ignored {f : ℕ} (h : readResult f db = none) :
    Outcome tick db (.ready (.resultFinalized f)) db none
  | begun {f : ℕ} {result : FinalResult} (h : readResult f db = some result) :
    Outcome tick db (.ready (.resultFinalized f)) db (some (.scoring ⟨f, result, .readMatches⟩))
  | checked {f : ℕ} {result : Results.FinalizeResultRequest} {next : Option Task}
    (h : ∀ t, next = some t → t = .finalizeTx f result) :
    Outcome tick db (.ready (.finalize f result)) db next
  | finalized {f : ℕ} {result : Results.FinalizeResultRequest} :
    Outcome tick db (.finalizeTx f result) (commit (Results.finalizeTx tick.now f result) db) none
  | redelivered {job : ScoringJob} :
    Outcome tick db (.scoring job) db (some (.ready (.resultFinalized job.fixtureId)))
  | matchesRead {f : ℕ} {result : FinalResult} :
    Outcome tick db (.scoring ⟨f, result, .readMatches⟩) db
      (ScoringJob.next ⟨f, result, .readMatches⟩ (readMatches f db))
  | scored {f : ℕ} {result : FinalResult} {cm : ContestMatch} {rest : List ContestMatch} {db' : Db}
    (h : scoreContestMatch tick.now cm.contestId cm.id result db = .ok (⟨⟩, db')) :
    Outcome tick db (.scoring ⟨f, result, .scoreMatch cm rest⟩) db'
      (some (.scoring ⟨f, result, .count cm rest⟩))
  | counted {f : ℕ} {result : FinalResult} {cm : ContestMatch} {rest : List ContestMatch} :
    Outcome tick db (.scoring ⟨f, result, .count cm rest⟩) db
      (some (.scoring ⟨f, result, .countOther cm rest tick.predictionsFirst
        (countPending tick.predictionsFirst db cm.contestId)⟩))
  | incomplete {f : ℕ} {result : FinalResult} {cm : ContestMatch} {rest : List ContestMatch}
    {predictionsFirst : Bool} {first : ℕ}
    (h : 0 < first ∨ 0 < countPending (!predictionsFirst) db cm.contestId) :
    Outcome tick db (.scoring ⟨f, result, .countOther cm rest predictionsFirst first⟩) db
      (ScoringJob.next ⟨f, result, .readMatches⟩ rest)
  | complete {f : ℕ} {result : FinalResult} {cm : ContestMatch} {rest : List ContestMatch}
    {predictionsFirst : Bool} {first : ℕ}
    (h : first = 0 ∧ countPending (!predictionsFirst) db cm.contestId = 0) :
    Outcome tick db (.scoring ⟨f, result, .countOther cm rest predictionsFirst first⟩) db
      (some (.scoring ⟨f, result, .complete cm rest⟩))
  | marked {f : ℕ} {result : FinalResult} {cm : ContestMatch} {rest : List ContestMatch} :
    Outcome tick db (.scoring ⟨f, result, .complete cm rest⟩)
      (commit (markScored tick.now cm.contestId) db) (ScoringJob.next ⟨f, result, .readMatches⟩ rest)

theorem outcome_scoring {tick : Tick} {job : ScoringJob} {db : Db} :
    Outcome tick db (.scoring job) (step drawHash tick (.scoring job) db).1
      (step drawHash tick (.scoring job) db).2 := by
  rcases step_cases drawHash tick (.scoring job) db with ⟨next, db', hok, hs⟩ | ⟨_, hs⟩
  · rw [hs]
    have hjob := ScoringJob.action_ok hok
    obtain ⟨f, result, stage⟩ := job
    cases stage with
    | readMatches =>
      obtain ⟨rfl, rfl⟩ := hjob
      exact .matchesRead
    | scoreMatch cm rest =>
      obtain ⟨hscore, rfl⟩ := hjob
      exact .scored hscore
    | count cm rest =>
      obtain ⟨rfl, rfl⟩ := hjob
      exact .counted
    | countOther cm rest predictionsFirst first =>
      obtain ⟨rfl, rfl⟩ := hjob
      split_ifs with hpos
      · exact .incomplete hpos
      · exact .complete (by omega)
    | complete cm rest =>
      obtain ⟨hmark, rfl⟩ := hjob
      rw [← commit_of_ok hmark]
      exact .marked
  · rw [hs]
    exact .redelivered

/-- Every step of a scoring job or of a finalization has one of these outcomes. -/
theorem outcome_step {tick : Tick} {t : Task} {db : Db} (hG : ResultStep tick t db) :
    Outcome tick db t (step drawHash tick t db).1 (step drawHash tick t db).2 := by
  cases t with
  | ready call =>
    cases call with
    | resultFinalized f =>
      have hstep : step drawHash tick (.ready (.resultFinalized f)) db =
          (db, (readResult f db).map (fun result => .scoring ⟨f, result, .readMatches⟩)) := rfl
      rw [hstep]
      cases hr : readResult f db with
      | none => exact .ignored hr
      | some result => exact .begun hr
    | finalize f result =>
      rcases step_cases drawHash tick (.ready (.finalize f result)) db with
        ⟨next, db', hok, hs⟩ | ⟨_, hs⟩
      · rw [hs]
        simp only [action, begin_, bind_ok_iff, pure_ok_iff] at hok
        obtain ⟨u, db₁, hread, rfl, rfl⟩ := hok
        obtain ⟨_, hdb⟩ := Results.finalizeRead_ok hread
        obtain rfl : db₁ = db := hdb
        exact .checked (fun t ht => (Option.some.inj ht).symm)
      · rw [hs]
        exact .checked (fun t ht => by cases ht)
    | _ => exact hG.elim
  | finalizeTx f result =>
    rw [step_of_action drawHash (Results.finalizeTx tick.now f result) rfl rfl db]
    exact .finalized
  | scoring job => exact outcome_scoring drawHash
  | _ => exact hG.elim

end Outcomes

section Facts

/-- The result of the fixture is final. -/
def Final (db : Db) (fixtureId : ℕ) : Prop :=
  ∃ f, db.fixtures.find fixtureId = some f ∧ f.resultFinalizedAt ≠ none

/-- The prediction belongs to an entry of the contest. -/
def BelongsTo (db : Db) (contestId : ℕ) (p : Prediction) : Prop :=
  (db.entries.find p.entryId).any (fun e => e.contestId = contestId)

def AllFinal (db : Db) (contestId : ℕ) : Prop :=
  ∀ m ∈ db.contestMatches.rows, m.contestId = contestId → Final db m.fixtureId

def AllScored (db : Db) (contestId : ℕ) : Prop :=
  ∀ p ∈ db.predictions.rows, BelongsTo db contestId p → p.scoredAt ≠ none

def MatchScored (db : Db) (m : ContestMatch) : Prop :=
  ∀ p ∈ db.predictions.rows, onMatch db m.id p → p.scoredAt ≠ none

/-- The fixtures of the contest exist, and each of its predictions is on a slot of the
contest whose match is of the contest too. -/
structure Pinned (db : Db) (contestId : ℕ) : Prop where
  fixtures : ∀ m ∈ db.contestMatches.rows, m.contestId = contestId →
    db.fixtures.find m.fixtureId ≠ none
  slots : ∀ p ∈ db.predictions.rows, BelongsTo db contestId p →
    ∃ slot m, db.contestSlots.find p.slotId = some slot ∧ slot.contestId = contestId ∧
      m ∈ db.contestMatches.rows ∧ m.id = slot.contestMatchId ∧ m.contestId = contestId

variable {db : Db} {contestId : ℕ}

theorem pendingPredictions_eq_zero_iff :
    pendingPredictions db contestId = 0 ↔ AllScored db contestId := by
  rw [pendingPredictions, Table.count_eq_zero_iff]
  refine forall₂_congr (fun p _ => ?_)
  rw [not_and']
  exact Iff.rfl

theorem allFinal_of_pendingFixtures (hp : Pinned db contestId)
    (h : pendingFixtures db contestId = 0) : AllFinal db contestId := by
  rw [pendingFixtures, Table.count_eq_zero_iff] at h
  intro m hm hid
  obtain ⟨f, hf⟩ := Option.ne_none_iff_exists'.1 (hp.fixtures m hm hid)
  refine ⟨f, hf, fun hnone => h m hm ⟨hid, ?_⟩⟩
  rw [hf, Option.any_some]
  exact decide_eq_true hnone

theorem pendingFixtures_eq_zero (h : AllFinal db contestId) : pendingFixtures db contestId = 0 := by
  rw [pendingFixtures, Table.count_eq_zero_iff]
  rintro m hm ⟨hid, hany⟩
  obtain ⟨f, hf, hfinal⟩ := h m hm hid
  rw [hf, Option.any_some] at hany
  exact hfinal (of_decide_eq_true hany)

theorem onMatch_iff {m : ℕ} {p : Prediction} :
    onMatch db m p ↔ ∃ slot, db.contestSlots.find p.slotId = some slot ∧ slot.contestMatchId = m := by
  unfold onMatch
  cases db.contestSlots.find p.slotId with
  | none => simp
  | some slot => simp

theorem belongsTo_iff {p : Prediction} :
    BelongsTo db contestId p ↔ ∃ e, db.entries.find p.entryId = some e ∧ e.contestId = contestId := by
  unfold BelongsTo
  cases db.entries.find p.entryId with
  | none => simp
  | some e => simp

/-- Contest by contest the predictions are scored when match by match they are. -/
theorem allScored_of_matches (hp : Pinned db contestId)
    (h : ∀ m ∈ db.contestMatches.rows, m.contestId = contestId → MatchScored db m) :
    AllScored db contestId := by
  intro p hmem hbelongs
  obtain ⟨slot, m, hslot, _, hm, hid, hcontest⟩ := hp.slots p hmem hbelongs
  exact h m hm hcontest p hmem (onMatch_iff.2 ⟨slot, hslot, hid.symm⟩)

/-- A match that has a prediction of the contest on it is of the contest. -/
theorem contestId_of_onMatch (hp : Pinned db contestId) {p : Prediction}
    (hmem : p ∈ db.predictions.rows) (hbelongs : BelongsTo db contestId p) {m : ContestMatch}
    (hm : m ∈ db.contestMatches.rows) (hon : onMatch db m.id p) : m.contestId = contestId := by
  obtain ⟨slot, m', hslot, _, hm', hid, hcontest⟩ := hp.slots p hmem hbelongs
  obtain ⟨slot', hslot', hid'⟩ := onMatch_iff.1 hon
  have hss : slot' = slot := Option.some.inj (hslot'.symm.trans hslot)
  have hmm : m = m' := db.contestMatches.eq_of_id_eq hm hm' ((hss ▸ hid').symm.trans hid.symm)
  rw [hmm, hcontest]

theorem readResult_some_iff {f : ℕ} {result : FinalResult} :
    readResult f db = some result ↔
      ∃ x, db.fixtures.find f = some x ∧ x.resultFinalizedAt ≠ none ∧ result = finalResult x := by
  unfold readResult
  cases db.fixtures.find f with
  | none => simp
  | some x =>
    by_cases hx : x.resultFinalizedAt = none
    · simp [hx]
    · simp [hx, eq_comm]

theorem final_of_readResult {f : ℕ} {result : FinalResult} (h : readResult f db = some result) :
    Final db f := by
  obtain ⟨x, hx, hfinal, _⟩ := readResult_some_iff.1 h
  exact ⟨x, hx, hfinal⟩

theorem readResult_ne_none {f : ℕ} (h : Final db f) : readResult f db ≠ none := by
  obtain ⟨x, hx, hfinal⟩ := h
  rw [Ne, Option.eq_none_iff_forall_ne_some]
  push Not
  exact ⟨finalResult x, readResult_some_iff.2 ⟨x, hx, hfinal, rfl⟩⟩

theorem mem_readMatches {f : ℕ} {m : ContestMatch} :
    m ∈ readMatches f db ↔ m ∈ db.contestMatches.rows ∧ m.fixtureId = f ∧
      ∃ c, db.contests.find m.contestId = some c ∧ (c.status = .locked ∨ c.status = .scoring) := by
  rw [readMatches, Table.mem_findMany]
  refine and_congr_right (fun _ => and_congr_right (fun _ => ?_))
  cases db.contests.find m.contestId with
  | none => simp
  | some c => simp

end Facts

section Progress

/-- The columns of a prediction that its submission fixes. -/
def pickColumns (p : Prediction) : ℕ × ℕ × ℕ × MarketType × String :=
  (p.id, p.entryId, p.slotId, p.marketType, p.selection)

/-- What these steps never undo. -/
structure Progress (db db' : Db) : Prop where
  slots : db'.contestSlots = db.contestSlots
  matches_ : db'.contestMatches = db.contestMatches
  entries : Table.Same (fun e => (e.id, e.contestId)) db.entries db'.entries
  picks : Table.Same pickColumns db.predictions db'.predictions
  scored : ∀ p ∈ db.predictions.rows, p.scoredAt ≠ none →
    ∀ p' ∈ db'.predictions.rows, p'.id = p.id → p'.scoredAt ≠ none
  fixtures : ∀ id f, db.fixtures.find id = some f →
    ∃ f', db'.fixtures.find id = some f' ∧ (f.resultFinalizedAt ≠ none → f'.resultFinalizedAt ≠ none)

variable {db db' db'' : Db} {contestId : ℕ}

theorem Progress.refl (db : Db) : Progress db db where
  slots := rfl
  matches_ := rfl
  entries := Table.Same.refl _ _
  picks := Table.Same.refl _ _
  scored p hp hs p' hp' hid := by
    rwa [db.predictions.eq_of_id_eq hp' hp hid]
  fixtures id f hf := ⟨f, hf, fun h => h⟩

theorem Progress.trans (h : Progress db db') (h' : Progress db' db'') : Progress db db'' where
  slots := h'.slots.trans h.slots
  matches_ := h'.matches_.trans h.matches_
  entries := h.entries.trans h'.entries
  picks := h.picks.trans h'.picks
  scored p hp hs p'' hp'' hid := by
    obtain ⟨p', hp', hcols⟩ := h'.picks.mem hp''
    have hid' : p'.id = p''.id := congrArg (fun c => c.1) hcols
    exact h'.scored p' hp' (h.scored p hp hs p' hp' (hid'.trans hid)) p'' hp'' hid'.symm
  fixtures id f hf := by
    obtain ⟨f', hf', hkeep⟩ := h.fixtures id f hf
    obtain ⟨f'', hf'', hkeep'⟩ := h'.fixtures id f' hf'
    exact ⟨f'', hf'', fun hs => hkeep' (hkeep hs)⟩

theorem Progress.final (h : Progress db db') {f : ℕ} (hf : Final db f) : Final db' f := by
  obtain ⟨x, hx, hfinal⟩ := hf
  obtain ⟨x', hx', hkeep⟩ := h.fixtures f x hx
  exact ⟨x', hx', hkeep hfinal⟩

theorem Progress.allFinal (h : Progress db db') (hf : AllFinal db contestId) :
    AllFinal db' contestId := by
  intro m hm hid
  rw [h.matches_] at hm
  exact h.final (hf m hm hid)

/-- The entry of a pick and its contest are found as before. -/
theorem Progress.belongsTo_iff (h : Progress db db') {p p' : Prediction}
    (hcols : pickColumns p = pickColumns p') : BelongsTo db contestId p ↔ BelongsTo db' contestId p' := by
  have hentry : p.entryId = p'.entryId := congrArg (fun c => c.2.1) hcols
  have hfind := h.entries.find (fun r r' hr => congrArg Prod.fst hr) p.entryId
  unfold BelongsTo
  rw [← hentry]
  cases he : db.entries.find p.entryId with
  | none =>
    rw [he, Option.map_none, Option.map_eq_none_iff] at hfind
    simp [hfind]
  | some e =>
    rw [he, Option.map_some, Option.map_eq_some_iff] at hfind
    obtain ⟨e', he', hcols'⟩ := hfind
    have hcontest : e'.contestId = e.contestId := congrArg Prod.snd hcols'
    simp [he', hcontest]

theorem Progress.onMatch_iff (h : Progress db db') {p p' : Prediction}
    (hcols : pickColumns p = pickColumns p') (m : ℕ) : onMatch db m p ↔ onMatch db' m p' := by
  have hslot : p.slotId = p'.slotId := congrArg (fun c => c.2.2.1) hcols
  unfold onMatch
  rw [h.slots, hslot]

theorem Progress.allScored (h : Progress db db') (hs : AllScored db contestId) :
    AllScored db' contestId := by
  intro p' hp' hbelongs
  obtain ⟨p, hp, hcols⟩ := h.picks.mem hp'
  exact h.scored p hp (hs p hp ((h.belongsTo_iff hcols).2 hbelongs)) p' hp'
    (congrArg (fun c => c.1) hcols.symm)

theorem Progress.matchScored (h : Progress db db') {m : ContestMatch} (hs : MatchScored db m) :
    MatchScored db' m := by
  intro p' hp' hon
  obtain ⟨p, hp, hcols⟩ := h.picks.mem hp'
  exact h.scored p hp (hs p hp ((h.onMatch_iff hcols m.id).2 hon)) p' hp'
    (congrArg (fun c => c.1) hcols.symm)

theorem Progress.pinned (h : Progress db db') (hp : Pinned db contestId) : Pinned db' contestId where
  fixtures m hm hid := by
    rw [h.matches_] at hm
    obtain ⟨f, hf⟩ := Option.ne_none_iff_exists'.1 (hp.fixtures m hm hid)
    obtain ⟨f', hf', _⟩ := h.fixtures _ f hf
    rw [hf']
    exact Option.some_ne_none f'
  slots p' hp' hbelongs := by
    obtain ⟨p, hmem, hcols⟩ := h.picks.mem hp'
    obtain ⟨slot, m, hslot, hrest⟩ := hp.slots p hmem ((h.belongsTo_iff hcols).2 hbelongs)
    have hid : p.slotId = p'.slotId := congrArg (fun c => c.2.2.1) hcols
    exact ⟨slot, m, by rw [h.slots, ← hid, hslot], h.matches_ ▸ hrest⟩

/-- A count that was zero stays zero. -/
theorem Progress.countPending (h : Progress db db') (hp : Pinned db contestId) {predictions : Bool}
    (hzero : countPending predictions db contestId = 0) :
    countPending predictions db' contestId = 0 := by
  cases predictions with
  | true =>
    exact pendingPredictions_eq_zero_iff.2 (h.allScored (pendingPredictions_eq_zero_iff.1 hzero))
  | false => exact pendingFixtures_eq_zero (h.allFinal (allFinal_of_pendingFixtures hp hzero))

theorem mem_scoredPredictions {now mid : ℕ} {rules : List MarketRule} {result : FinalResult}
    {p' : Prediction} : p' ∈ (scoredPredictions db now rules mid result).rows ↔
      ∃ p ∈ db.predictions.rows,
        (if onMatch db mid p then withScore now (scoreOf rules result p) p else p) = p' :=
  Table.mem_updateWhere _ _ _ _ _

/-- The scoring transaction scores the match. -/
theorem progress_scored {now cid mid : ℕ} {result : FinalResult} {r : PUnit × Db}
    (h : scoreContestMatch now cid mid result db = .ok r) :
    Progress db r.2 ∧ ∀ p ∈ r.2.predictions.rows, onMatch r.2 mid p → p.scoredAt ≠ none := by
  obtain ⟨c, ruleSet, _, _, hr⟩ := (scoreContestMatch_ok_iff now cid mid result db r).1 h
  have hpreds : r.2.predictions = scoredPredictions db now ruleSet.marketRules mid result := by
    rw [hr]
    rfl
  refine ⟨⟨by rw [hr]; rfl, by rw [hr]; rfl, ?_, ?_, ?_, ?_⟩, ?_⟩
  · rw [hr]
    exact Table.same_updateWhere (by intro e; rfl) (fun _ _ _ => rfl)
  · rw [hpreds]
    exact Table.same_updateWhere (fun p => id_withScore now _ p) (fun _ _ _ => rfl)
  · intro p hp hs p' hp' hid
    rw [hpreds] at hp'
    obtain ⟨q, hq, rfl⟩ := mem_scoredPredictions.1 hp'
    split_ifs at hid ⊢ with hon
    · exact Option.some_ne_none now
    · rwa [db.predictions.eq_of_id_eq hq hp hid]
  · intro id f hf
    rw [hr]
    exact ⟨f, hf, fun h => h⟩
  · intro p' hp' hafter
    have hon : onMatch db mid p' := by
      rw [hr] at hafter
      exact hafter
    rw [hpreds] at hp'
    obtain ⟨q, hq, rfl⟩ := mem_scoredPredictions.1 hp'
    split_ifs at hon ⊢ with hq'
    · exact Option.some_ne_none now
    · exact absurd hon hq'

/-- Scoring a match of another contest scores nothing of this one. -/
theorem allScored_of_scored {now : ℕ} {contestId : ℕ} {cm : ContestMatch} {result : FinalResult}
    {r : PUnit × Db} (h : scoreContestMatch now cm.contestId cm.id result db = .ok r)
    (hp : Pinned db contestId) (hcm : cm ∈ db.contestMatches.rows) (hne : cm.contestId ≠ contestId)
    (hall : AllScored r.2 contestId) : AllScored db contestId := by
  intro p hmem hbelongs
  have hprogress := (progress_scored h).1
  obtain ⟨c, ruleSet, _, _, hr⟩ := (scoreContestMatch_ok_iff _ _ _ _ _ _).1 h
  have hoff : ¬ onMatch db cm.id p := fun hon => hne (contestId_of_onMatch hp hmem hbelongs hcm hon)
  have hmem' : p ∈ r.2.predictions.rows := by
    rw [hr]
    exact mem_scoredPredictions.2 ⟨p, hmem, if_neg hoff⟩
  exact hall p hmem' ((hprogress.belongsTo_iff rfl).1 hbelongs)

theorem progress_finalizeTx (now f : ℕ) (result : Results.FinalizeResultRequest) (db : Db) :
    Progress db (commit (Results.finalizeTx now f result) db) := by
  rcases commit_cases (Results.finalizeTx now f result) db with ⟨u, db', hok, hc⟩ | ⟨_, _, hc⟩
  · obtain ⟨_, hdb⟩ := (Results.finalizeTx_ok_iff now f result db (u, db')).1 hok
    rw [hc, show db' = _ from hdb]
    refine ⟨rfl, rfl, Table.Same.refl _ _, Table.Same.refl _ _, (Progress.refl db).scored, ?_⟩
    intro id x hx
    refine ⟨_, by rw [Table.find_update, hx, Option.map_some], ?_⟩
    split_ifs
    · exact fun _ => Option.some_ne_none now
    · exact fun h => h
  · rw [hc]
    exact Progress.refl db

theorem progress_markScored (now k : ℕ) (db : Db) :
    Progress db (commit (markScored now k) db) := by
  rcases markScored_cases now k db with ⟨_, _, _, hc⟩ | ⟨_, hc⟩
  · rw [hc]
    exact ⟨rfl, rfl, Table.Same.refl _ _, Table.Same.refl _ _, (Progress.refl db).scored,
      (Progress.refl db).fixtures⟩
  · rw [hc]
    exact Progress.refl db

theorem Outcome.progress {tick : Tick} {t : Task} {next : Option Task}
    (h : Outcome tick db t db' next) : Progress db db' := by
  cases h with
  | finalized => exact progress_finalizeTx _ _ _ db
  | scored hscore => exact (progress_scored hscore).1
  | marked => exact progress_markScored _ _ db
  | _ => exact Progress.refl db

end Progress

section Status

def statusOf (db : Db) (contestId : ℕ) : Option ContestStatus :=
  (db.contests.find contestId).map (·.status)

/-- How many `contest.scored` events of the contest were emitted. -/
def announced (db : Db) (contestId : ℕ) : ℕ := db.outbox.count (.contestScored contestId)

variable {db db' : Db}

/-- The scoring transaction moves its own contest out of LOCKED and announces nothing. -/
theorem status_scored (contestId : ℕ) {now cid mid : ℕ} {result : FinalResult} {r : PUnit × Db}
    (h : scoreContestMatch now cid mid result db = .ok r) :
    statusOf r.2 contestId = (if contestId = cid ∧ statusOf db contestId = some .locked then
        some .scoring else statusOf db contestId) ∧
      announced r.2 contestId = announced db contestId := by
  obtain ⟨c, ruleSet, _, _, hr⟩ := (scoreContestMatch_ok_iff now cid mid result db r).1 h
  have hcontests : r.2.contests = openScoring db cid := by rw [hr]; rfl
  have houtbox : r.2.outbox = db.outbox ++ [.predictionScored cid] := by rw [hr]
  constructor
  · unfold statusOf
    rw [hcontests, openScoring, Table.find_updateWhere]
    cases hc : db.contests.find contestId with
    | none => simp
    | some c =>
      have hid : c.id = contestId := ((Table.find_eq_some_iff _ _ _).1 hc).2
      by_cases hcid : contestId = cid ∧ c.status = .locked
      · simp [hid, hcid]
      · simp [hid, hcid]
  · unfold announced
    rw [houtbox, List.count_append, List.count_singleton]
    simp

/-- The last transaction moves its own contest from SCORING to SCORED and announces it. -/
theorem status_marked (db : Db) (contestId now cid : ℕ) :
    statusOf (commit (markScored now cid) db) contestId =
        (if contestId = cid ∧ statusOf db contestId = some .scoring then some .scored
          else statusOf db contestId) ∧
      announced (commit (markScored now cid) db) contestId = announced db contestId +
        (if contestId = cid ∧ statusOf db contestId = some .scoring then 1 else 0) := by
  rcases markScored_cases now cid db with ⟨c, hc, hs, hrun⟩ | ⟨hno, hrun⟩
  · rw [hrun]
    have hstatus : statusOf db cid = some .scoring := by rw [statusOf, hc, Option.map_some, hs]
    constructor
    · unfold statusOf completed
      rw [Table.find_update]
      by_cases hcid : contestId = cid
      · subst hcid
        simp [hc, hs]
      · simp [hcid]
    · unfold announced completed
      rw [List.count_append, List.count_singleton]
      by_cases hcid : contestId = cid
      · subst hcid
        simp [hstatus]
      · simp [hcid, Ne.symm hcid]
  · rw [hrun]
    have hcond : ¬ (contestId = cid ∧ statusOf db contestId = some .scoring) := by
      rintro ⟨rfl, hstatus⟩
      obtain ⟨c, hc, hs⟩ := Option.map_eq_some_iff.1 hstatus
      exact hno c hc hs
    rw [if_neg hcond, if_neg hcond]
    exact ⟨rfl, rfl⟩

/-- What a step may do to the status of a contest and to its announcement. -/
theorem Outcome.status {tick : Tick} {t : Task} {next : Option Task}
    (h : Outcome tick db t db' next) (contestId : ℕ) :
    (statusOf db' contestId = statusOf db contestId ∧
        announced db' contestId = announced db contestId) ∨
      (statusOf db contestId = some .locked ∧ statusOf db' contestId = some .scoring ∧
        announced db' contestId = announced db contestId) ∨
      (statusOf db contestId = some .scoring ∧ statusOf db' contestId = some .scored ∧
        announced db' contestId = announced db contestId + 1 ∧
        ∃ f result cm rest, t = .scoring ⟨f, result, .complete cm rest⟩ ∧
          cm.contestId = contestId) := by
  cases h with
  | @finalized f result =>
    refine Or.inl ?_
    rcases commit_cases (Results.finalizeTx tick.now f result) db with ⟨u, db', hok, hc⟩ | ⟨_, _, hc⟩
    · obtain ⟨_, hdb⟩ := (Results.finalizeTx_ok_iff tick.now f result db (u, db')).1 hok
      rw [hc, show db' = _ from hdb]
      refine ⟨rfl, ?_⟩
      unfold announced
      rw [List.count_append, List.count_singleton]
      simp
    · rw [hc]
      exact ⟨rfl, rfl⟩
  | @scored f result cm rest db' hscore =>
    obtain ⟨hstatus, hann⟩ := status_scored contestId hscore
    split_ifs at hstatus with hcond
    · exact Or.inr (Or.inl ⟨hcond.2, hstatus, hann⟩)
    · exact Or.inl ⟨hstatus, hann⟩
  | @marked f result cm rest =>
    obtain ⟨hstatus, hann⟩ := status_marked db contestId tick.now cm.contestId
    split_ifs at hstatus hann with hcond
    · exact Or.inr (Or.inr ⟨hcond.2, hstatus, hann, f, result, cm, rest, rfl, hcond.1.symm⟩)
    · exact Or.inl ⟨hstatus, hann⟩
  | _ => exact Or.inl ⟨rfl, rfl⟩

end Status

section Jobs

/-- The matches that a job still holds from its read. -/
def remaining : Stage → List ContestMatch
  | .readMatches => []
  | .scoreMatch cm rest | .count cm rest | .countOther cm rest _ _ | .complete cm rest => cm :: rest

/-- The fixture of a scoring job is final, and the job holds matches of it only. -/
def FromTable (db : Db) (t : Task) : Prop :=
  match t with
  | .scoring job => Final db job.fixtureId ∧ ∀ m ∈ remaining job.stage,
      m ∈ db.contestMatches.rows ∧ m.fixtureId = job.fixtureId
  | _ => True

variable {tick : Tick} {db db' : Db} {t t' : Task} {next : Option Task}

theorem FromTable.of_progress (h : Progress db db') (ht : FromTable db t) : FromTable db' t := by
  cases t with
  | scoring job =>
    refine ⟨h.final ht.1, ?_⟩
    rw [h.matches_]
    exact ht.2
  | _ => trivial

theorem fromTable_next {f : ℕ} {result : FinalResult} {stage : Stage} {cms : List ContestMatch}
    (hf : Final db f) (hcms : ∀ m ∈ cms, m ∈ db.contestMatches.rows ∧ m.fixtureId = f)
    (h : ScoringJob.next ⟨f, result, stage⟩ cms = some t') : FromTable db t' := by
  obtain ⟨cm, rest, rfl, rfl⟩ := ScoringJob.next_some h
  exact ⟨hf, hcms⟩

theorem Outcome.fromTable (h : Outcome tick db t db' next) (ht : FromTable db t)
    (hn : next = some t') : FromTable db' t' := by
  refine FromTable.of_progress h.progress ?_
  cases h with
  | ignored | finalized => cases hn
  | begun hread =>
    cases hn
    exact ⟨final_of_readResult hread, by simp [remaining]⟩
  | redelivered =>
    cases hn
    trivial
  | checked hall =>
    rw [hall t' hn]
    trivial
  | matchesRead =>
    refine fromTable_next ht.1 (fun m hm => ?_) hn
    obtain ⟨hmem, hf, _⟩ := mem_readMatches.1 hm
    exact ⟨hmem, hf⟩
  | scored | counted | complete =>
    cases hn
    exact ht
  | incomplete | marked =>
    exact fromTable_next ht.1 (fun m hm => ht.2 m (List.mem_cons_of_mem _ hm)) hn

end Jobs

end ScoringRuns
end FootballIQ
