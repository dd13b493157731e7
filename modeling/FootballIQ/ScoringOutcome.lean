import FootballIQ.Completion

/-!
# What the scores come to

Whatever the order and the repetition of the result events, and however the jobs
interleave: a scored prediction holds the score of the result of its fixture, and
the aggregates of an entry are the sums over its scored predictions. Once every
fixture was heard these are all of them.
-/

namespace FootballIQ
namespace ScoringOutcome

open Transaction Relational Interleaving Contests Scoring Platform ScoringRuns Completion

/-- The market rules of a contest. -/
def rulesOf (db : Db) (contestId : ℕ) : Option (List MarketRule) := do
  let contest ← db.contests.find contestId
  let ruleSet ← db.ruleSets.find contest.ruleSetId
  return ruleSet.marketRules

/-- The result that decides a prediction: that of the fixture of its slot's match. -/
def resultOf (db : Db) (p : Prediction) : Option FinalResult := do
  let slot ← db.contestSlots.find p.slotId
  let cm ← db.contestMatches.find slot.contestMatchId
  let fixture ← db.fixtures.find cm.fixtureId
  return finalResult fixture

/-- The prediction holds the score that the result and the rules give it. -/
def Correct (db : Db) (rules : List MarketRule) (p : Prediction) : Prop :=
  ∃ result, resultOf db p = some result ∧
    p.isCorrect = some (marketScorers p.marketType p.selection result) ∧
    p.pointsX10 = if marketScorers p.marketType p.selection result then
      (pointsByMarket rules p.marketType).getD 0 else 0

/-- The aggregates of the entry are the sums over its scored predictions. -/
structure Summed (db : Db) (contestId : ℕ) (e : Entry) : Prop where
  total : e.totalPointsX10 = ((picksOf db contestId e.id).map (·.1.pointsX10)).sum
  correct : e.correctCount = countCorrect (picksOf db contestId e.id) (fun _ => true)
  expert : e.correctExpert =
    countCorrect (picksOf db contestId e.id) (fun slot => slot.tier = .expert)
  hard : e.correctHard = countCorrect (picksOf db contestId e.id) (fun slot => slot.tier = .hard)

def tierOf (db : Db) (p : Prediction) : Option DifficultyTier :=
  (db.contestSlots.find p.slotId).map (·.tier)

/-- The aggregates of the entry are the sums over all of its own predictions. -/
structure OwnSums (db : Db) (e : Entry) : Prop where
  total : e.totalPointsX10 =
    ((db.predictions.findMany (fun p => p.entryId = e.id)).map (·.pointsX10)).sum
  correct : e.correctCount = db.predictions.count
    (fun p => p.entryId = e.id ∧ p.isCorrect = some true)
  expert : e.correctExpert = db.predictions.count
    (fun p => p.entryId = e.id ∧ p.isCorrect = some true ∧ tierOf db p = some .expert)
  hard : e.correctHard = db.predictions.count
    (fun p => p.entryId = e.id ∧ p.isCorrect = some true ∧ tierOf db p = some .hard)

/-- A locked contest with nothing scored yet, all of its fixtures final. -/
structure Unscored (contestId : ℕ) (rules : List MarketRule) (db : Db) : Prop where
  locked : Locked contestId db
  results : AllFinal db contestId
  rules_eq : rulesOf db contestId = some rules
  predictions : ∀ p ∈ db.predictions.rows, BelongsTo db contestId p → p.scoredAt = none
  entries : ∀ e ∈ db.entries.rows, e.contestId = contestId →
    e.totalPointsX10 = 0 ∧ e.correctCount = 0 ∧ e.correctExpert = 0 ∧ e.correctHard = 0

section Picks
variable {db db' : Db} {contestId entryId : ℕ}

/-- The pick of one prediction, if it is scored and on a slot of the contest. -/
def pickOf (db : Db) (contestId : ℕ) (p : Prediction) : Option (Prediction × ContestSlot) := do
  let slot ← db.contestSlots.find p.slotId
  if p.scoredAt ≠ none ∧ slot.contestId = contestId then some (p, slot) else none

theorem pickOf_eq_some {p : Prediction} {r : Prediction × ContestSlot} :
    pickOf db contestId p = some r ↔ r.1 = p ∧ db.contestSlots.find p.slotId = some r.2 ∧
      p.scoredAt ≠ none ∧ r.2.contestId = contestId := by
  obtain ⟨q, slot⟩ := r
  unfold pickOf
  simp only [Option.bind_eq_bind, Option.bind_eq_some_iff, Option.ite_none_right_eq_some,
    Option.some.injEq, Prod.mk.injEq]
  constructor
  · rintro ⟨slot', hfind, ⟨hs, hc⟩, rfl, rfl⟩
    exact ⟨rfl, hfind, hs, hc⟩
  · rintro ⟨rfl, hfind, hs, hc⟩
    exact ⟨slot, hfind, ⟨hs, hc⟩, rfl, rfl⟩

theorem mem_picksOf {r : Prediction × ContestSlot} :
    r ∈ picksOf db contestId entryId ↔ r.1 ∈ db.predictions.rows ∧ r.1.entryId = entryId ∧
      db.contestSlots.find r.1.slotId = some r.2 ∧ r.1.scoredAt ≠ none ∧
      r.2.contestId = contestId := by
  unfold picksOf scoredPicks
  rw [List.mem_filter, List.mem_filterMap, decide_eq_true_eq]
  constructor
  · rintro ⟨⟨p, hp, hpick⟩, hentry⟩
    obtain ⟨rfl, hrest⟩ := pickOf_eq_some.1 hpick
    exact ⟨hp, hentry, hrest⟩
  · rintro ⟨hp, hentry, hrest⟩
    exact ⟨⟨r.1, hp, pickOf_eq_some.2 ⟨rfl, hrest⟩⟩, hentry⟩

/-- Rewriting predictions of other entries changes no pick of this one. -/
theorem picksOf_map {f : Prediction → Prediction} (hslots : db'.contestSlots = db.contestSlots)
    (hrows : db'.predictions.rows = db.predictions.rows.map f)
    (hentry : ∀ p, (f p).entryId = p.entryId)
    (hf : ∀ p ∈ db.predictions.rows, p.entryId = entryId → f p = p) :
    picksOf db' contestId entryId = picksOf db contestId entryId := by
  have key : ∀ rows : List Prediction, (∀ p ∈ rows, p.entryId = entryId → f p = p) →
      ((rows.map f).filterMap (pickOf db' contestId)).filter (fun r => r.1.entryId = entryId) =
        (rows.filterMap (pickOf db contestId)).filter (fun r => r.1.entryId = entryId) := by
    have hpick : ∀ p, pickOf db' contestId p = pickOf db contestId p := by
      intro p
      unfold pickOf
      rw [hslots]
    intro rows hrows
    induction rows with
    | nil => rfl
    | cons p rows ih =>
      have ih := ih (fun q hq => hrows q (List.mem_cons_of_mem _ hq))
      by_cases hp : p.entryId = entryId
      · rw [List.map_cons, hrows p List.mem_cons_self hp, List.filterMap_cons, List.filterMap_cons,
          hpick]
        cases pickOf db contestId p with
        | none => exact ih
        | some r => rw [List.filter_cons, List.filter_cons, ih]
      · -- the pick of another entry is filtered out on both sides
        have hskip : ∀ q : Prediction, q.entryId ≠ entryId → ∀ (d : Db) l,
            (List.filterMap (pickOf d contestId) (q :: l)).filter (fun r => r.1.entryId = entryId) =
              (List.filterMap (pickOf d contestId) l).filter (fun r => r.1.entryId = entryId) := by
          intro q hq d l
          rw [List.filterMap_cons]
          cases hr : pickOf d contestId q with
          | none => rfl
          | some r =>
            obtain ⟨rfl, _⟩ := pickOf_eq_some.1 hr
            rw [List.filter_cons_of_neg]
            simpa using hq
        rw [List.map_cons, hskip (f p) (by rwa [hentry]), hskip p hp, ih]
  exact (congrArg (fun rows => (rows.filterMap (pickOf db' contestId)).filter
    (fun r => r.1.entryId = entryId)) hrows).trans (key _ hf)

/-- The picks of a fully scored entry are its predictions, each with its slot. -/
theorem picksOf_fst (h : ∀ p ∈ db.predictions.rows, p.entryId = entryId →
      ∃ slot, db.contestSlots.find p.slotId = some slot ∧ slot.contestId = contestId ∧
        p.scoredAt ≠ none) :
    (picksOf db contestId entryId).map Prod.fst =
      db.predictions.findMany (fun p => p.entryId = entryId) := by
  have key : ∀ rows : List Prediction, (∀ p ∈ rows, p.entryId = entryId →
        ∃ slot, db.contestSlots.find p.slotId = some slot ∧ slot.contestId = contestId ∧
          p.scoredAt ≠ none) →
      ((rows.filterMap (pickOf db contestId)).filter (fun r => r.1.entryId = entryId)).map Prod.fst =
        rows.filter (fun p => p.entryId = entryId) := by
    intro rows hrows
    induction rows with
    | nil => rfl
    | cons p rows ih =>
      have ih := ih (fun q hq => hrows q (List.mem_cons_of_mem _ hq))
      rw [List.filterMap_cons]
      by_cases hp : p.entryId = entryId
      · obtain ⟨slot, hslot, hc, hs⟩ := hrows p List.mem_cons_self hp
        rw [show pickOf db contestId p = some (p, slot) from pickOf_eq_some.2 ⟨rfl, hslot, hs, hc⟩]
        simpa [hp] using ih
      · rw [List.filter_cons_of_neg (by simpa using hp)]
        cases hr : pickOf db contestId p with
        | none => exact ih
        | some r =>
          obtain ⟨rfl, _⟩ := pickOf_eq_some.1 hr
          simpa [hp] using ih
  exact key _ h

theorem countCorrect_picksOf (h : (picksOf db contestId entryId).map Prod.fst =
      db.predictions.findMany (fun p => p.entryId = entryId)) (q : ContestSlot → Bool)
    (q' : Prediction → Prop) [DecidablePred q']
    (hq : ∀ p slot, db.contestSlots.find p.slotId = some slot → (q slot = true ↔ q' p)) :
    countCorrect (picksOf db contestId entryId) q = db.predictions.count
      (fun p => p.entryId = entryId ∧ p.isCorrect = some true ∧ q' p) := by
  have hcongr : (picksOf db contestId entryId).filter
      (fun r => r.1.isCorrect = some true ∧ q r.2) = (picksOf db contestId entryId).filter
      ((fun p => decide (p.isCorrect = some true ∧ q' p)) ∘ Prod.fst) := by
    refine List.filter_congr (fun r hr => ?_)
    obtain ⟨_, _, hslot, _⟩ := mem_picksOf.1 hr
    simp [hq r.1 r.2 hslot]
  have hfilter : db.predictions.count
      (fun p => p.entryId = entryId ∧ p.isCorrect = some true ∧ q' p) =
      ((db.predictions.findMany (fun p => p.entryId = entryId)).filter
        (fun p => decide (p.isCorrect = some true ∧ q' p))).length := by
    unfold Table.count Table.findMany
    rw [List.filter_filter]
    congr 2
    funext p
    simp [Bool.and_comm]
  rw [hfilter, ← h, List.filter_map, List.length_map, ← hcongr]
  rfl

/-- Fully scored, the sums over the scored predictions are those over all. -/
theorem Summed.ownSums {e : Entry} (hs : Summed db contestId e)
    (h : ∀ p ∈ db.predictions.rows, p.entryId = e.id →
      ∃ slot, db.contestSlots.find p.slotId = some slot ∧ slot.contestId = contestId ∧
        p.scoredAt ≠ none) : OwnSums db e := by
  have hfst := picksOf_fst h
  have htier : ∀ tier p slot, db.contestSlots.find p.slotId = some slot →
      (decide (slot.tier = tier) = true ↔ tierOf db p = some tier) := by
    intro tier p slot hslot
    simp [tierOf, hslot]
  refine ⟨?_, ?_, ?_, ?_⟩
  · rw [hs.total, ← hfst, List.map_map]
    rfl
  · rw [hs.correct, countCorrect_picksOf hfst (fun _ => true) (fun _ => True) (by simp)]
    simp
  · rw [hs.expert]
    exact countCorrect_picksOf hfst _ _ (htier .expert)
  · rw [hs.hard]
    exact countCorrect_picksOf hfst _ _ (htier .hard)

end Picks

section Invariant
variable (start : Db) (contestId : ℕ) (rules : List MarketRule)

/-- The data that scoring reads is that of the start; whatever is scored is scored right. -/
structure Scored (db : Db) : Prop where
  fixtures : db.fixtures = start.fixtures
  slots : db.contestSlots = start.contestSlots
  matches_ : db.contestMatches = start.contestMatches
  rules_eq : rulesOf db contestId = some rules
  pinned : Pinned db contestId
  correct : ∀ p ∈ db.predictions.rows, BelongsTo db contestId p → p.scoredAt ≠ none →
    Correct start rules p
  summed : ∀ e ∈ db.entries.rows, e.contestId = contestId → Summed db contestId e

/-- A job holds matches of its fixture and the result that it read. -/
def Briefed (db : Db) (t : Task) : Prop :=
  FromTable db t ∧
    match t with
    | .scoring job => readResult job.fixtureId db = some job.result
    | _ => True

variable {start contestId rules} {tick : Tick} {db db' : Db} {t t' u : Task} {next : Option Task}

theorem belongsTo_of_entryId {e : Entry} (he : e ∈ db.entries.rows) (hid : e.contestId = contestId)
    {p : Prediction} (hp : p.entryId = e.id) : BelongsTo db contestId p :=
  belongsTo_iff.2 ⟨e, hp ▸ db.entries.find_id he, hid⟩

theorem rulesOf_updateWhere {p : Contest → Prop} [DecidablePred p] {f : Contest → Contest}
    (hf : ∀ c, Row.id (f c) = Row.id c) (hrules : ∀ c, (f c).ruleSetId = c.ruleSetId)
    (hcontests : db'.contests = db.contests.updateWhere p f hf)
    (hsets : db'.ruleSets = db.ruleSets) : rulesOf db' contestId = rulesOf db contestId := by
  unfold rulesOf
  rw [hcontests, hsets, Table.find_updateWhere]
  cases db.contests.find contestId with
  | none => rfl
  | some c =>
    have hset : (if p c then f c else c).ruleSetId = c.ruleSetId := by
      split_ifs
      · exact hrules c
      · rfl
    simp [hset]

theorem Summed.of_picks {e : Entry} (h : Summed db contestId e)
    (hp : picksOf db' contestId e.id = picksOf db contestId e.id) : Summed db' contestId e :=
  ⟨hp ▸ h.total, hp ▸ h.correct, hp ▸ h.expert, hp ▸ h.hard⟩

/-- A prediction on a match of the job is decided by the result that the job has read. -/
theorem resultOf_onMatch (hI : Scored start contestId rules db) {f : ℕ} {result : FinalResult}
    (hread : readResult f db = some result) {cm : ContestMatch}
    (hcm : cm ∈ db.contestMatches.rows) (hf : cm.fixtureId = f) {p : Prediction}
    (hon : onMatch db cm.id p) : resultOf start p = some result := by
  obtain ⟨slot, hslot, hid⟩ := onMatch_iff.1 hon
  obtain ⟨x, hx, _, rfl⟩ := readResult_some_iff.1 hread
  have hmatch := db.contestMatches.find_id hcm
  rw [hI.slots] at hslot
  rw [hI.matches_] at hmatch
  rw [hI.fixtures, ← hf] at hx
  unfold resultOf
  rw [hslot]
  change ((start.contestMatches.find slot.contestMatchId).bind _) = _
  rw [hid, show start.contestMatches.find cm.id = some cm from hmatch]
  change ((start.fixtures.find cm.fixtureId).bind _) = _
  rw [hx]
  rfl

section Score
variable {now : ℕ} {f : ℕ} {result : FinalResult} {cm : ContestMatch}

/-- What the scoring transaction makes of one prediction. -/
def scoreOne (db : Db) (now : DateTime) (rules : List MarketRule) (contestMatchId : ℕ)
    (result : FinalResult) (p : Prediction) : Prediction :=
  if onMatch db contestMatchId p then withScore now (scoreOf rules result p) p else p

theorem rows_scoredPredictions (mid : ℕ) :
    (scoredPredictions db now rules mid result).rows =
      db.predictions.rows.map (scoreOne db now rules mid result) :=
  Table.rows_updateWhere _ _ _ _

theorem entryId_scoreOne (mid : ℕ) (p : Prediction) :
    (scoreOne db now rules mid result p).entryId = p.entryId := by
  unfold scoreOne
  split_ifs <;> rfl

theorem slotId_scoreOne (mid : ℕ) (p : Prediction) :
    (scoreOne db now rules mid result p).slotId = p.slotId := by
  unfold scoreOne
  split_ifs <;> rfl

theorem scoredAt_scoreOne {mid : ℕ} {p : Prediction} (hs : p.scoredAt ≠ none) :
    (scoreOne db now rules mid result p).scoredAt ≠ none := by
  unfold scoreOne
  split_ifs
  · exact Option.some_ne_none now
  · exact hs

/-- What the recomputation makes of one entry. -/
def recomputed (db : Db) (contestId : ℕ) (e : Entry) : Entry :=
  if picksOf db contestId e.id ≠ [] then { e with
    totalPointsX10 := ((picksOf db contestId e.id).map (·.1.pointsX10)).sum
    correctCount := countCorrect (picksOf db contestId e.id) (fun _ => true)
    correctExpert := countCorrect (picksOf db contestId e.id) (fun slot => slot.tier = .expert)
    correctHard := countCorrect (picksOf db contestId e.id) (fun slot => slot.tier = .hard) }
  else e

theorem mem_recomputeAggregates {e' : Entry} : e' ∈ (recomputeAggregates db contestId).rows ↔
    ∃ e ∈ db.entries.rows, recomputed db contestId e = e' := Table.mem_updateWhere _ _ _ _ _

theorem contestId_recomputed (e : Entry) : (recomputed db contestId e).contestId = e.contestId := by
  unfold recomputed
  split_ifs <;> rfl

theorem recomputed_of_nil {e : Entry} (h : picksOf db contestId e.id = []) :
    recomputed db contestId e = e := if_neg (not_not_intro h)

theorem summed_recomputed {e : Entry} (h : picksOf db contestId e.id ≠ []) :
    Summed db contestId (recomputed db contestId e) := by
  unfold recomputed
  rw [if_pos h]
  exact ⟨rfl, rfl, rfl, rfl⟩

/-- After the scoring transaction a prediction of the contest is as before, or it is on the
match and holds the score by the result under the rules of the contest. -/
theorem predictions_after (hrules : rulesOf db contestId = some rules)
    (hpinned : Pinned db contestId) (hcm : cm ∈ db.contestMatches.rows)
    (h : scoreContestMatch now cm.contestId cm.id result db = .ok (⟨⟩, db')) :
    rulesOf db' contestId = some rules ∧
      ∀ p' ∈ db'.predictions.rows, BelongsTo db' contestId p' →
        (p' ∈ db.predictions.rows ∧ BelongsTo db contestId p') ∨
          ∃ p ∈ db.predictions.rows, onMatch db cm.id p ∧
            p' = withScore now (scoreOf rules result p) p := by
  have hprogress := (progress_scored h).1
  obtain ⟨c, ruleSet, hc, hset, hr⟩ := (scoreContestMatch_ok_iff _ _ _ _ _ _).1 h
  have hsets : db'.ruleSets = db.ruleSets := by rw [show db' = _ from hr]; rfl
  have hrules' : rulesOf db' contestId = some rules := by
    rw [← hrules]
    exact rulesOf_updateWhere (by intro c; rfl) (by intro c; rfl) (congrArg Db.contests hr) hsets
  refine ⟨hrules', ?_⟩
  intro p' hp' hbelongs
  have hpreds : db'.predictions = scoredPredictions db now ruleSet.marketRules cm.id result :=
    congrArg Db.predictions hr
  rw [hpreds] at hp'
  obtain ⟨p, hp, rfl⟩ := mem_scoredPredictions.1 hp'
  by_cases hon : onMatch db cm.id p
  · rw [if_pos hon] at hbelongs ⊢
    have hbefore : BelongsTo db contestId p := (hprogress.belongsTo_iff rfl).2 hbelongs
    have hcontest := contestId_of_onMatch hpinned hp hbefore hcm hon
    have hown : rulesOf db' cm.contestId = some ruleSet.marketRules := by
      unfold rulesOf
      rw [show db'.contests = openScoring db cm.contestId from congrArg Db.contests hr, hc, hsets]
      change ((db.ruleSets.find c.ruleSetId).bind _) = _
      rw [hset]
      rfl
    rw [hcontest, hrules', Option.some.injEq] at hown
    subst hown
    exact Or.inr ⟨p, hp, hon, rfl⟩
  · rw [if_neg hon] at hbelongs ⊢
    exact Or.inl ⟨hp, (hprogress.belongsTo_iff rfl).2 hbelongs⟩

/-- The scoring transaction writes correct scores. -/
theorem correct_after (hI : Scored start contestId rules db)
    (hread : readResult f db = some result) (hcm : cm ∈ db.contestMatches.rows)
    (hf : cm.fixtureId = f) (h : scoreContestMatch now cm.contestId cm.id result db = .ok (⟨⟩, db')) :
    rulesOf db' contestId = some rules ∧
      ∀ p ∈ db'.predictions.rows, BelongsTo db' contestId p → p.scoredAt ≠ none →
        Correct start rules p := by
  obtain ⟨hrules, hpreds⟩ := predictions_after hI.rules_eq hI.pinned hcm h
  refine ⟨hrules, fun p' hp' hbelongs hscored => ?_⟩
  rcases hpreds p' hp' hbelongs with ⟨hp, hbefore⟩ | ⟨p, hp, hon, rfl⟩
  · exact hI.correct p' hp hbefore hscored
  · exact ⟨result, resultOf_onMatch hI hread hcm hf hon, rfl, rfl⟩

/-- The recomputation leaves the aggregates of this contest right, also when it is the
turn of another contest. -/
theorem summed_after (hpin : Pinned db contestId)
    (hsummed : ∀ e ∈ db.entries.rows, e.contestId = contestId → Summed db contestId e)
    (hcm : cm ∈ db.contestMatches.rows)
    (h : scoreContestMatch now cm.contestId cm.id result db = .ok (⟨⟩, db')) :
    ∀ e ∈ db'.entries.rows, e.contestId = contestId → Summed db' contestId e := by
  have hprogress := (progress_scored h).1
  have hpinned : Pinned db' contestId := hprogress.pinned hpin
  obtain ⟨c, ruleSet, _, _, hr⟩ := (scoreContestMatch_ok_iff _ _ _ _ _ _).1 h
  have hslots : db'.contestSlots = db.contestSlots := hprogress.slots
  have hrows : db'.predictions.rows =
      db.predictions.rows.map (scoreOne db now ruleSet.marketRules cm.id result) := by
    rw [show db' = _ from hr]
    exact rows_scoredPredictions cm.id
  intro e' he' hid
  obtain ⟨e, he, rfl⟩ : ∃ e ∈ db.entries.rows, recomputed db' cm.contestId e = e' := by
    rw [show db' = _ from hr] at he' ⊢
    exact mem_recomputeAggregates.1 he'
  rw [contestId_recomputed] at hid
  by_cases hcid : cm.contestId = contestId
  · subst hcid
    by_cases hpicks : picksOf db' cm.contestId e.id = []
    · -- nothing of the entry is scored, before or after
      rw [recomputed_of_nil hpicks]
      refine (hsummed e he hid).of_picks (hpicks.trans (List.eq_nil_iff_forall_not_mem.2 ?_).symm)
      intro r hr'
      obtain ⟨hmem, hentry, hslot, hs, hc⟩ := mem_picksOf.1 hr'
      have hin : (scoreOne db now ruleSet.marketRules cm.id result r.1, r.2) ∈
          picksOf db' cm.contestId e.id := by
        refine mem_picksOf.2 ⟨hrows ▸ List.mem_map_of_mem hmem, ?_, ?_, scoredAt_scoreOne hs, hc⟩
        · exact (entryId_scoreOne cm.id r.1).trans hentry
        · rw [hslots, slotId_scoreOne, hslot]
      rw [hpicks] at hin
      cases hin
    · exact summed_recomputed hpicks
  · have hnone : picksOf db' cm.contestId e.id = [] := by
      refine List.eq_nil_iff_forall_not_mem.2 (fun r hr' => ?_)
      obtain ⟨hmem, hentry, hslot, _, hc⟩ := mem_picksOf.1 hr'
      have hbelongs : BelongsTo db' contestId r.1 :=
        (hprogress.belongsTo_iff rfl).1 (belongsTo_of_entryId he hid hentry)
      obtain ⟨slot, _, hslot', hcontest, _⟩ := hpinned.slots r.1 hmem hbelongs
      rw [Option.some.inj (hslot.symm.trans hslot')] at hc
      exact hcid (hc.symm.trans hcontest)
    rw [recomputed_of_nil hnone]
    refine (hsummed e he hid).of_picks (picksOf_map hslots hrows (entryId_scoreOne cm.id) ?_)
    intro p hp hentry
    refine if_neg (fun hon => hcid ?_)
    exact contestId_of_onMatch hpin hp (belongsTo_of_entryId he hid hentry) hcm hon

end Score

theorem Scored.of_marked (hI : Scored start contestId rules db) (now cid : ℕ) :
    Scored start contestId rules (commit (markScored now cid) db) := by
  rcases markScored_cases now cid db with ⟨_, _, _, hc⟩ | ⟨_, hc⟩
  · have hprogress := progress_markScored now cid db
    rw [hc] at hprogress ⊢
    refine ⟨hI.fixtures, hI.slots, hI.matches_, ?_, hprogress.pinned hI.pinned, hI.correct, ?_⟩
    · rw [← hI.rules_eq]
      exact rulesOf_updateWhere (by intro c; rfl) (by intro c; rfl) rfl rfl
    · exact fun e he hid => (hI.summed e he hid).of_picks rfl
  · rwa [hc]

theorem Scored.after (hI : Scored start contestId rules db) (hL : Briefed db t)
    (hG : ScoringStep tick t db) (h : Outcome tick db t db' next) :
    Scored start contestId rules db' := by
  cases h with
  | checked | finalized => exact hG.elim
  | @scored f result cm rest db' hscore =>
    have hprogress := (progress_scored hscore).1
    obtain ⟨hcm, hf⟩ := hL.1.2 cm List.mem_cons_self
    obtain ⟨hrules, hcorrect⟩ := correct_after hI hL.2 hcm hf hscore
    obtain ⟨_, _, _, _, hr⟩ := (scoreContestMatch_ok_iff _ _ _ _ _ _).1 hscore
    have hfixtures : db'.fixtures = db.fixtures := by rw [show db' = _ from hr]; rfl
    exact ⟨hfixtures.trans hI.fixtures, hprogress.slots.trans hI.slots,
      hprogress.matches_.trans hI.matches_, hrules, hprogress.pinned hI.pinned, hcorrect,
      summed_after hI.pinned hI.summed hcm hscore⟩
  | marked => exact hI.of_marked _ _
  | _ => exact hI

theorem Briefed.of_fixtures (hf : db'.fixtures = db.fixtures) (hp : Progress db db')
    (hu : Briefed db u) : Briefed db' u := by
  refine ⟨hu.1.of_progress hp, ?_⟩
  have hu := hu.2
  cases u with
  | scoring job =>
    simp only [readResult, hf] at hu ⊢
    exact hu
  | _ => trivial

theorem briefed_next {f : ℕ} {result : FinalResult} {stage : Stage} {cms : List ContestMatch}
    (hread : readResult f db = some result) (ht : FromTable db t')
    (h : ScoringJob.next ⟨f, result, stage⟩ cms = some t') : Briefed db t' := by
  refine ⟨ht, ?_⟩
  obtain ⟨cm, rest, _, rfl⟩ := ScoringJob.next_some h
  exact hread

/-- A job carries the result that it read from step to step. -/
theorem briefed_cont (hL : Briefed db t) (h : Outcome tick db t db' next)
    (hf : db'.fixtures = db.fixtures) (hn : next = some t') : Briefed db' t' := by
  have hfrom := h.fromTable hL.1 hn
  refine ⟨hfrom, ?_⟩
  have hread : ∀ {f : ℕ} {result : FinalResult}, readResult f db = some result →
      readResult f db' = some result := by
    intro f result hr
    simp only [readResult, hf] at hr ⊢
    exact hr
  cases h with
  | ignored | finalized => cases hn
  | begun hr =>
    cases hn
    exact hread hr
  | redelivered =>
    cases hn
    trivial
  | checked hall =>
    rw [hall t' hn]
    trivial
  | scored | counted | complete =>
    cases hn
    exact hread hL.2
  | matchesRead | incomplete | marked => exact (briefed_next (hread hL.2) hfrom hn).2

theorem inductive_scored (drawHash : ℕ → ℕ → String) (start : Db) (contestId : ℕ)
    (rules : List MarketRule) :
    (protocol drawHash).Inductive ScoringStep (Scored start contestId rules) Briefed where
  init _ _ _ := ⟨trivial, trivial⟩
  shared _ _ _ hI hL hG := hI.after hL hG (outcome_step drawHash hG.result)
  cont _ _ _ _ hI hL hG hn :=
    have h := outcome_step drawHash hG.result
    briefed_cont hL h ((hI.after hL hG h).fixtures.trans hI.fixtures.symm) hn
  stable _ _ _ _ hI hL hG hu :=
    have h := outcome_step drawHash hG.result
    hu.of_fixtures ((hI.after hL hG h).fixtures.trans hI.fixtures.symm) h.progress

end Invariant

section Runs
variable {drawHash : ℕ → ℕ → String} {contestId : ℕ} {rules : List MarketRule} {db : Db}
  {as : List (Act Call Tick)}

/-- An entry without scored predictions and without points is summed. -/
theorem summed_of_unscored (h : ∀ p ∈ db.predictions.rows, BelongsTo db contestId p →
      p.scoredAt = none) {e : Entry} (he : e ∈ db.entries.rows) (hid : e.contestId = contestId)
    (hzero : e.totalPointsX10 = 0 ∧ e.correctCount = 0 ∧ e.correctExpert = 0 ∧ e.correctHard = 0) :
    Summed db contestId e := by
  have hnone : picksOf db contestId e.id = [] := by
    refine List.eq_nil_iff_forall_not_mem.2 (fun r hr => ?_)
    obtain ⟨hmem, hentry, _, hs, _⟩ := mem_picksOf.1 hr
    exact hs (h r.1 hmem (belongsTo_of_entryId he hid hentry))
  obtain ⟨htotal, hcorrect, hexpert, hhard⟩ := hzero
  constructor <;> rw [hnone] <;> assumption

theorem Unscored.scored (h : Unscored contestId rules db) : Scored db contestId rules db where
  fixtures := rfl
  slots := rfl
  matches_ := rfl
  rules_eq := h.rules_eq
  pinned := h.locked.pinned
  correct p hp hbelongs hs := absurd (h.predictions p hp hbelongs) hs
  summed e he hid := summed_of_unscored h.predictions he hid (h.entries e he hid)

/-- Once each fixture of a locked contest was delivered and all deliveries are processed, the
contest is scored correctly and altogether. -/
theorem scored_of_deliveries (hstart : Unscored contestId rules db)
    (hA : (protocol drawHash).Along ScoringStep ⟨db, []⟩ as)
    (hall : ∀ m ∈ db.contestMatches.rows, m.contestId = contestId →
      .start (.resultFinalized m.fixtureId) ∈ as)
    (hquiet : ((protocol drawHash).run ⟨db, []⟩ as).pending = []) :
    Scored db contestId rules ((protocol drawHash).run ⟨db, []⟩ as).shared ∧
      AllScored ((protocol drawHash).run ⟨db, []⟩ as).shared contestId := by
  have hA' : (protocol drawHash).Along ResultStep ⟨db, []⟩ as :=
    hA.mono _ (fun _ _ _ hG => hG.result)
  constructor
  · exact ((inductive_scored drawHash db contestId rules).run
      (⟨hstart.scored, by simp⟩ : Protocol.Holds _ _ (⟨db, []⟩ : Config Db Task)) hA).1
  · exact allScored_of_heard hstart.locked hA'
      (fun m hm hid => heard_of_mem [] hA' (hstart.results m hm hid) (hall m hm hid)) hquiet

/-- Where all predictions are scored an entry has the sums over all of its own. -/
theorem Scored.ownSums {db' : Db} (h : Scored db contestId rules db')
    (hscored : AllScored db' contestId) {e : Entry} (he : e ∈ db'.entries.rows)
    (hid : e.contestId = contestId) : OwnSums db' e := by
  refine (h.summed e he hid).ownSums (fun p hp hentry => ?_)
  have hbelongs := belongsTo_of_entryId he hid hentry
  obtain ⟨slot, _, hslot, hcontest, _⟩ := h.pinned.slots p hp hbelongs
  exact ⟨slot, hslot, hcontest, hscored p hp hbelongs⟩

/-- Whatever the order, the repetition and the interleaving of the result events: once
each fixture of a locked contest was delivered and all deliveries are processed, every
prediction has its score and every entry the sums over its predictions. -/
theorem scores_of_deliveries (hstart : Unscored contestId rules db)
    (hA : (protocol drawHash).Along ScoringStep ⟨db, []⟩ as)
    (hall : ∀ m ∈ db.contestMatches.rows, m.contestId = contestId →
      .start (.resultFinalized m.fixtureId) ∈ as)
    (hquiet : ((protocol drawHash).run ⟨db, []⟩ as).pending = []) :
    Progress db ((protocol drawHash).run ⟨db, []⟩ as).shared ∧
      (∀ p ∈ ((protocol drawHash).run ⟨db, []⟩ as).shared.predictions.rows,
        BelongsTo ((protocol drawHash).run ⟨db, []⟩ as).shared contestId p → Correct db rules p) ∧
      ∀ e ∈ ((protocol drawHash).run ⟨db, []⟩ as).shared.entries.rows, e.contestId = contestId →
        OwnSums ((protocol drawHash).run ⟨db, []⟩ as).shared e := by
  obtain ⟨hI, hscored⟩ := scored_of_deliveries hstart hA hall hquiet
  refine ⟨progress_run (hA.mono _ (fun _ _ _ hG => hG.result)), fun p hp hbelongs => ?_,
    fun e he hid => hI.ownSums hscored he hid⟩
  exact hI.correct p hp hbelongs (hscored p hp hbelongs)

end Runs

section Race

/-- The locked contest with all five results in. -/
def resultsDb : Db := ((protocol (fun _ _ => "")).run ⟨stakedDb, []⟩ allFinalized).shared

def resultsRules : List MarketRule :=
  [⟨.matchWinner, 50⟩, ⟨.btts, 100⟩, ⟨.exactGoals, 150⟩, ⟨.correctScore, 325⟩]

theorem unscored_resultsDb : Unscored 1 resultsRules resultsDb where
  locked := by
    have hA : (protocol (fun _ _ => "")).Along ResultStep ⟨stakedDb, []⟩ allFinalized := by
      decide +kernel
    exact ⟨by decide +kernel, by decide +kernel, by decide +kernel,
      (progress_run hA).pinned locked_stakedDb.pinned⟩
  results := by
    have h : ∀ m ∈ resultsDb.contestMatches.rows, m.contestId = 1 →
        ∃ x ∈ resultsDb.fixtures.find m.fixtureId, x.resultFinalizedAt ≠ none := by decide +kernel
    exact h
  rules_eq := by decide +kernel
  predictions := by
    have h : ∀ p ∈ resultsDb.predictions.rows, p.scoredAt = none := by decide +kernel
    exact fun p hp _ => h p hp
  entries := by decide +kernel

theorem scores_of_deliveries_fiveJobs :
    ((protocol (fun _ _ => "")).run ⟨resultsDb, []⟩ fiveJobs).shared.entries.rows.map
        (·.totalPointsX10) = [1050, 1050] ∧
      ∀ e ∈ ((protocol (fun _ _ => "")).run ⟨resultsDb, []⟩ fiveJobs).shared.entries.rows,
        e.contestId = 1 →
          OwnSums ((protocol (fun _ _ => "")).run ⟨resultsDb, []⟩ fiveJobs).shared e := by
  refine ⟨by decide +kernel, ?_⟩
  exact (scores_of_deliveries unscored_resultsDb (by decide +kernel) (by decide +kernel)
    (by decide +kernel)).2.2

end Race

end ScoringOutcome
end FootballIQ
