import FootballIQ.FootballData
import FootballIQ.MaxScore
import FootballIQ.ScoringOutcome

/-!
# Scores within the advertised maximum

A scored prediction holds at most the points of its market, and the aggregates of an entry
are sums over some of its predictions. However results and scoring jobs interleave, an entry
with a complete slip stays within the maximum; and a slip that scores the maximum by the
results of its fixtures has it in the database once all of them are processed.
-/

namespace FootballIQ
namespace ScoreBounds

open Transaction Relational Interleaving Contests Scoring Platform ScoringRuns Completion
  ScoringOutcome SlipValidator Settings

section Slips

/-- The slots of the contest as the validator sees them. -/
def slotDefs (db : Db) (contestId : ℕ) : List SlotDefinition :=
  (Entries.slotsOf db contestId).map (fun s => ⟨s.id, s.tier⟩)

/-- The slip that the predictions of the entry hold. -/
def slipOf (db : Db) (entryId : ℕ) : List SlipPrediction :=
  (db.predictions.findMany (fun p => p.entryId = entryId)).map
    (fun p => ⟨p.slotId, p.marketType, p.selection⟩)

/-- The bounds that the settings and the slot distribution put on an entry. -/
structure WithinMax (rules : List MarketRule) (e : Entry) : Prop where
  total : e.totalPointsX10 ≤ maxSlipScore rules
  correct : e.correctCount ≤ 10
  expert : e.correctExpert ≤ 2
  hard : e.correctHard ≤ 3

variable {db db' : Db} {contestId entryId : ℕ}

theorem nodup_slotDefs (db : Db) (contestId : ℕ) :
    ((slotDefs db contestId).map (·.slotId)).Nodup := by
  unfold slotDefs
  rw [List.map_map]
  exact db.contestSlots.nodup_ids.sublist (List.filter_sublist.map _)

theorem mem_slotDefs {s : SlotDefinition} (hs : s ∈ slotDefs db contestId) :
    ∃ slot, db.contestSlots.find s.slotId = some slot ∧ slot.tier = s.tier := by
  obtain ⟨slot, hslot, rfl⟩ := List.mem_map.1 hs
  exact ⟨slot, db.contestSlots.find_id ((db.contestSlots.mem_findMany _ slot).1 hslot).1, rfl⟩

theorem slotDefs_of_progress (h : Progress db db') : slotDefs db' contestId = slotDefs db contestId := by
  unfold slotDefs Entries.slotsOf
  rw [h.slots]

theorem slipOf_of_progress (h : Progress db db') : slipOf db' entryId = slipOf db entryId := by
  have hcols := h.picks.findMany (fun p => p.entryId = entryId)
    (fun p p' hp => by rw [show p.entryId = p'.entryId from congrArg (fun c => c.2.1) hp])
  have hslip := congrArg
    (List.map (fun c : ℕ × ℕ × ℕ × MarketType × String => SlipPrediction.mk c.2.2.1 c.2.2.2.1 c.2.2.2.2))
    hcols
  rw [List.map_map, List.map_map] at hslip
  exact hslip

/-- The picks of an entry are some of its predictions. -/
theorem picksOf_sublist (db : Db) (contestId entryId : ℕ) :
    ((picksOf db contestId entryId).map Prod.fst).Sublist
      (db.predictions.findMany (fun p => p.entryId = entryId)) := by
  have key : ∀ rows : List Prediction,
      (((rows.filterMap (pickOf db contestId)).filter
        (fun r => r.1.entryId = entryId)).map Prod.fst).Sublist
        (rows.filter (fun p => p.entryId = entryId)) := by
    intro rows
    induction rows with
    | nil => exact List.Sublist.refl _
    | cons p rows ih =>
      rw [List.filterMap_cons]
      cases hr : pickOf db contestId p with
      | none => exact ih.trans ((List.sublist_cons_self p rows).filter _)
      | some r =>
        obtain ⟨rfl, _⟩ := pickOf_eq_some.1 hr
        by_cases hp : r.1.entryId = entryId
        · simpa [hp] using ih
        · simpa [hp] using ih
  exact key _

end Slips

section Invariant
variable (contestId : ℕ) (rules : List MarketRule)

/-- A scored prediction of the contest holds at most the points of its market. -/
structure Tallied (db : Db) : Prop where
  rules_eq : rulesOf db contestId = some rules
  pinned : Pinned db contestId
  bounded : ∀ p ∈ db.predictions.rows, BelongsTo db contestId p → p.scoredAt ≠ none →
    p.pointsX10 ≤ worth rules p.marketType
  summed : ∀ e ∈ db.entries.rows, e.contestId = contestId → Summed db contestId e

/-- A contest of which nothing is scored yet. -/
structure Untouched (db : Db) : Prop where
  rules_eq : rulesOf db contestId = some rules
  pinned : Pinned db contestId
  predictions : ∀ p ∈ db.predictions.rows, BelongsTo db contestId p → p.scoredAt = none
  entries : ∀ e ∈ db.entries.rows, e.contestId = contestId →
    e.totalPointsX10 = 0 ∧ e.correctCount = 0 ∧ e.correctExpert = 0 ∧ e.correctHard = 0

variable {contestId rules} {tick : Tick} {db db' : Db} {t : Task} {next : Option Task}

theorem Untouched.tallied (h : Untouched contestId rules db) : Tallied contestId rules db where
  rules_eq := h.rules_eq
  pinned := h.pinned
  bounded p hp hbelongs hs := absurd (h.predictions p hp hbelongs) hs
  summed e he hid := summed_of_unscored h.predictions he hid (h.entries e he hid)

theorem pointsX10_scoreOf_le (result : FinalResult) (p : Prediction) :
    (scoreOf rules result p).pointsX10 ≤ worth rules p.marketType := by
  unfold scoreOf scorePrediction worth
  by_cases hcorrect : marketScorers p.marketType p.selection result = true
  · simp [hcorrect]
  · simp [hcorrect]

theorem Tallied.after (hI : Tallied contestId rules db) (hL : FromTable db t)
    (h : Outcome tick db t db' next) : Tallied contestId rules db' := by
  cases h with
  | @scored f result cm rest db' hscore =>
    have hprogress := (progress_scored hscore).1
    obtain ⟨hcm, _⟩ := hL.2 cm List.mem_cons_self
    obtain ⟨hrules, hpreds⟩ := predictions_after hI.rules_eq hI.pinned hcm hscore
    refine ⟨hrules, hprogress.pinned hI.pinned, fun p' hp' hbelongs hs => ?_,
      summed_after hI.pinned hI.summed hcm hscore⟩
    rcases hpreds p' hp' hbelongs with ⟨hp, hbefore⟩ | ⟨p, _, _, rfl⟩
    · exact hI.bounded p' hp hbefore hs
    · exact pointsX10_scoreOf_le result p
  | @marked f result cm rest =>
    rcases markScored_cases tick.now cm.contestId db with ⟨_, _, _, hc⟩ | ⟨_, hc⟩
    · have hprogress := progress_markScored tick.now cm.contestId db
      rw [hc] at hprogress ⊢
      refine ⟨?_, hprogress.pinned hI.pinned, hI.bounded,
        fun e he hid => (hI.summed e he hid).of_picks rfl⟩
      rw [← hI.rules_eq]
      exact rulesOf_updateWhere (by intro c; rfl) (by intro c; rfl) rfl rfl
    · rwa [hc]
  | @finalized f result =>
    rcases commit_cases (Results.finalizeTx tick.now f result) db with ⟨u, db', hok, hc⟩ | ⟨_, _, hc⟩
    · have hprogress := progress_finalizeTx tick.now f result db
      obtain ⟨_, hdb⟩ := (Results.finalizeTx_ok_iff tick.now f result db (u, db')).1 hok
      rw [hc, show db' = _ from hdb] at hprogress ⊢
      exact ⟨hI.rules_eq, hprogress.pinned hI.pinned, hI.bounded,
        fun e he hid => (hI.summed e he hid).of_picks rfl⟩
    · rwa [hc]
  | _ => exact hI

theorem inductive_tallied (drawHash : ℕ → ℕ → String) (contestId : ℕ) (rules : List MarketRule) :
    (protocol drawHash).Inductive ResultStep (Tallied contestId rules) FromTable where
  init _ _ _ := trivial
  shared _ _ _ hI hL hG := hI.after hL (outcome_step drawHash hG)
  cont _ _ _ _ _ hL hG hn := (outcome_step drawHash hG).fromTable hL hn
  stable _ _ _ _ _ _ hG hu := hu.of_progress (outcome_step drawHash hG).progress

/-- Correct picks on slots of a tier are no more than the slots of the tier. -/
theorem countCorrect_le {entryId : ℕ}
    (hcomplete : CompleteSlip (slotDefs db contestId) (slipOf db entryId))
    (tier : DifficultyTier) : countCorrect (picksOf db contestId entryId)
      (fun slot => slot.tier = tier) ≤ slotDistribution tier := by
  have htier : ∀ r ∈ picksOf db contestId entryId, r.2.tier = marketTier r.1.marketType := by
    intro r hr
    obtain ⟨hmem, hentry, hslot, _, _⟩ := mem_picksOf.1 hr
    obtain ⟨s, hs, hid, hsuit, _⟩ := hcomplete.suits ⟨r.1.slotId, r.1.marketType, r.1.selection⟩
      (List.mem_map_of_mem ((db.predictions.mem_findMany _ r.1).2 ⟨hmem, hentry⟩))
    obtain ⟨slot, hfind, hslottier⟩ := mem_slotDefs hs
    rw [hid, hslot, Option.some.injEq] at hfind
    rw [hfind, hslottier, ← hsuit]
  have hcount : ((slipOf db entryId).map (fun p => marketTier p.marketType)).count tier =
      slotDistribution tier := by
    rw [(hcomplete.tiers_perm (nodup_slotDefs db contestId)).count_eq]
    exact hcomplete.balanced.count_tiers tier
  rw [← hcount, countCorrect, ← List.countP_eq_length_filter, slipOf, List.map_map,
    List.count_eq_countP, List.countP_map]
  calc (picksOf db contestId entryId).countP _
      ≤ (picksOf db contestId entryId).countP (fun r => marketTier r.1.marketType = tier) := by
        apply List.countP_mono_left
        intro r hr hq
        rw [← htier r hr]
        simpa using (of_decide_eq_true hq).2
    _ = ((picksOf db contestId entryId).map Prod.fst).countP
        (fun p => marketTier p.marketType = tier) := by
        rw [List.countP_map]
        rfl
    _ ≤ _ := (picksOf_sublist db contestId entryId).countP_le

/-- In a tallied contest an entry with a complete slip is within the maximum. -/
theorem Tallied.withinMax (hI : Tallied contestId rules db) {e : Entry} (he : e ∈ db.entries.rows)
    (hid : e.contestId = contestId)
    (hcomplete : CompleteSlip (slotDefs db contestId) (slipOf db e.id)) : WithinMax rules e := by
  have hs := hI.summed e he hid
  have hsub := picksOf_sublist db contestId e.id
  constructor
  · have hpoints : ∀ r ∈ picksOf db contestId e.id,
        r.1.pointsX10 ≤ bestPoints rules (marketTier r.1.marketType) := by
      intro r hr
      obtain ⟨hmem, hentry, _, hscored, _⟩ := mem_picksOf.1 hr
      have hbelongs := belongsTo_of_entryId he hid hentry
      exact (hI.bounded r.1 hmem hbelongs hscored).trans (worth_le_best rules _)
    calc e.totalPointsX10 = ((picksOf db contestId e.id).map (·.1.pointsX10)).sum := hs.total
      _ ≤ ((picksOf db contestId e.id).map
          (fun r => bestPoints rules (marketTier r.1.marketType))).sum := List.sum_le_sum hpoints
      _ = (((picksOf db contestId e.id).map Prod.fst).map
          (fun p => bestPoints rules (marketTier p.marketType))).sum := by
          rw [List.map_map]
          rfl
      _ ≤ ((db.predictions.findMany (fun p => p.entryId = e.id)).map
          (fun p => bestPoints rules (marketTier p.marketType))).sum :=
          (hsub.map _).sum_le_sum (fun n _ => Nat.zero_le n)
      _ = maxSlipScore rules := by
          rw [← sum_bestPoints (nodup_slotDefs db contestId) hcomplete, slipOf, List.map_map]
          rfl
  · have hten : (db.predictions.findMany (fun p => p.entryId = e.id)).length = 10 := by
      have hlen := hcomplete.length
      rwa [slipOf, List.length_map] at hlen
    have hle := hsub.length_le
    rw [List.length_map, hten] at hle
    rw [hs.correct]
    exact (List.length_filter_le _ _).trans hle
  · rw [hs.expert]
    exact countCorrect_le hcomplete .expert
  · rw [hs.hard]
    exact countCorrect_le hcomplete .hard

end Invariant

section Attained

/-- Ten slots in the tier distribution, each on a fixture. -/
structure BalancedLayout where
  slots : List SlotDefinition
  fixtureOf : ℕ → ℕ
  nodup_ids : (slots.map (·.slotId)).Nodup
  balanced : Balanced slots

/-- What the schema of a result accepts. -/
def acceptsResult (r : Results.FinalizeResultRequest) : Prop :=
  (r.homeGoals ≤ 99 ∧ r.awayGoals ≤ 99 ∧ r.htHomeGoals ≤ 99 ∧ r.htAwayGoals ≤ 99) ∧
    FootballData.Refined r

/-- The result as the scorers see it once it is finalized. -/
def finalOf (r : Results.FinalizeResultRequest) : FinalResult :=
  ⟨r.homeGoals, r.awayGoals, r.htHomeGoals, r.htAwayGoals, r.firstToScore⟩

theorem finalResult_finalized (now : DateTime) (r : Results.FinalizeResultRequest) (f : Fixture) :
    finalResult (Results.finalized now r f) = finalOf r := rfl

def goallessRequest : Results.FinalizeResultRequest := ⟨0, 0, 0, 0, .none⟩

theorem acceptsResult_goallessRequest : acceptsResult goallessRequest :=
  ⟨by decide, by decide, by decide⟩

/-- The contest has the layout, its fixtures have the results and the entry has the slip. -/
structure Plays (layout : BalancedLayout) (results : ℕ → Results.FinalizeResultRequest)
    (slip : List SlipPrediction) (contestId entryId : ℕ) (db : Db) : Prop where
  slots : slotDefs db contestId = layout.slots
  fixtures : ∀ slot ∈ Entries.slotsOf db contestId, ∃ cm,
    db.contestMatches.find slot.contestMatchId = some cm ∧ cm.fixtureId = layout.fixtureOf slot.id
  results : ∀ slot ∈ Entries.slotsOf db contestId, ∃ now f,
    db.fixtures.find (layout.fixtureOf slot.id) =
      some (Results.finalized now (results (layout.fixtureOf slot.id)) f)
  slip : slipOf db entryId = slip

variable {layout : BalancedLayout} {results : ℕ → Results.FinalizeResultRequest}
  {slip : List SlipPrediction} {contestId entryId : ℕ} {rules : List MarketRule} {db db' : Db}

theorem Plays.resultOf_eq (h : Plays layout results slip contestId entryId db) {p : Prediction}
    {slot : ContestSlot} (hslot : db.contestSlots.find p.slotId = some slot)
    (hcontest : slot.contestId = contestId) :
    resultOf db p = some (finalOf (results (layout.fixtureOf p.slotId))) := by
  obtain ⟨hmem, hid⟩ := (db.contestSlots.find_eq_some_iff p.slotId slot).1 hslot
  have hin : slot ∈ Entries.slotsOf db contestId :=
    (db.contestSlots.mem_findMany _ slot).2 ⟨hmem, hcontest⟩
  obtain ⟨cm, hcm, hfixture⟩ := h.fixtures slot hin
  obtain ⟨now, f, hf⟩ := h.results slot hin
  rw [show slot.id = p.slotId from hid] at hfixture hf
  simp only [resultOf, hslot, hcm, hfixture, hf, Option.bind_eq_bind, Option.bind_some,
    Option.pure_def, finalResult_finalized]

/-- Correctly scored, the entry has what its slip scores by the results. -/
theorem Plays.total_eq (h : Plays layout results slip contestId entryId db)
    (hprogress : Progress db db') (hpinned : Pinned db' contestId) {e : Entry}
    (he : e ∈ db'.entries.rows) (hid : e.contestId = contestId) (hentry : e.id = entryId)
    (hcorrect : ∀ p ∈ db'.predictions.rows, BelongsTo db' contestId p → Correct db rules p)
    (hsums : OwnSums db' e) :
    e.totalPointsX10 = slipScore rules (fun id => finalOf (results (layout.fixtureOf id))) slip := by
  rw [hsums.total, hentry, ← h.slip, ← slipOf_of_progress hprogress, slipScore, slipPicks, slipOf,
    List.map_map, List.map_map]
  congr 1
  apply List.map_congr_left
  intro p hp
  obtain ⟨hmem, hown⟩ := (db'.predictions.mem_findMany _ p).1 hp
  have hbelongs := belongsTo_of_entryId he hid (hown.trans hentry.symm)
  obtain ⟨slot, _, hslot, hcontest, _⟩ := hpinned.slots p hmem hbelongs
  rw [hprogress.slots] at hslot
  obtain ⟨result, hresult, _, hpoints⟩ := hcorrect p hmem hbelongs
  rw [h.resultOf_eq hslot hcontest, Option.some.injEq] at hresult
  rw [hpoints, ← hresult]
  rfl

/-- However results and scoring jobs interleave, an entry with a validated slip is within
the advertised maximum; and for every balanced layout a validated slip and results exist
that the entry reaches the maximum with. -/
theorem maxSlipScore_tight {name : String} {body : CreateRuleSetBody}
    (h : acceptsRuleSet name body) (drawHash : ℕ → ℕ → String) :
    (∀ db contestId as, Untouched contestId body.rules db →
      (protocol drawHash).Along ResultStep ⟨db, []⟩ as →
      ∀ e ∈ ((protocol drawHash).run ⟨db, []⟩ as).shared.entries.rows, e.contestId = contestId →
        validateSlip (slotDefs db contestId) (slipOf db e.id) = [] → WithinMax body.rules e) ∧
    ∀ layout : BalancedLayout, ∃ slip, ∃ results : ℕ → Results.FinalizeResultRequest,
      validateSlip layout.slots slip = [] ∧ (∀ f, acceptsResult (results f)) ∧
      slipScore body.rules (fun id => finalOf (results (layout.fixtureOf id))) slip =
        maxSlipScore body.rules ∧
      ∀ db contestId entryId as, Unscored contestId body.rules db →
        Plays layout results slip contestId entryId db →
        (protocol drawHash).Along ScoringStep ⟨db, []⟩ as →
        (∀ m ∈ db.contestMatches.rows, m.contestId = contestId →
          .start (.resultFinalized m.fixtureId) ∈ as) →
        ((protocol drawHash).run ⟨db, []⟩ as).pending = [] →
        ∀ e ∈ ((protocol drawHash).run ⟨db, []⟩ as).shared.entries.rows, e.contestId = contestId →
          e.id = entryId → e.totalPointsX10 = maxSlipScore body.rules := by
  constructor
  · intro db contestId as hstart hA e he hid hvalid
    have hI := ((inductive_tallied drawHash contestId body.rules).run
      (⟨hstart.tallied, by simp⟩ : Protocol.Holds _ _ (⟨db, []⟩ : Config Db Task)) hA).1
    have hprogress := progress_run hA
    apply hI.withinMax he hid
    rw [slotDefs_of_progress hprogress, slipOf_of_progress hprogress]
    exact (validateSlip_eq_nil_iff (nodup_slotDefs db contestId)).1 hvalid
  · intro layout
    obtain ⟨slip, hvalid, hscore⟩ := slipScore_attained h layout.balanced layout.nodup_ids
    refine ⟨slip, fun _ => goallessRequest, hvalid, fun _ => acceptsResult_goallessRequest,
      hscore, ?_⟩
    intro db contestId entryId as hstart hplays hA hall hquiet e he hid hentry
    obtain ⟨hI, hscored⟩ := scored_of_deliveries hstart hA hall hquiet
    have hprogress := progress_run (hA.mono _ (fun _ _ _ hG => hG.result))
    rw [hplays.total_eq hprogress hI.pinned he hid hentry
      (fun p hp hbelongs => hI.correct p hp hbelongs (hscored p hp hbelongs))
      (hI.ownSums hscored he hid)]
    exact hscore

end Attained

section Sample

def seasonRules : CreateRuleSetBody where
  rules := [⟨.matchWinner, 50⟩, ⟨.doubleChance, 30⟩, ⟨.overUnder25, 100⟩, ⟨.btts, 100⟩,
    ⟨.firstHalfWinner, 110⟩, ⟨.firstTeamToScore, 90⟩, ⟨.winningMargin, 160⟩, ⟨.cleanSheet, 150⟩,
    ⟨.exactGoals, 155⟩, ⟨.correctScore, 325⟩]
  activate := true

/-- The dearest pick of each tier that a goalless match makes right. -/
def drawnPick (slotId : ℕ) : DifficultyTier → SlipPrediction
  | .easy => ⟨slotId, .matchWinner, "DRAW"⟩
  | .medium => ⟨slotId, .firstHalfWinner, "DRAW"⟩
  | .hard => ⟨slotId, .winningMargin, "DRAW"⟩
  | .expert => ⟨slotId, .correctScore, "0-0"⟩

def drawnSlip : Entries.SubmitSlipRequest :=
  { sampleSlip 1 "9a0e" with predictions := (slotsOf 1).map (fun s => drawnPick s.id s.tier) }

/-- Two slips in a contest under a full rule set, whose fixtures all end goalless. -/
def goalless : List (Act Call Tick) :=
  [.start (.submitSlip 7 drawnSlip), .start (.submitSlip 8 (sampleSlip 1 "77c2")),
    .resume 0 ⟨10, false, false⟩, .resume 1 ⟨10, false, false⟩, .resume 1 ⟨11, false, false⟩,
    .resume 0 ⟨11, false, false⟩, .start (.lock 1), .resume 0 ⟨100, false, false⟩] ++
  (List.range 5).flatMap (fun i =>
    [.start (.finalize (i + 1) goallessRequest), .resume 0 atNoon, .resume 0 atNoon])

def seasonDb : Db :=
  ((protocol (fun _ _ => "")).run ⟨{ openDb with
    ruleSets := openDb.ruleSets.update 1 (fun r => { r with marketRules := seasonRules.rules })
      (fun _ => rfl) }, []⟩ goalless).shared

theorem untouched_seasonDb : Untouched 1 seasonRules.rules seasonDb where
  rules_eq := by decide +kernel
  pinned := by
    refine ⟨by decide +kernel, ?_⟩
    have h : ∀ p ∈ seasonDb.predictions.rows, ∃ slot ∈ seasonDb.contestSlots.find p.slotId,
        slot.contestId = 1 ∧ ∃ m ∈ seasonDb.contestMatches.rows, m.id = slot.contestMatchId ∧
          m.contestId = 1 := by decide +kernel
    intro p hp _
    obtain ⟨slot, hslot, hcontest, m, hm, hid, hm1⟩ := h p hp
    exact ⟨slot, m, hslot, hcontest, hm, hid, hm1⟩
  predictions := by
    have h : ∀ p ∈ seasonDb.predictions.rows, p.scoredAt = none := by decide +kernel
    exact fun p hp _ => h p hp
  entries := by decide +kernel

/-- The slots of the contest on its fixtures. -/
def seasonLayout : BalancedLayout where
  slots := slotDefs seasonDb 1
  fixtureOf id := (id - 10) % 5 + 1
  nodup_ids := by decide +kernel
  balanced := (validateSlotConfiguration_eq_nil_iff _).1 (by decide +kernel)

/-- The drawn slip has the maximum, which some slip has over the layout by the theorem too. -/
theorem maxSlipScore_tight_season :
    maxSlipScore seasonRules.rules = 1560 ∧
      ((protocol (fun _ _ => "")).run ⟨seasonDb, []⟩ fiveJobs).shared.entries.rows.map
        (·.totalPointsX10) = [0, 1560] ∧
      (∀ e ∈ ((protocol (fun _ _ => "")).run ⟨seasonDb, []⟩ fiveJobs).shared.entries.rows,
        WithinMax seasonRules.rules e) ∧
      ∃ slip, ∃ results : ℕ → Results.FinalizeResultRequest,
        validateSlip seasonLayout.slots slip = [] ∧ (∀ f, acceptsResult (results f)) ∧
          slipScore seasonRules.rules
            (fun id => finalOf (results (seasonLayout.fixtureOf id))) slip = 1560 := by
  have haccepts : acceptsRuleSet "Season one" seasonRules := by decide
  have hmax : maxSlipScore seasonRules.rules = 1560 := by decide
  obtain ⟨hwithin, hattained⟩ := maxSlipScore_tight haccepts (fun _ _ => "")
  refine ⟨hmax, by decide +kernel, fun e he => ?_, ?_⟩
  · have hall : ∀ e ∈ ((protocol (fun _ _ => "")).run ⟨seasonDb, []⟩ fiveJobs).shared.entries.rows,
        e.contestId = 1 ∧ validateSlip (slotDefs seasonDb 1) (slipOf seasonDb e.id) = [] := by
      decide +kernel
    exact hwithin seasonDb 1 fiveJobs untouched_seasonDb (by decide +kernel) e he (hall e he).1
      (hall e he).2
  · obtain ⟨slip, results, hvalid, haccepted, hscore, _⟩ := hattained seasonLayout
    exact ⟨slip, results, hvalid, haccepted, hscore.trans hmax⟩

end Sample

end ScoreBounds
end FootballIQ
