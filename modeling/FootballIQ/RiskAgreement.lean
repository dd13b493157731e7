import FootballIQ.PredictionBuilder

/-!
# The rule sets that the builder can show

A rule set that prices every market at its default leaves the meter of every slip. Any other rule
set moves the meter of some slip: if a swap of two markets of one tier does not move the total,
then one of four ratings of a fixed slip puts the default percentage on a half, and the prices
push it below.
-/

namespace FootballIQ
namespace PredictionBuilder

open Transaction Relational Contests Entries PrizePool Leaderboard SlipValidator RiskMeter
open Settings (worth acceptsRuleSet CreateRuleSetBody)

section World

/-- A contest with one match for each tier. -/
def tierMatch : DifficultyTier → ℕ
  | .easy => 1
  | .medium => 2
  | .hard => 3
  | .expert => 4

def tierMatches : Table ContestMatch :=
  ⟨allTiers.map (fun tier => ⟨tierMatch tier, 1, tierMatch tier, tierMatch tier⟩), by decide⟩

def tierSlots : Table ContestSlot :=
  ⟨tenSlots.map (fun s => ⟨s.slotId, 1, tierMatch s.tier, s.slotId, s.tier⟩), by decide⟩

theorem nodup_tierStars (stars : DifficultyTier → ℤ) : ((allTiers.map
    (fun tier => (⟨tierMatch tier, stars tier, none⟩ : FixtureDifficulty))).map Row.id).Nodup := by
  have htiers : (allTiers.map tierMatch).Nodup := by decide
  rwa [List.map_map]

def tierStars (stars : DifficultyTier → ℤ) : Table FixtureDifficulty :=
  ⟨allTiers.map (fun tier => ⟨tierMatch tier, stars tier, none⟩), nodup_tierStars stars⟩

def onlyRules (rules : List MarketRule) : Table RuleSet :=
  ⟨[⟨1, true, rules⟩], List.nodup_singleton _⟩

/-- The contest is open under the rules, and its fixtures have the stars of their tiers. -/
def ratedDb (rules : List MarketRule) (stars : DifficultyTier → ℤ) : Db :=
  { Platform.openDb with
    contestMatches := tierMatches
    contestSlots := tierSlots
    fixtureDifficulties := tierStars stars
    ruleSets := onlyRules rules }

def anyDirectory : Directory := ⟨fun id => "matchday-" ++ toString id, fun _ => ⟨"ada", none⟩⟩

/-- The choices that hold a slip. -/
def choicesOf (slip : List SlipPrediction) (slotId : ℕ) : SlotChoice :=
  match slip.find? (fun p => p.slotId = slotId) with
  | some p => ⟨p.marketType, some p.selection⟩
  | none => ⟨.matchWinner, none⟩

variable (rules : List MarketRule) (stars : DifficultyTier → ℤ) {slip : List SlipPrediction}

theorem slotsPlaced_ratedDb : SlotsPlaced (ratedDb rules stars) := by
  have hplaced : ∀ s ∈ tierSlots.rows, ∃ m ∈ tierMatches.rows,
      m.id = s.contestMatchId ∧ m.contestId = s.contestId := by decide
  exact hplaced

theorem choicesOf_holds (hnd : (slip.map (·.slotId)).Nodup) {p : SlipPrediction} (hp : p ∈ slip) :
    choicesOf slip p.slotId = ⟨p.marketType, some p.selection⟩ := by
  unfold choicesOf
  rw [find?_of_nodup hnd hp]

/-- The slot of a tier is on the fixture of the tier. -/
theorem starsOf_ratedDb {s : SlotDefinition} (hs : s ∈ tenSlots) :
    starsOf (ratedDb rules stars) 1 s.slotId = stars s.tier := by
  simp only [tenSlots, List.mem_cons, List.not_mem_nil, or_false] at hs
  rcases hs with rfl | rfl | rfl | rfl | rfl | rfl | rfl | rfl | rfl | rfl <;> rfl

/-- The wallet of user 7 pays the fee of contest 1 whatever the slip and its risk. -/
theorem submitSlip_ratedDb (hvalid : validateSlip tenSlots slip = []) :
    ∃ res db', LockTime.submitSlip 10 7 ⟨1, slip, "9a0e"⟩ (ratedDb rules stars) =
      .ok (res, db') := by
  let risk := computeRiskMeter (slip.filterMap
    (Entries.riskInput (ratedDb rules stars) (Platform.openContest 1)))
  let prepared : PreparedSlip := ⟨7, ⟨1, slip, "9a0e"⟩, Platform.openContest 1, risk⟩
  have hread : submitRead 10 7 ⟨1, slip, "9a0e"⟩ (ratedDb rules stars) =
      .ok (prepared, ratedDb rules stars) := by
    simp only [submitRead, bind_ok_iff, get_ok_iff, orThrow_ok_iff, throwIf_ok_iff, pure_ok_iff]
    refine ⟨_, _, ⟨rfl, rfl⟩, Platform.openContest 1, _, ⟨rfl, rfl⟩, ⟨⟩, _, ⟨by decide, rfl⟩, ⟨⟩, _,
      ⟨by simp [Platform.openContest], rfl⟩, ⟨⟩, _, ⟨?_, rfl⟩, rfl, rfl⟩
    rw [not_not]
    exact hvalid
  let wallet : LedgerAccount := ⟨2, .userAvailable, some 7, none, "NGN", 5000⟩
  let escrow : LedgerAccount := ⟨4, .contestEscrow, none, some 1, "NGN", 0⟩
  have hlines : (feeInput prepared wallet escrow).lines =
      [⟨wallet.id, -1000⟩, ⟨escrow.id, 1000⟩] := rfl
  have hwallet : wallet ∈ Platform.openDb.ledger.accounts.rows := by decide
  have hescrow : escrow ∈ Platform.openDb.ledger.accounts.rows := by decide
  obtain ⟨⟨journalId, l⟩, hpost⟩ := (Ledger.post_transfer_ok_iff hlines (by decide) hwallet hescrow
    (by decide) (by decide) rfl).2 (by decide)
  refine ⟨⟨(ratedDb rules stars).entries.fresh, 1, 10, risk, slip⟩,
    entered (ratedDb rules stars) 10 prepared journalId l, ?_⟩
  rw [LockTime.submitSlip, bind_ok_iff]
  refine ⟨prepared, ratedDb rules stars, hread, ?_⟩
  rw [submitTx_ok_iff]
  have hnew : ¬ hasEntered (ratedDb rules stars) 1 7 := by
    rintro ⟨e, he, _⟩
    cases he
  exact ⟨wallet, escrow, journalId, l, rfl, rfl, hpost, hnew, rfl, rfl⟩

/-- Every complete slip is submitted under the rules and the stars. -/
theorem exists_submission (hvalid : validateSlip tenSlots slip = []) :
    ∃ S : Submission rules,
      S.rated = slip.map (fun p => (p.marketType, stars (marketTier p.marketType))) := by
  have hcomplete := (validateSlip_eq_nil_iff (by decide)).1 hvalid
  have hnd : (slip.map (·.slotId)).Nodup := hcomplete.slots_perm.nodup_iff.2 (by decide)
  obtain ⟨result, db', haccepted⟩ := submitSlip_ratedDb rules stars hvalid
  have hopen : findBySlug anyDirectory Platform.openDb "matchday-1" =
      some (Platform.openContest 1) := by decide
  have hslug : findBySlug anyDirectory (ratedDb rules stars) "matchday-1" =
      some (Platform.openContest 1) := hopen
  obtain ⟨page, hpage, hitem⟩ := getBySlug_shows anyDirectory hslug (by decide)
  have hsame : page.item.id = 1 := by rw [hitem]; rfl
  refine ⟨{
    directory := anyDirectory
    db := ratedDb rules stars
    slug := "matchday-1"
    page := page
    choices := choicesOf slip
    now := 10
    userId := 7
    dto := ⟨1, slip, "9a0e"⟩
    result := result
    db' := db'
    placed := slotsPlaced_ratedDb rules stars
    ruled := fun c hc => ?_
    shown := hpage
    same := hsame
    accepted := haccepted
    holds := fun p hp => choicesOf_holds hnd hp }, ?_⟩
  · have hc' : (ratedDb rules stars).contests.find 1 = some (Platform.openContest 1) := rfl
    rw [hc', Option.some.injEq] at hc
    rw [← hc]
    exact ⟨⟨1, true, rules⟩, rfl, rfl⟩
  · apply List.map_congr_left
    intro p hp
    obtain ⟨s, hs, hid, htier, _⟩ := hcomplete.suits p hp
    rw [htier, ← hid, starsOf_ratedDb rules stars hs]

end World

section Slips

def anySelection : MarketType → String
  | .matchWinner | .cleanSheet | .firstHalfWinner | .firstTeamToScore => "HOME"
  | .doubleChance => "HOME_OR_DRAW"
  | .overUnder25 => "OVER"
  | .btts => "YES"
  | .winningMargin => "HOME_BY_1"
  | .exactGoals => "2"
  | .correctScore => "2-1"

/-- The slip with the given market on each slot. -/
def slipOf (market : SlotDefinition → MarketType) : List SlipPrediction :=
  tenSlots.map (fun s => ⟨s.slotId, market s, anySelection (market s)⟩)

theorem validateSlip_slipOf {market : SlotDefinition → MarketType}
    (h : ∀ s ∈ tenSlots, marketTier (market s) = s.tier) :
    validateSlip tenSlots (slipOf market) = [] := by
  apply (validateSlip_eq_nil_iff (by decide)).2
  refine ⟨⟨rfl, fun tier => ?_⟩, rfl, ?_, fun p hp => ?_⟩
  · cases tier <;> rfl
  · rw [slipOf, List.map_map]
    exact List.Perm.refl _
  · obtain ⟨s, hs, rfl⟩ := List.mem_map.1 hp
    have hvalid : isValidSelection (market s) (anySelection (market s)) = true := by
      cases market s <;> decide
    exact ⟨s, hs, rfl, h s hs, hvalid⟩

/-- If all submissions agree, the prices do not tell on any slip. -/
theorem unmoved_of_agrees {rules : List MarketRule} (hcovers : ∀ m, (pointsByMarket rules m).isSome)
    (h : ∀ S : Submission rules, S.Agrees) (stars : DifficultyTier → ℤ)
    {market : SlotDefinition → MarketType}
    (hmarket : ∀ s ∈ tenSlots, marketTier (market s) = s.tier)
    (rated : List Rated) (hrated : rated = tenSlots.map (fun s => (market s, stars s.tier))) :
    total (worth rules) rated = total defaultMarketPointsX10 rated ∧
      percent (worth rules) rated = percent defaultMarketPointsX10 rated := by
  obtain ⟨S, hS⟩ := exists_submission rules stars (validateSlip_slipOf hmarket)
  have hsame : S.rated = rated := by
    rw [hS, hrated, slipOf, List.map_map]
    apply List.map_congr_left
    intro s hs
    simp only [Function.comp_apply, hmarket s hs]
  obtain ⟨htotal, hpercent⟩ := (S.agrees_iff hcovers).1 (h S)
  rw [hsame] at htotal hpercent
  exact ⟨htotal, hpercent⟩

end Slips

section Prices
variable {rules : List MarketRule}

theorem defaultMarketPointsX10_eq (m : MarketType) :
    defaultMarketPointsX10 m = defaultTierPointsX10 (marketTier m) := by
  cases m <;> rfl

/-- A market of the tier. -/
def someMarket : DifficultyTier → MarketType
  | .easy => .doubleChance
  | .medium => .btts
  | .hard => .exactGoals
  | .expert => .correctScore

theorem marketTier_someMarket (tier : DifficultyTier) : marketTier (someMarket tier) = tier := by
  cases tier <;> rfl

/-- A slip with one market for each tier has the total of the defaults. -/
theorem total_by_tier (hcovers : ∀ m, (pointsByMarket rules m).isSome)
    (h : ∀ S : Submission rules, S.Agrees) (pick : DifficultyTier → MarketType)
    (hpick : ∀ tier, marketTier (pick tier) = tier) :
    2 * worth rules (pick .easy) + 3 * worth rules (pick .medium) + 3 * worth rules (pick .hard) +
      2 * worth rules (pick .expert) = 1500 := by
  obtain ⟨htotal, _⟩ := unmoved_of_agrees hcovers h (fun _ => 3) (fun s _ => hpick s.tier) _ rfl
  simp only [total, tenSlots, List.map_cons, List.map_nil, List.sum_cons, List.sum_nil,
    defaultMarketPointsX10_eq, hpick, defaultTierPointsX10] at htotal
  omega

/-- Swapping two markets of one tier does not move the total, so they have one price. -/
theorem worth_eq_of_tier (hcovers : ∀ m, (pointsByMarket rules m).isSome)
    (h : ∀ S : Submission rules, S.Agrees) (m : MarketType) :
    worth rules m = worth rules (someMarket (marketTier m)) := by
  have hpick : ∀ tier, marketTier (Function.update someMarket (marketTier m) m tier) = tier := by
    intro tier
    by_cases htier : tier = marketTier m
    · rw [htier, Function.update_self]
    · rw [Function.update_of_ne htier, marketTier_someMarket]
  have hsome := total_by_tier hcovers h someMarket marketTier_someMarket
  have hswap := total_by_tier hcovers h _ hpick
  cases htier : marketTier m <;> rw [htier] at hswap <;> simp at hswap <;> omega

/-- The markets of the slip that tells all rule sets apart. -/
def tellingMarket (s : SlotDefinition) : MarketType :=
  match s.slotId with
  | 1 | 2 => .doubleChance
  | 3 => .btts
  | 4 | 5 => .firstHalfWinner
  | 6 | 7 => .exactGoals
  | 8 => .winningMargin
  | _ => .correctScore

def tellingSlip (stars : DifficultyTier → ℤ) : List Rated :=
  tenSlots.map (fun s => (tellingMarket s, stars s.tier))

/-- Within the scale of the stars nothing is clamped. -/
theorem slotRisk_of_mem {stars : ℤ} (h : 1 ≤ stars ∧ stars ≤ 5) (m : MarketType) :
    slotRisk m stars = marketWeight * marketBaseRisk m + fixtureWeight * ((stars - 1) / 4) := by
  have hlow : (1 : ℚ) ≤ stars := by exact_mod_cast h.1
  have hhigh : (stars : ℚ) ≤ 5 := by exact_mod_cast h.2
  unfold slotRisk
  rw [max_eq_right h.1, min_eq_right h.2]
  simp only [clamp01, marketWeight, fixtureWeight]
  rw [max_eq_right, min_eq_right]
  · cases m <;> simp only [marketBaseRisk] <;> linarith
  · cases m <;> simp only [marketBaseRisk] <;> linarith

/-- The points-weighted risk of the telling slip under four prices. -/
def blend (easy medium hard expert : ℚ) (stars : DifficultyTier → ℤ) : ℚ :=
  easy * (198 / 1000 + 225 / 1000 * (stars .easy - 1)) +
    medium * (781 / 1000 + 3375 / 10000 * (stars .medium - 1)) +
    hard * (1166 / 1000 + 3375 / 10000 * (stars .hard - 1)) +
    expert * (968 / 1000 + 225 / 1000 * (stars .expert - 1))

theorem weighted_tellingSlip (points : MarketType → ℕ)
    (htier : ∀ m, points m = points (someMarket (marketTier m))) {stars : DifficultyTier → ℤ}
    (hstars : ∀ tier, 1 ≤ stars tier ∧ stars tier ≤ 5) :
    weighted points (tellingSlip stars) = blend (points .doubleChance) (points .btts)
      (points .exactGoals) (points .correctScore) stars := by
  have hhalf : points .firstHalfWinner = points .btts := htier .firstHalfWinner
  have hmargin : points .winningMargin = points .exactGoals := htier .winningMargin
  simp only [weighted, tellingSlip, tenSlots, tellingMarket, List.map_cons, List.map_nil,
    List.sum_cons, List.sum_nil, slotRisk_of_mem (hstars _), hhalf, hmargin, marketBaseRisk,
    marketWeight, fixtureWeight, blend]
  ring

/-- Where the default percentage is on a half, the prices do not push it below. -/
theorem half_le_blend (hcovers : ∀ m, (pointsByMarket rules m).isSome)
    (h : ∀ S : Submission rules, S.Agrees) (stars : DifficultyTier → ℤ)
    (hstars : ∀ tier, 1 ≤ stars tier ∧ stars tier ≤ 5) (k : ℤ)
    (hhalf : blend 50 100 150 325 stars = 15 * k - 15 / 2) :
    15 * k - 15 / 2 ≤ blend (worth rules .doubleChance) (worth rules .btts)
      (worth rules .exactGoals) (worth rules .correctScore) stars := by
  have htelling : ∀ s ∈ tenSlots, marketTier (tellingMarket s) = s.tier := by decide
  obtain ⟨htotal, hpercent⟩ := unmoved_of_agrees hcovers h stars htelling (tellingSlip stars) rfl
  have hdefault : total defaultMarketPointsX10 (tellingSlip stars) = 1500 := by
    simp [total, tellingSlip, tenSlots, tellingMarket, defaultMarketPointsX10]
  have hworth := weighted_tellingSlip _ (worth_eq_of_tier hcovers h) hstars
  have hpoints : weighted defaultMarketPointsX10 (tellingSlip stars) = 15 * k - 15 / 2 := by
    rw [weighted_tellingSlip _ (fun m => by cases m <;> rfl) hstars, ← hhalf]
    simp [defaultMarketPointsX10]
  rw [percent, percent, htotal, hdefault, hworth, hpoints] at hpercent
  have hk : (15 * (k : ℚ) - 15 / 2) / (1500 : ℕ) * 100 + 1 / 2 = k := by
    push_cast
    ring
  rw [hk, Int.floor_intCast, Int.floor_eq_iff] at hpercent
  have hle := hpercent.1
  push_cast at hle
  linarith

def rating (easy medium hard expert : ℤ) : DifficultyTier → ℤ
  | .easy => easy
  | .medium => medium
  | .hard => hard
  | .expert => expert

/-- Four ratings of one slip, each with its default percentage on a half: together they leave no
other prices. -/
theorem worth_eq_default (hcovers : ∀ m, (pointsByMarket rules m).isSome)
    (h : ∀ S : Submission rules, S.Agrees) (m : MarketType) :
    worth rules m = defaultMarketPointsX10 m := by
  have hsum : 2 * (worth rules .doubleChance : ℚ) + 3 * worth rules .btts +
      3 * worth rules .exactGoals + 2 * worth rules .correctScore = 1500 := by
    exact_mod_cast total_by_tier hcovers h someMarket marketTier_someMarket
  have hall := half_le_blend hcovers h (rating 1 1 1 1)
    (by intro tier; cases tier <;> decide) 39 (by norm_num [blend, rating])
  have hexpert := half_le_blend hcovers h (rating 1 1 2 4)
    (by intro tier; cases tier <;> decide) 57 (by norm_num [blend, rating])
  have hhard := half_le_blend hcovers h (rating 5 2 3 1)
    (by intro tier; cases tier <;> decide) 51 (by norm_num [blend, rating])
  have hmedium := half_le_blend hcovers h (rating 5 5 1 1)
    (by intro tier; cases tier <;> decide) 51 (by norm_num [blend, rating])
  simp only [blend, rating] at hall hexpert hhard hmedium
  push_cast at hall hexpert hhard hmedium
  have heasyPrice : (worth rules .doubleChance : ℚ) = 50 := by linarith
  have hmediumPrice : (worth rules .btts : ℚ) = 100 := by linarith
  have hhardPrice : (worth rules .exactGoals : ℚ) = 150 := by linarith
  have hexpertPrice : (worth rules .correctScore : ℚ) = 325 := by linarith
  rw [worth_eq_of_tier hcovers h m, defaultMarketPointsX10_eq]
  cases marketTier m with
  | easy => exact_mod_cast heasyPrice
  | medium => exact_mod_cast hmediumPrice
  | hard => exact_mod_cast hhardPrice
  | expert => exact_mod_cast hexpertPrice

end Prices

section RuleSets

theorem covers_of_accepts {name : String} {body : CreateRuleSetBody}
    (h : acceptsRuleSet name body) (m : MarketType) : (pointsByMarket body.rules m).isSome := by
  obtain ⟨r, hr, hmarket⟩ := h.nodup.2 m
  rw [pointsByMarket, Option.isSome_map, List.find?_isSome]
  exact ⟨r, List.mem_reverse.2 hr, decide_eq_true hmarket⟩

theorem worth_eq_iff {name : String} {body : CreateRuleSetBody} (h : acceptsRuleSet name body)
    (m : MarketType) : worth body.rules m = defaultMarketPointsX10 m ↔
      pointsByMarket body.rules m = some (defaultMarketPointsX10 m) := by
  obtain ⟨points, hpoints⟩ := Option.isSome_iff_exists.1 (covers_of_accepts h m)
  rw [worth, hpoints, Option.getD_some, Option.some.injEq]

/-- Under an accepted rule set the builder shows the meter of a submission exactly when the rule
set does not tell on the slip, and that of every submission exactly when it has the default
points. -/
theorem risk_agrees_iff {name : String} {body : CreateRuleSetBody} (h : acceptsRuleSet name body) :
    (∀ S : Submission body.rules, S.Agrees ↔ S.Unmoved) ∧
      ((∀ S : Submission body.rules, S.Agrees) ↔
        ∀ m, pointsByMarket body.rules m = some (defaultMarketPointsX10 m)) := by
  have hcovers := covers_of_accepts h
  refine ⟨fun S => S.agrees_iff hcovers, fun hall m => ?_, fun hdefault S => ?_⟩
  · exact (worth_eq_iff h m).1 (worth_eq_default hcovers hall m)
  · have hworth : worth body.rules = defaultMarketPointsX10 :=
      funext (fun m => (worth_eq_iff h m).2 (hdefault m))
    rw [S.agrees_iff hcovers]
    constructor
    · rw [hworth]
    · rw [hworth]

/-- The rule set of the launch. -/
def launchRules : CreateRuleSetBody :=
  ⟨Settings.allMarkets.map (fun m => ⟨m, defaultMarketPointsX10 m⟩), true⟩

/-- Two predictions of the winner, and the cheapest of the other tiers. -/
def winnersSlip : List SlipPrediction :=
  slipOf (fun s => if s.tier = .easy then .matchWinner else someMarket s.tier)

theorem risk_agrees_iff_launch : ∃ S : Submission launchRules.rules, S.Agrees := by
  have haccepts : acceptsRuleSet "Launch" launchRules := by decide
  have hvalid : validateSlip tenSlots winnersSlip = [] := by decide
  obtain ⟨S, _⟩ := exists_submission launchRules.rules (fun _ => 3) hvalid
  have hdefault : ∀ m, pointsByMarket launchRules.rules m = some (defaultMarketPointsX10 m) := by
    intro m
    cases m <;> rfl
  exact ⟨S, (risk_agrees_iff haccepts).2.2 hdefault S⟩

/-- The launch rules, but for the winner of a match at six points. -/
def dearWinners : CreateRuleSetBody :=
  ⟨Settings.allMarkets.map
    (fun m => ⟨m, if m = .matchWinner then 60 else defaultMarketPointsX10 m⟩), true⟩

/-- The builder shows a maximum of 150 points, the submission returns 152. -/
theorem risk_disagrees : acceptsRuleSet "Dear winners" dearWinners ∧
    ∃ S : Submission dearWinners.rules, S.result.risk.maxPotentialScoreX10 = 1520 ∧
      (risk S.page S.choices).maxPotentialScoreX10 = 1500 ∧ ¬ S.Agrees := by
  have haccepts : acceptsRuleSet "Dear winners" dearWinners := by decide
  have hvalid : validateSlip tenSlots winnersSlip = [] := by decide
  obtain ⟨S, hS⟩ := exists_submission dearWinners.rules (fun _ => 3) hvalid
  have hserver : S.result.risk.maxPotentialScoreX10 = 1520 := by
    rw [S.risk_result (covers_of_accepts haccepts), computeRiskMeter_priced _ S.rated_ne_nil, hS]
    decide
  have hclient : (risk S.page S.choices).maxPotentialScoreX10 = 1500 := by
    rw [S.risk_builder, computeRiskMeter_priced _ S.rated_ne_nil, hS]
    decide
  refine ⟨haccepts, S, hserver, hclient, fun hagrees => ?_⟩
  rw [← hagrees.1, hserver] at hclient
  cases hclient

end RuleSets

end PredictionBuilder
end FootballIQ
