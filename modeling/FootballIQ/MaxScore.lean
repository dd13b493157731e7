import FootballIQ.MarketPartition
import FootballIQ.Settings
import FootballIQ.SlipChecks

/-!
# The best score of a slip

The settings advertise for each rule set the best market of every tier times the slots of
the tier. A complete slip has exactly these tiers, so no slip scores more; and since every
market has a correct selection for a goalless match, one slip scores as much.
-/

namespace FootballIQ
namespace Settings

open SlipValidator Scoring

section RuleSets

def allMarkets : List MarketType :=
  [.matchWinner, .doubleChance, .overUnder25, .btts, .firstHalfWinner, .firstTeamToScore,
    .winningMargin, .cleanSheet, .exactGoals, .correctScore]

/-- The length that the schema counts: a character beyond 16 bits takes two units. -/
def jsLength (s : String) : ℕ := (s.toList.map (fun c => if c.toNat < 65536 then 1 else 2)).sum

/-- What the schema of the body accepts, with the name that only the panel shows. -/
def acceptsRuleSet (name : String) (body : CreateRuleSetBody) : Prop :=
  (3 ≤ jsLength name ∧ jsLength name ≤ 80) ∧
    (∀ r ∈ body.rules, 1 ≤ r.pointsX10 ∧ r.pointsX10 ≤ 10000) ∧
    body.rules.length = allMarkets.length ∧
    (body.rules.map (·.marketType)).dedup.length = allMarkets.length

instance (name : String) (body : CreateRuleSetBody) : Decidable (acceptsRuleSet name body) :=
  inferInstanceAs (Decidable (_ ∧ _))

/-- The points of the best market of the tier. -/
def bestPoints (rules : List MarketRule) (tier : DifficultyTier) : ℕ :=
  (0 :: (rules.filter (fun r => marketTier r.marketType = tier)).map (·.pointsX10)).max
    (List.cons_ne_nil _ _)

def maxSlipScore (rules : List MarketRule) : ℕ :=
  allTiers.foldl (fun total tier => total + bestPoints rules tier * slotDistribution tier) 0

/-- What a correct selection of the market is worth. -/
def worth (rules : List MarketRule) (market : MarketType) : ℕ :=
  (pointsByMarket rules market).getD 0

variable {rules : List MarketRule}

theorem worth_le_best (rules : List MarketRule) (market : MarketType) :
    worth rules market ≤ bestPoints rules (marketTier market) := by
  unfold worth pointsByMarket
  cases hfind : rules.reverse.find? (fun r => r.marketType = market) with
  | none => exact Nat.zero_le _
  | some r =>
    have hmarket : r.marketType = market := by
      have hr := List.find?_some hfind
      exact of_decide_eq_true hr
    have hmem := List.mem_reverse.1 (List.mem_of_find?_eq_some hfind)
    apply List.le_max_of_mem
    apply List.mem_cons_of_mem
    apply List.mem_map_of_mem
    exact List.mem_filter.2 ⟨hmem, decide_eq_true (congrArg marketTier hmarket)⟩

theorem mem_allMarkets (market : MarketType) : market ∈ allMarkets := by
  cases market <;> decide

/-- Ten rules for ten markets: each market has its own. -/
theorem acceptsRuleSet.nodup {name : String} {body : CreateRuleSetBody}
    (h : acceptsRuleSet name body) : (body.rules.map (·.marketType)).Nodup ∧
      ∀ market, ∃ r ∈ body.rules, r.marketType = market := by
  obtain ⟨_, _, hlen, hdistinct⟩ := h
  have hdedup : (body.rules.map (·.marketType)).dedup = body.rules.map (·.marketType) := by
    apply (List.dedup_sublist _).eq_of_length
    rw [hdistinct, List.length_map, hlen]
  have hnodup := List.dedup_eq_self.1 hdedup
  refine ⟨hnodup, fun market => ?_⟩
  have hsub := List.subperm_of_subset hnodup (fun m _ => mem_allMarkets m)
  have hperm := hsub.perm_of_length_le (by rw [List.length_map, hlen])
  have hmem := hperm.mem_iff.2 (mem_allMarkets market)
  obtain ⟨r, hr, hmarket⟩ := List.mem_map.1 hmem
  exact ⟨r, hr, hmarket⟩

theorem worth_of_mem (hnd : (rules.map (·.marketType)).Nodup) {r : MarketRule} (hr : r ∈ rules) :
    worth rules r.marketType = r.pointsX10 := by
  unfold worth pointsByMarket
  rw [Relational.find?_reverse_of_nodup hnd hr]
  rfl

/-- Some market of every tier is worth the best of its tier. -/
theorem exists_best {name : String} {body : CreateRuleSetBody} (h : acceptsRuleSet name body)
    (tier : DifficultyTier) :
    ∃ market, marketTier market = tier ∧ worth body.rules market = bestPoints body.rules tier := by
  obtain ⟨hnodup, hall⟩ := h.nodup
  have hbest : bestPoints body.rules tier ∈
      0 :: (body.rules.filter (fun r => marketTier r.marketType = tier)).map (·.pointsX10) :=
    List.max_mem _
  rcases List.mem_cons.1 hbest with hzero | hmem
  · obtain ⟨market, hmarket⟩ : ∃ market, marketTier market = tier := by
      cases tier with
      | easy => exact ⟨.matchWinner, rfl⟩
      | medium => exact ⟨.btts, rfl⟩
      | hard => exact ⟨.cleanSheet, rfl⟩
      | expert => exact ⟨.correctScore, rfl⟩
    have hle := worth_le_best body.rules market
    rw [hmarket] at hle
    exact ⟨market, hmarket, by omega⟩
  · obtain ⟨r, hr, hpoints⟩ := List.mem_map.1 hmem
    obtain ⟨hr, htier⟩ := List.mem_filter.1 hr
    exact ⟨r.marketType, of_decide_eq_true htier, (worth_of_mem hnodup hr).trans hpoints⟩

end RuleSets

section Tiers
variable {rules : List MarketRule} {slots : List SlotDefinition} {slip : List SlipPrediction}

/-- A sum over tiers, tier by tier. -/
theorem sum_by_tier (tiers : List DifficultyTier) (g : DifficultyTier → ℕ) :
    (tiers.map g).sum = allTiers.foldl (fun total tier => total + g tier * tiers.count tier) 0 := by
  induction tiers with
  | nil => simp [allTiers]
  | cons tier tiers ih =>
    rw [List.map_cons, List.sum_cons, ih]
    cases tier <;> simp [allTiers, List.count_cons] <;> ring

theorem maxSlipScore_eq (hb : Balanced slots) :
    maxSlipScore rules = ((slots.map (·.tier)).map (bestPoints rules)).sum := by
  rw [sum_by_tier]
  simp only [hb.count_tiers]
  rfl

/-- The best points of the tiers of a complete slip add up to the advertised maximum. -/
theorem sum_bestPoints (hnd : (slots.map (·.slotId)).Nodup) (h : CompleteSlip slots slip) :
    (slip.map (fun p => bestPoints rules (marketTier p.marketType))).sum = maxSlipScore rules := by
  have hperm := (h.tiers_perm hnd).map (bestPoints rules)
  rw [List.map_map] at hperm
  rw [maxSlipScore_eq h.balanced, ← hperm.sum_eq]
  rfl

end Tiers

section Slips
variable {rules : List MarketRule} {slots : List SlotDefinition}

/-- What the predictions of a slip score by the results of their slots. -/
def slipPicks (rules : List MarketRule) (result : ℕ → FinalResult) (slip : List SlipPrediction) :
    List ScoredPick :=
  slip.map (fun p => scorePrediction p.marketType p.selection (result p.slotId)
    (worth rules p.marketType))

def slipScore (rules : List MarketRule) (result : ℕ → FinalResult) (slip : List SlipPrediction) :
    ℕ := ((slipPicks rules result slip).map (·.pointsX10)).sum

/-- A match without goals. -/
def goalless : FinalResult := ⟨0, 0, 0, 0, .none⟩

/-- What a match without goals makes right. -/
def goallessSelection : MarketType → String
  | .matchWinner | .firstHalfWinner | .winningMargin => "DRAW"
  | .doubleChance => "HOME_OR_DRAW"
  | .overUnder25 => "UNDER"
  | .btts => "NO"
  | .firstTeamToScore => "NO_GOAL"
  | .cleanSheet => "BOTH"
  | .exactGoals => "0"
  | .correctScore => "0-0"

theorem goallessSelection_correct (market : MarketType) :
    isValidSelection market (goallessSelection market) = true ∧
      marketScorers market (goallessSelection market) goalless = true := by
  cases market <;> decide

/-- A pick of the market of the slot's tier that is right in a match without goals. -/
def goallessPick (market : DifficultyTier → MarketType) (slot : SlotDefinition) : SlipPrediction :=
  ⟨slot.slotId, market slot.tier, goallessSelection (market slot.tier)⟩

/-- Over every balanced layout some complete slip scores the advertised maximum on goalless
matches. -/
theorem slipScore_attained {name : String} {body : CreateRuleSetBody}
    (h : acceptsRuleSet name body) (hb : Balanced slots) (hnd : (slots.map (·.slotId)).Nodup) :
    ∃ slip, validateSlip slots slip = [] ∧
      slipScore body.rules (fun _ => goalless) slip = maxSlipScore body.rules := by
  choose market htier hworth using exists_best h
  refine ⟨slots.map (goallessPick market), ?_, ?_⟩
  · apply (validateSlip_eq_nil_iff hnd).2
    refine ⟨hb, ?_, ?_, fun p hp => ?_⟩
    · rw [List.length_map, hb.length]
    · rw [List.map_map]
      exact List.Perm.refl _
    · obtain ⟨slot, hslot, rfl⟩ := List.mem_map.1 hp
      exact ⟨slot, hslot, rfl, htier slot.tier, (goallessSelection_correct _).1⟩
  · rw [maxSlipScore_eq hb, slipScore, slipPicks, List.map_map, List.map_map, List.map_map]
    congr 1
    apply List.map_congr_left
    intro slot _
    simp only [Function.comp_apply, goallessPick, scorePrediction, (goallessSelection_correct _).2, if_true,
      hworth]

end Slips

end Settings
end FootballIQ
