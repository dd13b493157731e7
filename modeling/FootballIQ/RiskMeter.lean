import FootballIQ.MaxScore

/-!
# The risk meter on rated markets

The meter is a function of the markets of a slip, the stars of their fixtures and a price list for
the markets. The order of the slots does not matter to it, and two price lists give the same meter
exactly when they give the same total and the points-weighted risk rounds to the same percentage.
-/

namespace FootballIQ
namespace RiskMeter

/-- A market on a fixture with so many stars. -/
abbrev Rated := MarketType × ℤ

/-- What the meter reads of a rated market under the price list `points`. -/
def priced (points : MarketType → ℕ) (r : Rated) : RiskSlotInput := ⟨r.1, r.2, points r.1⟩

def total (points : MarketType → ℕ) (rated : List Rated) : ℕ :=
  (rated.map (fun r => points r.1)).sum

/-- The risk of the slots, each weighted with its points. -/
def weighted (points : MarketType → ℕ) (rated : List Rated) : ℚ :=
  (rated.map (fun r => slotRisk r.1 r.2 * points r.1)).sum

/-- The nearest whole percentage, halves up. -/
def percent (points : MarketType → ℕ) (rated : List Rated) : ℤ :=
  ⌊weighted points rated / total points rated * 100 + 1 / 2⌋

/-- The meter does not see the order of the slots. -/
theorem computeRiskMeter_perm {slots slots' : List RiskSlotInput} (h : slots.Perm slots') :
    computeRiskMeter slots = computeRiskMeter slots' := by
  have htotal := (h.map (·.pointsX10)).sum_eq
  have hweighted := (h.map (fun s => slotRisk s.marketType s.stars * (s.pointsX10 : ℚ))).sum_eq
  by_cases hnil : slots = []
  · rw [hnil, List.nil_perm] at h
    rw [hnil, h]
  · have hnil' : slots' ≠ [] := fun h' => hnil (List.perm_nil.1 (h' ▸ h))
    simp only [computeRiskMeter, if_neg hnil, if_neg hnil', htotal, hweighted]

theorem computeRiskMeter_priced (points : MarketType → ℕ) {rated : List Rated}
    (hne : rated ≠ []) : computeRiskMeter (rated.map (priced points)) =
      ⟨if percent points rated ≤ safeMax then .safe
        else if percent points rated ≤ balancedMax then .balanced else .aggressive,
        percent points rated, total points rated⟩ := by
  have hne' : rated.map (priced points) ≠ [] := by simpa using hne
  unfold computeRiskMeter
  rw [if_neg hne']
  simp only [List.map_map]
  rfl

/-- Two price lists give a slip the same meter exactly when neither its total nor its rounded
percentage moves. -/
theorem computeRiskMeter_priced_eq_iff (points points' : MarketType → ℕ) {rated : List Rated}
    (hne : rated ≠ []) :
    computeRiskMeter (rated.map (priced points)) = computeRiskMeter (rated.map (priced points')) ↔
      total points rated = total points' rated ∧ percent points rated = percent points' rated := by
  rw [computeRiskMeter_priced points hne, computeRiskMeter_priced points' hne,
    RiskMeterResult.mk.injEq]
  constructor
  · rintro ⟨_, hpercent, htotal⟩
    exact ⟨htotal, hpercent⟩
  · rintro ⟨htotal, hpercent⟩
    rw [hpercent]
    exact ⟨rfl, rfl, htotal⟩

end RiskMeter
end FootballIQ
