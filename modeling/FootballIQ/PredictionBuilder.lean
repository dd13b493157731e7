import FootballIQ.LockTime
import FootballIQ.PrizePool
import FootballIQ.RiskMeter

/-!
# The prediction builder and the submission of its slip

The builder shows the risk of the slots of the contest page in the order of the page, priced with
the default points of the markets. The submission recomputes the risk in the order of the posted
predictions, priced with the rule set of the contest. The stars agree, and so do the two meters
exactly when the two price lists do not tell on the slip.
-/

namespace FootballIQ
namespace PredictionBuilder

open Transaction Relational Contests Entries PrizePool Leaderboard SlipValidator RiskMeter
open Settings (worth)

section Component

def defaultMarketPointsX10 : MarketType → ℕ
  | .matchWinner | .doubleChance => 50
  | .overUnder25 | .btts | .firstHalfWinner | .firstTeamToScore => 100
  | .winningMargin | .cleanSheet | .exactGoals => 150
  | .correctScore => 325

/-- The choice for one slot; the selection is missing until the user makes it. -/
structure SlotChoice where
  marketType : MarketType
  selection : Option String
  deriving DecidableEq

/-- Lookup in the map built from the matches, where a later match overwrites an earlier one. -/
def matchById (page : ContestPage) (contestMatchId : ℕ) : Option MatchItem :=
  page.matchItems.reverse.find? (fun m => m.contestMatchId = contestMatchId)

def riskInput (page : ContestPage) (choices : ℕ → SlotChoice) (s : SlotItem) : RiskSlotInput where
  marketType := (choices s.slotId).marketType
  stars := ((matchById page s.contestMatchId).bind (·.stars)).getD 3
  pointsX10 := defaultMarketPointsX10 (choices s.slotId).marketType

def risk (page : ContestPage) (choices : ℕ → SlotChoice) : RiskMeterResult :=
  computeRiskMeter (page.slotItems.map (riskInput page choices))

end Component

section Stars

/-- Every slot is on a match of its contest. -/
def SlotsPlaced (db : Db) : Prop :=
  ∀ s ∈ db.contestSlots.rows, ∃ m ∈ db.contestMatches.rows,
    m.id = s.contestMatchId ∧ m.contestId = s.contestId

/-- The stars of the fixture of a slot, three where there are none. -/
def starsOf (db : Db) (contestId slotId : ℕ) : ℤ :=
  (((slotsOf db contestId).find? (fun s => s.id = slotId)).bind (fun slot =>
    (db.contestMatches.find slot.contestMatchId).bind
      (fun m => fixtureStars db m.fixtureId))).getD 3

variable {db : Db} {directory : Directory} {slug : String} {page : ContestPage}

theorem getBySlug_page {db' : Db} (h : getBySlug directory slug db = .ok (page, db')) :
    page.matchItems = ((db.contestMatches.findMany
        (fun m => m.contestId = page.item.id)).insertionSort (fun a b => a.order ≤ b.order)).map
          (toMatchItem db) ∧
      page.slotItems = ((slotsOf db page.item.id).insertionSort
        (fun a b => a.slotNo ≤ b.slotNo)).map
          (fun s => ⟨s.id, s.slotNo, s.tier, s.contestMatchId⟩) := by
  simp only [getBySlug, bind_ok_iff, get_ok_iff, orThrow_ok_iff, throwIf_ok_iff, pure_ok_iff] at h
  obtain ⟨_, _, ⟨rfl, rfl⟩, c, _, ⟨_, rfl⟩, _, _, ⟨_, rfl⟩, rfl, _⟩ := h
  exact ⟨rfl, rfl⟩

theorem slotsOf_find {contestId : ℕ} {s : ContestSlot} (hs : s ∈ slotsOf db contestId) :
    (slotsOf db contestId).find? (fun s' => s'.id = s.id) = some s := by
  have hnd : ((slotsOf db contestId).map (·.id)).Nodup :=
    (List.filter_sublist.map _).nodup db.contestSlots.nodup_ids
  exact find?_of_nodup hnd hs

/-- The page finds the match of a slot of its contest, with the stars of the fixture. -/
theorem matchById_page {db' : Db} (h : getBySlug directory slug db = .ok (page, db'))
    {m : ContestMatch} (hm : m ∈ db.contestMatches.rows) (hc : m.contestId = page.item.id) :
    matchById page m.id = some (toMatchItem db m) := by
  have hitems := (getBySlug_page h).1
  have hmem : toMatchItem db m ∈ page.matchItems := by
    rw [hitems]
    apply List.mem_map_of_mem
    rw [List.mem_insertionSort]
    exact (db.contestMatches.mem_findMany _ m).2 ⟨hm, hc⟩
  have hnd : (page.matchItems.map (·.contestMatchId)).Nodup := by
    have hperm := List.perm_insertionSort (fun a b => a.order ≤ b.order)
      (db.contestMatches.findMany (fun m => m.contestId = page.item.id))
    rw [hitems, List.map_map]
    exact (hperm.map _).nodup_iff.2
      ((List.filter_sublist.map _).nodup db.contestMatches.nodup_ids)
  exact find?_reverse_of_nodup hnd hmem

/-- The builder rates a slot as the submission does. -/
theorem stars_page {db' : Db} (h : getBySlug directory slug db = .ok (page, db'))
    (hplaced : SlotsPlaced db) {s : ContestSlot} (hs : s ∈ slotsOf db page.item.id) :
    ((matchById page s.contestMatchId).bind (·.stars)).getD 3 = starsOf db page.item.id s.id := by
  obtain ⟨hrow, hcontest⟩ := (db.contestSlots.mem_findMany _ s).1 hs
  obtain ⟨m, hm, hid, hmc⟩ := hplaced s hrow
  have hfind := db.contestMatches.find_id hm
  have hmid : Row.id m = s.contestMatchId := hid
  rw [hmid] at hfind
  rw [starsOf, slotsOf_find hs, Option.bind_some, hfind, Option.bind_some, ← hid,
    matchById_page h hm (hmc.trans hcontest), Option.bind_some]
  rfl

end Stars

section Placement
variable {db db' : Db} {contestId : ℕ}

/-- The loop keeps the matches, and what it maps to are matches of the contest. -/
theorem createMatches_placed {fs : List ContestFixtureInput} {ms : List (ℕ × ℕ)}
    (h : createMatches contestId fs db = .ok (ms, db')) :
    ∃ t, db' = { db with contestMatches := t } ∧ (∀ m ∈ db.contestMatches.rows, m ∈ t.rows) ∧
      ∀ p ∈ ms, ∃ m ∈ t.rows, m.id = p.2 ∧ m.contestId = contestId := by
  induction fs generalizing db ms with
  | nil =>
    simp only [createMatches, pure_ok_iff] at h
    obtain ⟨rfl, rfl⟩ := h
    exact ⟨db.contestMatches, rfl, fun m hm => hm, by simp⟩
  | cons f fs ih =>
    simp only [createMatches, createMatch, bind_ok_iff, get_ok_iff, throwIf_ok_iff, set_ok_iff,
      pure_ok_iff] at h
    obtain ⟨_, _, ⟨_, _, ⟨rfl, rfl⟩, _, _, ⟨_, rfl⟩, _, _, rfl, rfl, rfl⟩, rest, _, hrest, rfl,
      rfl⟩ := h
    obtain ⟨t, rfl, hkept, hms⟩ := ih hrest
    refine ⟨t, rfl, fun m hm => hkept m ?_, fun p hp => ?_⟩
    · exact (Table.mem_insert _ _ (by intro k; rfl) m).2 (Or.inl hm)
    · rcases List.mem_cons.1 hp with rfl | hp
      · refine ⟨_, hkept _ ((Table.mem_insert _ _ (by intro k; rfl) _).2 (Or.inr rfl)), rfl, rfl⟩
      · exact hms p hp

/-- The slots of a creation are on the matches that it maps to. -/
theorem createSlots_placed {ms : List (ℕ × ℕ)} {ss : List ContestSlotInput} {r : PUnit × Db}
    (h : (forM ss (createSlot contestId ms) : Tx Failure Db PUnit) db = .ok r)
    (hms : ∀ p ∈ ms, ∃ m ∈ db.contestMatches.rows, m.id = p.2 ∧ m.contestId = contestId)
    (hplaced : SlotsPlaced db) : SlotsPlaced r.2 := by
  induction ss generalizing db with
  | nil =>
    rw [forM_nil_ok_iff] at h
    rwa [← h]
  | cons s ss ih =>
    rw [forM_cons_ok_iff] at h
    simp only [createSlot, bind_ok_iff, orThrow_ok_iff, modify_ok_iff] at h
    obtain ⟨_, ⟨matchId, _, ⟨hlookup, rfl⟩, rfl⟩, hrest⟩ := h
    refine ih hrest hms (fun slot hslot => ?_)
    rcases (Table.mem_insert _ _ (by intro k; rfl) slot).1 hslot with hslot | rfl
    · exact hplaced slot hslot
    · obtain ⟨l, l', hl, _⟩ := List.lookup_eq_some_iff.1 hlookup
      exact hms (s.fixtureId, matchId) (by simp [hl])

/-- A creation places its slots; no other call writes slots or moves a match. -/
theorem slotsPlaced_create {now adminId id : ℕ} {dto : CreateContestRequest}
    (hplaced : SlotsPlaced db) (h : create now adminId dto db = .ok (id, db')) :
    SlotsPlaced db' := by
  obtain ⟨ruleSet, template, htx⟩ := create_spec h
  simp only [createTx, bind_ok_iff, get_ok_iff, set_ok_iff, pure_ok_iff] at htx
  obtain ⟨_, _, ⟨rfl, rfl⟩, _, _, rfl, _, _, hms, _, _, hss, _, rfl⟩ := htx
  obtain ⟨t, rfl, hkept, hms⟩ := createMatches_placed hms
  refine createSlots_placed hss hms (fun s hs => ?_)
  obtain ⟨m, hm, hid, hcontest⟩ := hplaced s hs
  exact ⟨m, hkept m hm, hid, hcontest⟩

end Placement

section Submission

/-- A page of the builder over a contest with the given rules, and the accepted submission of the
slip that the builder holds, its predictions in any order. -/
structure Submission (rules : List MarketRule) where
  directory : Directory
  db : Db
  slug : String
  page : ContestPage
  choices : ℕ → SlotChoice
  now : DateTime
  userId : ℕ
  dto : SubmitSlipRequest
  result : SubmitSlipResult
  db' : Db
  placed : SlotsPlaced db
  ruled : ∀ c, db.contests.find dto.contestId = some c →
    ∃ r, db.ruleSets.find c.ruleSetId = some r ∧ r.marketRules = rules
  shown : getBySlug directory slug db = .ok (page, db)
  same : page.item.id = dto.contestId
  accepted : LockTime.submitSlip now userId dto db = .ok (result, db')
  holds : ∀ p ∈ dto.predictions, choices p.slotId = ⟨p.marketType, some p.selection⟩

variable {rules : List MarketRule} (S : Submission rules)

namespace Submission

/-- The meter of the builder, which the submission returns and stores. -/
def Agrees : Prop :=
  S.result.risk = risk S.page S.choices ∧
    ∃ e, S.db'.entries.find S.result.entryId = some e ∧
      e.riskProfile = some (risk S.page S.choices).profile ∧
      e.riskPct = some (risk S.page S.choices).riskPct

/-- The markets of the slip with the stars of their fixtures. -/
def rated : List Rated :=
  S.dto.predictions.map (fun p => (p.marketType, starsOf S.db S.dto.contestId p.slotId))

/-- On this slip the rule set has the total of the defaults, and the points-weighted risk rounds
as under the defaults. -/
structure Unmoved : Prop where
  total_eq : total (worth rules) S.rated = total defaultMarketPointsX10 S.rated
  percent_eq : percent (worth rules) S.rated = percent defaultMarketPointsX10 S.rated

/-- The slots that the submission checks its slip against. -/
def slots : List SlotDefinition :=
  (slotsOf S.db S.dto.contestId).map (fun s => ⟨s.id, s.tier⟩)

theorem slots_ids : S.slots.map (·.slotId) = (slotsOf S.db S.dto.contestId).map (·.id) := by
  rw [slots, List.map_map]
  rfl

theorem nodup_slots : (S.slots.map (·.slotId)).Nodup := by
  rw [slots_ids]
  exact S.db.contestSlots.nodup_ids.sublist (List.filter_sublist.map _)

/-- What an accepted submission has read, and what it returns and stores. -/
theorem accepted_spec : ∃ c, S.db.contests.find S.dto.contestId = some c ∧
    c.id = S.dto.contestId ∧ validateSlip S.slots S.dto.predictions = [] ∧
    S.result.risk = computeRiskMeter (S.dto.predictions.filterMap (Entries.riskInput S.db c)) ∧
    ∃ e, S.db'.entries.find S.result.entryId = some e ∧
      e.riskProfile = some S.result.risk.profile ∧ e.riskPct = some S.result.risk.riskPct := by
  have h := S.accepted
  simp only [LockTime.submitSlip, bind_ok_iff] at h
  obtain ⟨slip, _, hread, htx⟩ := h
  simp only [submitRead, bind_ok_iff, get_ok_iff, orThrow_ok_iff, throwIf_ok_iff,
    pure_ok_iff] at hread
  obtain ⟨_, _, ⟨rfl, rfl⟩, c, _, ⟨hfind, rfl⟩, _, _, ⟨_, rfl⟩, _, _, ⟨_, rfl⟩, _, _, ⟨hvalid, rfl⟩,
    rfl, rfl⟩ := hread
  obtain ⟨hc, hid, _⟩ := findContest_some hfind
  obtain ⟨wallet, escrow, journalId, l, _, _, _, _, hdb, hres⟩ := (submitTx_ok_iff _ _ _ _ _).1 htx
  rw [not_not, hid] at hvalid
  rw [hdb, hres]
  exact ⟨c, hc, hid, hvalid, rfl, _,
    Table.find_insert_fresh _ _ (id_paidEntry _ S.now journalId), rfl, rfl⟩

theorem completeSlip : CompleteSlip S.slots S.dto.predictions := by
  obtain ⟨_, _, _, hvalid, _⟩ := S.accepted_spec
  exact (validateSlip_eq_nil_iff S.nodup_slots).1 hvalid

theorem rated_ne_nil : S.rated ≠ [] := by
  have hlen := S.completeSlip.length
  intro hnil
  rw [rated, List.map_eq_nil_iff] at hnil
  rw [hnil] at hlen
  cases hlen

/-- The submission finds the slot of every prediction, its match and a rule for its market. -/
theorem riskInput_prediction (hcovers : ∀ m, (pointsByMarket rules m).isSome) {c : Contest}
    (hc : S.db.contests.find S.dto.contestId = some c) (hid : c.id = S.dto.contestId)
    {p : SlipPrediction} (hp : p ∈ S.dto.predictions) :
    Entries.riskInput S.db c p =
      some (priced (worth rules) (p.marketType, starsOf S.db S.dto.contestId p.slotId)) := by
  obtain ⟨slot, hslot, hslotId, _⟩ := S.completeSlip.suits p hp
  obtain ⟨s, hs, rfl⟩ := List.mem_map.1 hslot
  obtain ⟨hrow, hcontest⟩ := (S.db.contestSlots.mem_findMany _ s).1 hs
  obtain ⟨m, hm, hmid, _⟩ := S.placed s hrow
  obtain ⟨r, hr, hrules⟩ := S.ruled c hc
  obtain ⟨points, hpoints⟩ := Option.isSome_iff_exists.1 (hcovers p.marketType)
  have hfindMatch := S.db.contestMatches.find_id hm
  have hmatch : Row.id m = s.contestMatchId := hmid
  rw [hmatch] at hfindMatch
  have hfindSlot := slotsOf_find hs
  simp only at hslotId
  rw [hslotId] at hfindSlot
  simp only [Entries.riskInput, hid, hfindSlot, Option.bind_eq_bind, Option.bind_some, hfindMatch,
    hr, hrules, hpoints, Option.getD_some, priced, worth, starsOf, Option.pure_def]

/-- The submission meters the slip under the rule set. -/
theorem risk_result (hcovers : ∀ m, (pointsByMarket rules m).isSome) :
    S.result.risk = computeRiskMeter (S.rated.map (priced (worth rules))) := by
  obtain ⟨c, hc, hid, _, hrisk, _⟩ := S.accepted_spec
  rw [hrisk, rated, List.map_map, ← List.filterMap_eq_map]
  congr 1
  apply List.filterMap_congr
  intro p hp
  exact S.riskInput_prediction hcovers hc hid hp

/-- What the builder meters for a slot. -/
def builderInput (slotId : ℕ) : RiskSlotInput :=
  priced defaultMarketPointsX10 ((S.choices slotId).marketType, starsOf S.db S.dto.contestId slotId)

/-- The builder meters the same slip under the default points. -/
theorem risk_builder :
    risk S.page S.choices = computeRiskMeter (S.rated.map (priced defaultMarketPointsX10)) := by
  have hpage : S.page.slotItems.map (riskInput S.page S.choices) =
      (S.page.slotItems.map (·.slotId)).map S.builderInput := by
    rw [List.map_map]
    apply List.map_congr_left
    intro item hitem
    rw [(getBySlug_page S.shown).2] at hitem
    obtain ⟨s, hs, rfl⟩ := List.mem_map.1 hitem
    rw [List.mem_insertionSort] at hs
    have hstars := stars_page S.shown S.placed hs
    rw [S.same] at hstars
    simp only [riskInput, hstars]
    rfl
  have hslip : S.rated.map (priced defaultMarketPointsX10) =
      (S.dto.predictions.map (·.slotId)).map S.builderInput := by
    rw [rated, List.map_map, List.map_map]
    apply List.map_congr_left
    intro p hp
    simp only [Function.comp_apply, builderInput, S.holds p hp]
  have hids : (S.page.slotItems.map (·.slotId)).Perm (S.dto.predictions.map (·.slotId)) := by
    refine List.Perm.trans ?_ S.completeSlip.slots_perm.symm
    rw [(getBySlug_page S.shown).2, S.slots_ids, List.map_map, S.same]
    exact (List.perm_insertionSort _ _).map _
  rw [risk, hpage, hslip]
  exact computeRiskMeter_perm (hids.map S.builderInput)

/-- The two meters agree exactly when the two price lists do not tell on the slip. -/
theorem agrees_iff (hcovers : ∀ m, (pointsByMarket rules m).isSome) : S.Agrees ↔ S.Unmoved := by
  have hmeter := computeRiskMeter_priced_eq_iff (worth rules) defaultMarketPointsX10 S.rated_ne_nil
  rw [← S.risk_result hcovers, ← S.risk_builder] at hmeter
  constructor
  · rintro ⟨hrisk, _⟩
    obtain ⟨htotal, hpercent⟩ := hmeter.1 hrisk
    exact ⟨htotal, hpercent⟩
  · rintro ⟨htotal, hpercent⟩
    have hrisk := hmeter.2 ⟨htotal, hpercent⟩
    obtain ⟨_, _, _, _, _, hstored⟩ := S.accepted_spec
    rw [hrisk] at hstored
    exact ⟨hrisk, hstored⟩

end Submission

end Submission

end PredictionBuilder
end FootballIQ
