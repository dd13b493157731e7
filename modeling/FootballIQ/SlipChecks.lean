import FootballIQ.SlipValidator
import FootballIQ.Table

/-!
# What the slip validator accepts

The loop over the predictions takes each slot once. When it reports nothing it has taken
the slots of all predictions in order, and what it has not taken is missing at the end,
so that every unknown or repeated slot costs one missing slot.
-/

namespace FootballIQ
namespace SlipValidator

def countCode (code : ViolationCode) (violations : List SlipViolation) : ℕ :=
  violations.countP (fun v => v.code = code)

@[simp] theorem countCode_append (code : ViolationCode) (vs ws : List SlipViolation) :
    countCode code (vs ++ ws) = countCode code vs + countCode code ws := List.countP_append

/-- Ten slots in the tier distribution. -/
structure Balanced (slots : List SlotDefinition) : Prop where
  length : slots.length = totalSlots
  tiers : ∀ tier, tierCount slots tier = slotDistribution tier

theorem validateSlotConfiguration_eq_nil_iff (slots : List SlotDefinition) :
    validateSlotConfiguration slots = [] ↔ Balanced slots := by
  unfold validateSlotConfiguration
  by_cases hbad : slots.length ≠ totalSlots ∨
      allTiers.filter (fun tier => tierCount slots tier ≠ slotDistribution tier) ≠ []
  · rw [if_pos hbad]
    apply iff_of_false (List.cons_ne_nil _ _)
    rintro ⟨hlen, htiers⟩
    rcases hbad with hbad | hbad
    · exact hbad hlen
    · apply hbad
      rw [List.filter_eq_nil_iff]
      intro tier _
      simp [htiers tier]
  · rw [if_neg hbad]
    rw [not_or, not_not, not_not, List.filter_eq_nil_iff] at hbad
    apply iff_of_true rfl
    refine ⟨hbad.1, fun tier => ?_⟩
    have hmem : tier ∈ allTiers := by
      cases tier <;> decide
    have htier := hbad.2 tier hmem
    rwa [decide_eq_true_iff, not_not] at htier

section Slots
variable {slots : List SlotDefinition}

theorem slotById_eq_some_iff (hnd : (slots.map (·.slotId)).Nodup) (id : ℕ)
    (slot : SlotDefinition) : slotById slots id = some slot ↔ slot ∈ slots ∧ slot.slotId = id := by
  unfold slotById
  constructor
  · intro hfind
    have hid := List.find?_some hfind
    exact ⟨List.mem_reverse.1 (List.mem_of_find?_eq_some hfind), of_decide_eq_true hid⟩
  · rintro ⟨hmem, rfl⟩
    exact Relational.find?_reverse_of_nodup hnd hmem

/-- The market of the prediction is of the slot's tier, and its selection of the market. -/
def Suits (p : SlipPrediction) (slot : SlotDefinition) : Prop :=
  marketTier p.marketType = slot.tier ∧ isValidSelection p.marketType p.selection = true

theorem slotViolations_eq_nil_iff (slot : SlotDefinition) (p : SlipPrediction) :
    slotViolations slot p = [] ↔ Suits p slot := by
  unfold slotViolations Suits
  rw [List.append_eq_nil_iff]
  by_cases htier : marketTier p.marketType = slot.tier
  · cases hvalid : isValidSelection p.marketType p.selection with
    | true => simp [htier]
    | false => simp [htier]
  · simp [htier]

/-- The checks of a known slot report nothing about which slots there are. -/
theorem countCode_slotViolations {code : ViolationCode}
    (hcode : code ∉ [ViolationCode.marketTierMismatch, .invalidSelection]) (slot : SlotDefinition)
    (p : SlipPrediction) : countCode code (slotViolations slot p) = 0 := by
  simp only [List.mem_cons, List.not_mem_nil, or_false, not_or] at hcode
  unfold countCode slotViolations
  rw [List.countP_eq_zero]
  intro v hv
  rw [decide_eq_true_iff]
  intro hv'
  rw [← hv'] at hcode
  rcases List.mem_append.1 hv with hv | hv
  · split_ifs at hv with htier
    · exact hcode.1 (congrArg SlipViolation.code (List.mem_singleton.1 hv))
    · cases hv
  · split_ifs at hv with hvalid
    · cases hv
    · exact hcode.2 (congrArg SlipViolation.code (List.mem_singleton.1 hv))

end Slots

section Loop
variable {slots : List SlotDefinition}

/-- What the loop knows after the predictions `done`. -/
structure Checked (slots : List SlotDefinition) (done : List SlipPrediction)
    (acc : List SlipViolation × List ℕ) : Prop where
  seen_nodup : acc.2.Nodup
  seen_known : ∀ id ∈ acc.2, id ∈ slots.map (·.slotId)
  counted : acc.2.length + countCode .unknownSlot acc.1 + countCode .duplicateSlot acc.1 =
    done.length
  not_missing : countCode .missingSlot acc.1 = 0
  clean : acc.1 = [] ↔ (∀ p ∈ done, ∃ slot, slotById slots p.slotId = some slot ∧ Suits p slot) ∧
    (done.map (·.slotId)).Nodup
  taken : acc.1 = [] → acc.2 = done.map (·.slotId)

/-- One more prediction on a known slot repeats none exactly if the loop has not seen it. -/
theorem Checked.nodup_append_iff {done : List SlipPrediction}
    {acc : List SlipViolation × List ℕ} (h : Checked slots done acc) (p : SlipPrediction) :
    ((∀ q ∈ done, ∃ slot, slotById slots q.slotId = some slot ∧ Suits q slot) ∧
        ((done ++ [p]).map (·.slotId)).Nodup) ↔ acc.1 = [] ∧ p.slotId ∉ acc.2 := by
  rw [List.map_append, List.nodup_append]
  constructor
  · rintro ⟨hfits, hnodup, _, hne⟩
    have hnil := h.clean.2 ⟨hfits, hnodup⟩
    refine ⟨hnil, fun hmem => ?_⟩
    rw [h.taken hnil] at hmem
    exact hne _ hmem _ List.mem_cons_self rfl
  · rintro ⟨hnil, hmem⟩
    obtain ⟨hfits, hnodup⟩ := h.clean.1 hnil
    rw [h.taken hnil] at hmem
    refine ⟨hfits, hnodup, List.nodup_singleton _, ?_⟩
    intro a ha b hb heq
    rw [List.map_singleton, List.mem_singleton] at hb
    exact hmem (hb ▸ heq ▸ ha)

theorem Checked.step_unknown {done : List SlipPrediction} {acc : List SlipViolation × List ℕ}
    (h : Checked slots done acc) {p : SlipPrediction} (hslot : slotById slots p.slotId = none) :
    Checked slots (done ++ [p]) (checkPrediction slots acc p) := by
  obtain ⟨vs, seen⟩ := acc
  obtain ⟨hnodup, hknown, hcounted, hmissing, _, _⟩ := h
  simp only at hnodup hknown hcounted hmissing
  simp only [checkPrediction, hslot]
  refine ⟨hnodup, hknown, ?_, ?_, ?_, by simp⟩
  · simp [countCode] at hcounted ⊢
    omega
  · simpa [countCode] using hmissing
  · apply iff_of_false (by simp)
    rintro ⟨hfits, _⟩
    obtain ⟨slot, hsome, _⟩ := hfits p (List.mem_append_right _ List.mem_cons_self)
    rw [hslot] at hsome
    cases hsome

theorem Checked.step_repeated {done : List SlipPrediction} {acc : List SlipViolation × List ℕ}
    (h : Checked slots done acc) {p : SlipPrediction} {slot : SlotDefinition}
    (hslot : slotById slots p.slotId = some slot) (hseen : p.slotId ∈ acc.2) :
    Checked slots (done ++ [p]) (checkPrediction slots acc p) := by
  have hextend := h.nodup_append_iff p
  obtain ⟨vs, seen⟩ := acc
  obtain ⟨hnodup, hknown, hcounted, hmissing, _, _⟩ := h
  simp only at hnodup hknown hcounted hmissing hextend hseen
  simp only [checkPrediction, hslot, if_pos hseen]
  refine ⟨hnodup, hknown, ?_, ?_, ?_, by simp⟩
  · simp [countCode] at hcounted ⊢
    omega
  · simpa [countCode] using hmissing
  · apply iff_of_false (by simp)
    rintro ⟨hfits, hids⟩
    have hdone := fun q hq => hfits q (List.mem_append_left _ hq)
    exact (hextend.1 ⟨hdone, hids⟩).2 hseen

theorem Checked.step_fresh {done : List SlipPrediction} {acc : List SlipViolation × List ℕ}
    (h : Checked slots done acc) {p : SlipPrediction} {slot : SlotDefinition}
    (hslot : slotById slots p.slotId = some slot) (hseen : p.slotId ∉ acc.2) :
    Checked slots (done ++ [p]) (checkPrediction slots acc p) := by
  have hextend := h.nodup_append_iff p
  obtain ⟨vs, seen⟩ := acc
  obtain ⟨hnodup, hknown, hcounted, hmissing, _, htaken⟩ := h
  simp only at hnodup hknown hcounted hmissing htaken hextend hseen
  simp only [checkPrediction, hslot, if_neg hseen]
  refine ⟨?_, ?_, ?_, ?_, ?_, ?_⟩
  · apply List.nodup_append.2
    refine ⟨hnodup, List.nodup_singleton _, ?_⟩
    intro a ha b hb heq
    rw [List.mem_singleton] at hb
    exact hseen (hb ▸ heq ▸ ha)
  · intro id hid
    rcases List.mem_append.1 hid with hid | hid
    · exact hknown id hid
    · rw [List.mem_singleton.1 hid]
      have hin := List.mem_reverse.1 (List.mem_of_find?_eq_some hslot)
      have heq := List.find?_some hslot
      exact List.mem_map.2 ⟨slot, hin, of_decide_eq_true heq⟩
  · rw [countCode_append, countCode_append, countCode_slotViolations (by decide),
      countCode_slotViolations (by decide), List.length_append, List.length_append,
      List.length_singleton, List.length_singleton]
    omega
  · rw [countCode_append, countCode_slotViolations (by decide), hmissing]
  · rw [List.append_eq_nil_iff, slotViolations_eq_nil_iff]
    constructor
    · rintro ⟨hnil, hsuits⟩
      obtain ⟨hfits, hids⟩ := hextend.2 ⟨hnil, hseen⟩
      refine ⟨fun q hq => ?_, hids⟩
      rcases List.mem_append.1 hq with hq | hq
      · exact hfits q hq
      · rw [List.mem_singleton.1 hq]
        exact ⟨slot, hslot, hsuits⟩
    · rintro ⟨hfits, hids⟩
      obtain ⟨slot', hslot', hsuits⟩ := hfits p (List.mem_append_right _ List.mem_cons_self)
      rw [hslot, Option.some.injEq] at hslot'
      rw [← hslot'] at hsuits
      have hdone := fun q hq => hfits q (List.mem_append_left _ hq)
      exact ⟨(hextend.1 ⟨hdone, hids⟩).1, hsuits⟩
  · intro hnil
    rw [htaken (List.append_eq_nil_iff.1 hnil).1, List.map_append, List.map_singleton]

theorem Checked.step {done : List SlipPrediction} {acc : List SlipViolation × List ℕ}
    (h : Checked slots done acc) (p : SlipPrediction) :
    Checked slots (done ++ [p]) (checkPrediction slots acc p) := by
  cases hslot : slotById slots p.slotId with
  | none => exact h.step_unknown hslot
  | some slot =>
    by_cases hseen : p.slotId ∈ acc.2
    · exact h.step_repeated hslot hseen
    · exact h.step_fresh hslot hseen

theorem checked_foldl (slots : List SlotDefinition) (predictions : List SlipPrediction) :
    Checked slots predictions (predictions.foldl (checkPrediction slots) ([], [])) := by
  induction predictions using List.reverseRecOn with
  | nil => exact ⟨List.nodup_nil, by simp, rfl, rfl, by simp, fun _ => rfl⟩
  | append_singleton done p ih =>
    rw [List.foldl_append]
    exact ih.step p

/-- What the loop has not taken of the slots is missing. -/
theorem length_missingSlots (hnd : (slots.map (·.slotId)).Nodup) {seen : List ℕ}
    (hseen : seen.Nodup) (hknown : ∀ id ∈ seen, id ∈ slots.map (·.slotId)) :
    (missingSlots slots seen).length + seen.length = slots.length := by
  have hsplit : (slots.filter (fun s => s.slotId ∈ seen)).length +
      (slots.filter (fun s => s.slotId ∉ seen)).length = slots.length := by
    have hlen := List.length_eq_length_filter_add (l := slots) (fun s => decide (s.slotId ∈ seen))
    simp only [← decide_not] at hlen
    omega
  have hperm : ((slots.filter (fun s => s.slotId ∈ seen)).map (·.slotId)).Perm seen := by
    apply (List.perm_ext_iff_of_nodup (hnd.sublist (List.filter_sublist.map _)) hseen).2
    intro id
    rw [List.mem_map]
    constructor
    · rintro ⟨s, hs, rfl⟩
      exact of_decide_eq_true (List.mem_filter.1 hs).2
    · intro hid
      obtain ⟨s, hs, rfl⟩ := List.mem_map.1 (hknown id hid)
      exact ⟨s, List.mem_filter.2 ⟨hs, decide_eq_true hid⟩, rfl⟩
  have htaken := hperm.length_eq
  rw [List.length_map] at htaken
  unfold missingSlots
  rw [List.length_map]
  omega

theorem countCode_missingSlots (code : ViolationCode) (slots : List SlotDefinition)
    (seen : List ℕ) : countCode code (missingSlots slots seen) =
      if code = .missingSlot then (missingSlots slots seen).length else 0 := by
  unfold countCode
  split_ifs with hcode
  · rw [List.countP_eq_length]
    intro v hv
    obtain ⟨s, _, rfl⟩ := List.mem_map.1 hv
    exact decide_eq_true hcode.symm
  · rw [List.countP_eq_zero]
    intro v hv
    obtain ⟨s, _, rfl⟩ := List.mem_map.1 hv
    rw [decide_eq_true_iff]
    exact fun heq => hcode heq.symm

end Loop

section Slips
variable {slots : List SlotDefinition} {predictions : List SlipPrediction}

/-- A balanced slip: one suitable prediction for each of the ten slots. -/
structure CompleteSlip (slots : List SlotDefinition) (predictions : List SlipPrediction) :
    Prop where
  balanced : Balanced slots
  length : predictions.length = totalSlots
  slots_perm : (predictions.map (·.slotId)).Perm (slots.map (·.slotId))
  suits : ∀ p ∈ predictions, ∃ slot ∈ slots, slot.slotId = p.slotId ∧ Suits p slot

theorem Balanced.count_tiers (hb : Balanced slots) (tier : DifficultyTier) :
    (slots.map (·.tier)).count tier = slotDistribution tier := by
  rw [← hb.tiers tier, tierCount, List.count_eq_countP, List.countP_map,
    List.countP_eq_length_filter]
  exact congrArg List.length (List.filter_congr (fun s _ => rfl))

/-- The markets of a complete slip have the tiers of the slots. -/
theorem CompleteSlip.tiers_perm (hnd : (slots.map (·.slotId)).Nodup)
    (h : CompleteSlip slots predictions) :
    (predictions.map (fun p => marketTier p.marketType)).Perm (slots.map (·.tier)) := by
  have hslots : slots.map (·.tier) =
      (slots.map (·.slotId)).filterMap (fun id => (slotById slots id).map (·.tier)) := by
    rw [List.filterMap_map, ← List.filterMap_eq_map]
    apply List.filterMap_congr
    intro slot hslot
    have hfind := (slotById_eq_some_iff hnd slot.slotId slot).2 ⟨hslot, rfl⟩
    rw [Function.comp_apply, Function.comp_apply, hfind]
    rfl
  have hslip : predictions.map (fun p => marketTier p.marketType) =
      (predictions.map (·.slotId)).filterMap (fun id => (slotById slots id).map (·.tier)) := by
    rw [List.filterMap_map, ← List.filterMap_eq_map]
    apply List.filterMap_congr
    intro p hp
    obtain ⟨slot, hslot, hid, htier, _⟩ := h.suits p hp
    have hfind := (slotById_eq_some_iff hnd p.slotId slot).2 ⟨hslot, hid⟩
    rw [Function.comp_apply, Function.comp_apply, hfind, htier]
    rfl
  rw [hslots, hslip]
  exact h.slots_perm.filterMap _

theorem validateSlip_of_balanced (hb : Balanced slots) (hlen : predictions.length = totalSlots) :
    validateSlip slots predictions =
      (predictions.foldl (checkPrediction slots) ([], [])).1 ++
        missingSlots slots (predictions.foldl (checkPrediction slots) ([], [])).2 := by
  unfold validateSlip
  rw [(validateSlotConfiguration_eq_nil_iff slots).2 hb]
  simp only [ne_eq, not_true_eq_false, if_false, hlen]

theorem balanced_of_validateSlip (h : validateSlip slots predictions = []) :
    Balanced slots ∧ predictions.length = totalSlots := by
  unfold validateSlip at h
  simp only at h
  split_ifs at h with hconfig hlen
  · exact absurd h hconfig
  · rw [not_not] at hconfig hlen
    exact ⟨(validateSlotConfiguration_eq_nil_iff slots).1 hconfig, hlen⟩

/-- The validator accepts exactly the complete balanced slips. -/
theorem validateSlip_eq_nil_iff (hnd : (slots.map (·.slotId)).Nodup) :
    validateSlip slots predictions = [] ↔ CompleteSlip slots predictions := by
  have hchecked := checked_foldl slots predictions
  have hmissing := length_missingSlots hnd hchecked.seen_nodup hchecked.seen_known
  constructor
  · intro h
    obtain ⟨hb, hlen⟩ := balanced_of_validateSlip h
    rw [validateSlip_of_balanced hb hlen, List.append_eq_nil_iff] at h
    obtain ⟨hfits, hnodup⟩ := hchecked.clean.1 h.1
    have hknown := hchecked.seen_known
    rw [h.2, List.length_nil, zero_add] at hmissing
    rw [hchecked.taken h.1] at hknown hmissing
    refine ⟨hb, hlen, ?_, fun p hp => ?_⟩
    · have hsub := List.subperm_of_subset hnodup hknown
      exact hsub.perm_of_length_le (by rw [List.length_map, hmissing])
    · obtain ⟨slot, hslot, hsuits⟩ := hfits p hp
      obtain ⟨hmem, hid⟩ := (slotById_eq_some_iff hnd p.slotId slot).1 hslot
      exact ⟨slot, hmem, hid, hsuits⟩
  · rintro ⟨hb, hlen, hperm, hsuits⟩
    have hfits : ∀ p ∈ predictions, ∃ slot, slotById slots p.slotId = some slot ∧
        Suits p slot := by
      intro p hp
      obtain ⟨slot, hmem, hid, hsuit⟩ := hsuits p hp
      exact ⟨slot, (slotById_eq_some_iff hnd p.slotId slot).2 ⟨hmem, hid⟩, hsuit⟩
    have hnil := hchecked.clean.2 ⟨hfits, hperm.nodup_iff.2 hnd⟩
    rw [hchecked.taken hnil, List.length_map] at hmissing
    have hlast : missingSlots slots (predictions.map (·.slotId)) = [] := by
      rw [← List.length_eq_zero_iff]
      have hslots := hb.length
      omega
    rw [validateSlip_of_balanced hb hlen, hnil, hchecked.taken hnil, hlast, List.append_nil]

/-- The validator accepts exactly the complete balanced slips, and over balanced slots it
reports as many missing slots as unknown and repeated ones. -/
theorem validateSlip_exact (slots : List SlotDefinition) (hnd : (slots.map (·.slotId)).Nodup)
    (predictions : List SlipPrediction) :
    (validateSlip slots predictions = [] ↔ CompleteSlip slots predictions) ∧
      (Balanced slots → predictions.length = totalSlots →
        countCode .missingSlot (validateSlip slots predictions) =
          countCode .unknownSlot (validateSlip slots predictions) +
            countCode .duplicateSlot (validateSlip slots predictions)) := by
  refine ⟨validateSlip_eq_nil_iff hnd, ?_⟩
  intro hb hlen
  have hchecked := checked_foldl slots predictions
  have hmissing := length_missingSlots hnd hchecked.seen_nodup hchecked.seen_known
  have hslots := hb.length
  have hcounted := hchecked.counted
  rw [validateSlip_of_balanced hb hlen]
  simp only [countCode_append, countCode_missingSlots, hchecked.not_missing, if_true,
    reduceCtorEq, if_false]
  omega

def tenSlots : List SlotDefinition :=
  [⟨1, .easy⟩, ⟨2, .easy⟩, ⟨3, .medium⟩, ⟨4, .medium⟩, ⟨5, .medium⟩, ⟨6, .hard⟩, ⟨7, .hard⟩,
    ⟨8, .hard⟩, ⟨9, .expert⟩, ⟨10, .expert⟩]

/-- A slip that predicts its first slot twice and its second not at all. -/
def repeatedSlip : List SlipPrediction :=
  [⟨1, .matchWinner, "HOME"⟩, ⟨1, .doubleChance, "AWAY_OR_DRAW"⟩, ⟨3, .overUnder25, "OVER"⟩,
    ⟨4, .btts, "YES"⟩, ⟨5, .firstHalfWinner, "DRAW"⟩, ⟨6, .winningMargin, "HOME_BY_1"⟩,
    ⟨7, .cleanSheet, "NONE"⟩, ⟨8, .exactGoals, "3"⟩, ⟨9, .correctScore, "2-1"⟩,
    ⟨10, .correctScore, "0-0"⟩]

theorem validateSlip_exact_repeated :
    (validateSlip tenSlots repeatedSlip).map (·.code) = [.duplicateSlot, .missingSlot] ∧
      (validateSlip tenSlots repeatedSlip = [] ↔ CompleteSlip tenSlots repeatedSlip) :=
  ⟨by decide, (validateSlip_exact tenSlots (by decide) repeatedSlip).1⟩

end Slips

end SlipValidator
end FootballIQ
