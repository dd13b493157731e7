import FootballIQ.Contracts

/-!
# Slip validation

The Balanced Challenge rule on a whole slip: ten slots in the tier distribution
2/3/3/2, one prediction per slot, each with a market of the slot's tier and a
selection of that market. The validator reports every violation it meets.
-/

namespace FootballIQ

structure SlotDefinition where
  slotId : ℕ
  tier : DifficultyTier
  deriving DecidableEq

structure SlipPrediction where
  slotId : ℕ
  marketType : MarketType
  selection : String
  deriving DecidableEq

inductive ViolationCode where
  | wrongCount | unknownSlot | duplicateSlot | missingSlot | marketTierMismatch
  | invalidSelection | badSlotConfig
  deriving DecidableEq

structure SlipViolation where
  code : ViolationCode
  slotId : Option ℕ
  message : String
  deriving DecidableEq

namespace SlipValidator

def allTiers : List DifficultyTier := [.easy, .medium, .hard, .expert]

def tierCount (slots : List SlotDefinition) (tier : DifficultyTier) : ℕ :=
  (slots.filter (fun s => s.tier = tier)).length

/-- The counts as `JSON.stringify` writes them. -/
def renderCounts (slots : List SlotDefinition) : String :=
  let field := fun tier : DifficultyTier =>
    "\"" ++ tier.name ++ "\":" ++ toString (tierCount slots tier)
  "\x7b" ++ ",".intercalate (allTiers.map field) ++ "\x7d"

def validateSlotConfiguration (slots : List SlotDefinition) : List SlipViolation :=
  let bad := allTiers.filter (fun tier => tierCount slots tier ≠ slotDistribution tier)
  if slots.length ≠ totalSlots ∨ bad ≠ [] then
    [⟨.badSlotConfig, none,
      "Contest slots must be exactly 2 EASY / 3 MEDIUM / 3 HARD / 2 EXPERT (got " ++
        renderCounts slots ++ ")"⟩]
  else []

/-- Lookup in the map built from the slots, where a later slot overwrites an earlier one. -/
def slotById (slots : List SlotDefinition) (slotId : ℕ) : Option SlotDefinition :=
  slots.reverse.find? (fun s => s.slotId = slotId)

/-- The two checks of a prediction on a known slot that no earlier prediction took. -/
def slotViolations (slot : SlotDefinition) (p : SlipPrediction) : List SlipViolation :=
  (if marketTier p.marketType ≠ slot.tier then
    [⟨.marketTierMismatch, some p.slotId,
      p.marketType.name ++ " is a " ++ (marketTier p.marketType).name ++
        " market but slot requires " ++ slot.tier.name⟩]
  else []) ++
  (if isValidSelection p.marketType p.selection then []
  else
    [⟨.invalidSelection, some p.slotId,
      "\"" ++ p.selection ++ "\" is not a valid selection for " ++ p.marketType.name⟩])

/-- One turn of the loop over the predictions: the violations so far and the slots seen. -/
def checkPrediction (slots : List SlotDefinition) (acc : List SlipViolation × List ℕ)
    (p : SlipPrediction) : List SlipViolation × List ℕ :=
  match slotById slots p.slotId with
  | none =>
    (acc.1 ++ [⟨.unknownSlot, some p.slotId,
      "Prediction references a slot that does not belong to this contest"⟩], acc.2)
  | some slot =>
    if p.slotId ∈ acc.2 then
      (acc.1 ++ [⟨.duplicateSlot, some p.slotId,
        "Only one prediction per slot is allowed"⟩], acc.2)
    else (acc.1 ++ slotViolations slot p, acc.2 ++ [p.slotId])

def missingSlots (slots : List SlotDefinition) (seen : List ℕ) : List SlipViolation :=
  (slots.filter (fun s => s.slotId ∉ seen)).map
    (fun s => ⟨.missingSlot, some s.slotId, "Every slot must have a prediction"⟩)

def validateSlip (slots : List SlotDefinition) (predictions : List SlipPrediction) :
    List SlipViolation :=
  let violations := validateSlotConfiguration slots
  if violations ≠ [] then violations
  else if predictions.length ≠ totalSlots then
    [⟨.wrongCount, none,
      s!"A slip must contain exactly {totalSlots} predictions (got {predictions.length})"⟩]
  else
    let checked := predictions.foldl (checkPrediction slots) ([], [])
    checked.1 ++ missingSlots slots checked.2

end SlipValidator
end FootballIQ
