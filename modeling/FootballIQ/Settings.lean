import FootballIQ.Schema

/-!
# Rule sets, weight sets and difficulty

The versioned settings of the admin panel. A version is never edited: a new one is
inserted, and an activation moves the flag of the active one. The difficulty job rates
a fixture by the active weight set.
-/

namespace FootballIQ
namespace Settings

open Transaction Relational

structure WeightSet where
  id : ℕ
  isActive : Bool
  weights : List (String × ℚ)
  deriving DecidableEq

instance : Row WeightSet := ⟨WeightSet.id⟩

/-- The database with the weight sets, which nothing but the difficulty job reads. -/
structure Store where
  db : Db
  weightSets : Table WeightSet

section Versions

/-- Rows with a flag that says which version new contests or ratings use. -/
class Versioned (ρ : Type) [Row ρ] where
  isActive : ρ → Bool
  withActive : Bool → ρ → ρ
  id_withActive : ∀ b r, Row.id (withActive b r) = Row.id r

instance : Versioned RuleSet where
  isActive := RuleSet.isActive
  withActive b r := { r with isActive := b }
  id_withActive _ _ := rfl

instance : Versioned WeightSet where
  isActive := WeightSet.isActive
  withActive b w := { w with isActive := b }
  id_withActive _ _ := rfl

variable {ρ : Type} [Row ρ] [Versioned ρ]

/-- The `updateMany` that takes the flag from every active version. -/
def deactivateAll (t : Table ρ) : Table ρ :=
  t.updateWhere (fun r => Versioned.isActive r = true) (Versioned.withActive false)
    (Versioned.id_withActive false)

def insertVersion (activate : Bool) (mk : ℕ → ρ) (hmk : ∀ k, Row.id (mk k) = k) (t : Table ρ) :
    Table ρ :=
  (if activate then deactivateAll t else t).insert mk hmk

def activateVersion (id : ℕ) (t : Table ρ) : Table ρ :=
  (deactivateAll t).update id (Versioned.withActive true) (Versioned.id_withActive true)

/-- Replace the versions by an insertion. -/
def createVersion (view : Store → Table ρ) (put : Table ρ → Store → Store) (activate : Bool)
    (mk : ℕ → ρ) (hmk : ∀ k, Row.id (mk k) = k) : Tx Failure Store PUnit :=
  modify (fun s => put (insertVersion activate mk hmk (view s)) s)

/-- The version must exist; then the flag moves to it. -/
def moveActive (view : Store → Table ρ) (put : Table ρ → Store → Store) (code : String) (id : ℕ) :
    Tx Failure Store PUnit := do
  let s ← get
  throwIf ((view s).find id = none) (.notFound code none)
  set (put (activateVersion id (view s)) s)

section Kept
variable {γ : Type} {g : ρ → γ} (hg : ∀ b r, g (Versioned.withActive b r) = g r) (t : Table ρ)
include hg

theorem keeps_deactivateAll : Table.Keeps g t (deactivateAll t) :=
  Table.keeps_updateWhere g t _ _ (Versioned.id_withActive false) (hg false)

theorem keeps_insertVersion (activate : Bool) (mk : ℕ → ρ) (hmk : ∀ k, Row.id (mk k) = k) :
    Table.Keeps g t (insertVersion activate mk hmk t) := by
  unfold insertVersion
  cases activate with
  | true => exact (keeps_deactivateAll hg t).trans (Table.keeps_insert g _ mk hmk)
  | false => exact Table.keeps_insert g t mk hmk

theorem keeps_activateVersion (id : ℕ) : Table.Keeps g t (activateVersion id t) :=
  (keeps_deactivateAll hg t).trans
    (Table.keeps_updateWhere g _ _ _ (Versioned.id_withActive true) (hg true))

end Kept

/-- An activation that fails changes nothing, and otherwise puts the moved flag. -/
theorem commit_moveActive (view : Store → Table ρ) (put : Table ρ → Store → Store) (code : String)
    (id : ℕ) (s : Store) : commit (moveActive view put code id) s = s ∨
      commit (moveActive view put code id) s = put (activateVersion id (view s)) s := by
  rcases commit_cases (moveActive view put code id) s with ⟨u, s', hok, hc⟩ | ⟨_, _, hc⟩
  · simp only [moveActive, bind_ok_iff, get_ok_iff, throwIf_ok_iff, set_ok_iff] at hok
    obtain ⟨_, _, ⟨rfl, rfl⟩, _, _, ⟨_, rfl⟩, hput⟩ := hok
    exact Or.inr (hc.trans hput.symm)
  · exact Or.inl hc

end Versions

section Controller

structure CreateRuleSetBody where
  rules : List MarketRule
  activate : Bool
  deriving DecidableEq

structure CreateWeightSetBody where
  weights : List (String × ℚ)
  activate : Bool
  deriving DecidableEq

def putRuleSets (t : Table RuleSet) (s : Store) : Store :=
  { s with db := { s.db with ruleSets := t } }

def putWeightSets (t : Table WeightSet) (s : Store) : Store := { s with weightSets := t }

def createRuleSet (dto : CreateRuleSetBody) : Tx Failure Store PUnit :=
  createVersion (fun s => s.db.ruleSets) putRuleSets dto.activate
    (fun id => RuleSet.mk id dto.activate dto.rules) (fun _ => rfl)

def activateRuleSet (id : ℕ) : Tx Failure Store PUnit :=
  moveActive (fun s => s.db.ruleSets) putRuleSets "RULE_SET_NOT_FOUND" id

def createWeightSet (dto : CreateWeightSetBody) : Tx Failure Store PUnit :=
  createVersion Store.weightSets putWeightSets dto.activate
    (fun id => WeightSet.mk id dto.activate dto.weights) (fun _ => rfl)

def activateWeightSet (id : ℕ) : Tx Failure Store PUnit :=
  moveActive Store.weightSets putWeightSets "WEIGHT_SET_NOT_FOUND" id

end Controller

section Difficulty

/-- The upsert by fixture; an override that is there stays. -/
def upsertStars (fixtureId : ℕ) (stars : ℤ) (t : Table FixtureDifficulty) :
    Table FixtureDifficulty :=
  if h : t.find fixtureId = none then
    { rows := t.rows ++ [⟨fixtureId, stars, none⟩]
      nodup_ids := by
        rw [List.map_append, List.nodup_append]
        refine ⟨t.nodup_ids, by simp, ?_⟩
        intro k hk k' hk' heq
        obtain ⟨d, hd, rfl⟩ := List.mem_map.1 hk
        rw [List.map_singleton, List.mem_singleton] at hk'
        exact (t.find_eq_none_iff fixtureId).1 h d hd (heq.trans hk') }
  else t.update fixtureId (fun d => { d with stars := stars }) (fun _ => rfl)

/-- `computeStars` stands for the engine on the signals that the provider has for the
fixture; the newest active weight set counts. -/
def computeForFixture (computeStars : List (String × ℚ) → ℤ) (fixtureId : ℕ) :
    Tx Failure Store (Option ℤ) := do
  let s ← get
  match s.db.fixtures.find fixtureId,
      (s.weightSets.findMany (fun w => w.isActive = true)).getLast? with
  | some _, some weightSet =>
    let stars := computeStars weightSet.weights
    set { s with
      db := { s.db with
        fixtureDifficulties := upsertStars fixtureId stars s.db.fixtureDifficulties } }
    return some stars
  | _, _ => return none

/-- The difficulty job writes difficulties only. -/
theorem commit_computeForFixture (computeStars : List (String × ℚ) → ℤ) (fixtureId : ℕ)
    (s : Store) : ∃ t, (commit (computeForFixture computeStars fixtureId) s).db =
      { s.db with fixtureDifficulties := t } := by
  rcases commit_cases (computeForFixture computeStars fixtureId) s with ⟨stars, s', hok, hc⟩ |
    ⟨_, _, hc⟩
  · rw [hc]
    obtain ⟨_, _, ⟨rfl, rfl⟩, hrest⟩ := (bind_ok_iff _ _ _ _).1 hok
    cases hf : s.db.fixtures.find fixtureId with
    | none =>
      simp only [hf, pure_ok_iff] at hrest
      exact ⟨s.db.fixtureDifficulties, congrArg Store.db hrest.2.symm⟩
    | some f =>
      cases hw : (s.weightSets.findMany (fun w => w.isActive = true)).getLast? with
      | none =>
        simp only [hf, hw, pure_ok_iff] at hrest
        exact ⟨s.db.fixtureDifficulties, congrArg Store.db hrest.2.symm⟩
      | some weightSet =>
        simp only [hf, hw, bind_ok_iff, set_ok_iff, pure_ok_iff] at hrest
        obtain ⟨_, _, rfl, _, rfl⟩ := hrest
        exact ⟨_, rfl⟩
  · rw [hc]
    exact ⟨s.db.fixtureDifficulties, rfl⟩

end Difficulty

/-- One call of the settings panel or of the difficulty job. -/
inductive Op where
  | createRuleSet (dto : CreateRuleSetBody)
  | activateRuleSet (id : ℕ)
  | createWeightSet (dto : CreateWeightSetBody)
  | activateWeightSet (id : ℕ)
  | computeForFixture (computeStars : List (String × ℚ) → ℤ) (fixtureId : ℕ)

def perform : Op → Store → Store
  | .createRuleSet dto => commit (createRuleSet dto)
  | .activateRuleSet id => commit (activateRuleSet id)
  | .createWeightSet dto => commit (createWeightSet dto)
  | .activateWeightSet id => commit (activateWeightSet id)
  | .computeForFixture computeStars fixtureId => commit (computeForFixture computeStars fixtureId)

/-- The settings' calls write rule sets and difficulties only, and no version that is there
gets other rules. -/
theorem perform_db (op : Op) (s : Store) : ∃ ruleSets difficulties,
    (perform op s).db = { s.db with
      ruleSets := ruleSets
      fixtureDifficulties := difficulties } ∧
      Table.Keeps RuleSet.marketRules s.db.ruleSets ruleSets := by
  have hrules : ∀ b (r : RuleSet), (Versioned.withActive b r).marketRules = r.marketRules := by
    intro b r
    rfl
  have hsame : ∀ s' : Store, s'.db = s.db → ∃ ruleSets difficulties,
      s'.db = { s.db with ruleSets := ruleSets, fixtureDifficulties := difficulties } ∧
        Table.Keeps RuleSet.marketRules s.db.ruleSets ruleSets :=
    fun s' hs' => ⟨s.db.ruleSets, s.db.fixtureDifficulties, hs', Table.Keeps.refl _ _⟩
  cases op with
  | createRuleSet dto =>
    exact ⟨_, s.db.fixtureDifficulties, rfl, keeps_insertVersion hrules _ _ _ _⟩
  | activateRuleSet id =>
    rcases commit_moveActive (fun s => s.db.ruleSets) putRuleSets "RULE_SET_NOT_FOUND" id s with
      hc | hc
    · exact hsame (commit (activateRuleSet id) s) (congrArg Store.db hc)
    · have hdb := congrArg Store.db hc
      exact ⟨_, s.db.fixtureDifficulties, hdb, keeps_activateVersion hrules _ id⟩
  | createWeightSet dto => exact hsame _ rfl
  | activateWeightSet id =>
    rcases commit_moveActive Store.weightSets putWeightSets "WEIGHT_SET_NOT_FOUND" id s with
      hc | hc
    · exact hsame (commit (activateWeightSet id) s) (congrArg Store.db hc)
    · have hdb := congrArg Store.db hc
      exact hsame (commit (activateWeightSet id) s) hdb
  | computeForFixture computeStars fixtureId =>
    obtain ⟨t, ht⟩ := commit_computeForFixture computeStars fixtureId s
    exact ⟨s.db.ruleSets, t, ht, Table.Keeps.refl _ _⟩

end Settings
end FootballIQ
