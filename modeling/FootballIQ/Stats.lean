import FootballIQ.Schema
import FootballIQ.Streaks
import FootballIQ.Tallies
import Mathlib

/-!
# User statistics

The projection of a user is rebuilt from the settled entries and the scored predictions. One pass
over the predictions fills three breakdowns, one pass over the entries finds the streaks.
-/

namespace FootballIQ
namespace Stats

open Transaction Relational Tallies

section Records

/-- What is selected of a settled entry. -/
structure SettledEntry where
  totalPointsX10 : ℕ
  finalRank : Option ℕ
  prizeMinor : ℤ
  deriving DecidableEq

/-- What is selected of a scored prediction, with the league of its fixture. -/
structure ScoredPrediction where
  marketType : MarketType
  isCorrect : Option Bool
  pointsX10 : ℕ
  scoredAt : DateTime
  leagueId : ℕ
  deriving DecidableEq

structure Cell where
  total : ℕ
  correct : ℕ
  deriving DecidableEq

structure MonthlyCell where
  total : ℕ
  correct : ℕ
  pointsX10 : ℕ
  deriving DecidableEq

structure UserStats where
  userId : ℕ
  contestsPlayed : ℕ
  contestsWon : ℕ
  predictionsTotal : ℕ
  predictionsCorrect : ℕ
  totalPointsX10 : ℕ
  highestScoreX10 : ℕ
  totalWinningsMinor : ℤ
  currentStreak : ℕ
  bestStreak : ℕ
  marketBreakdown : List (MarketType × Cell)
  leagueBreakdown : List (ℕ × Cell)
  monthlyBreakdown : List (String × MonthlyCell)
  deriving DecidableEq

instance : Row UserStats := ⟨UserStats.userId⟩

/-- The database with the league column of the fixtures and the table of the projections. -/
structure Store where
  db : Db
  leagueOf : ℕ → ℕ
  userStats : Table UserStats

end Records

section Months

/-- Year and month of a day since 1970-01-01. Years start in March here, so that the leap day
is the last of its year, and run in cycles of 400. -/
def civilMonth (days : ℕ) : ℕ × ℕ :=
  let z := days + 719468
  let dayOfEra := z % 146097
  let yearOfEra :=
    (dayOfEra - dayOfEra / 1460 + dayOfEra / 36524 - dayOfEra / 146096) / 365
  let dayOfYear := dayOfEra - (365 * yearOfEra + yearOfEra / 4 - yearOfEra / 100)
  let shifted := (5 * dayOfYear + 2) / 153
  let month := if shifted < 10 then shifted + 3 else shifted - 9
  (yearOfEra + z / 146097 * 400 + (if month ≤ 2 then 1 else 0), month)

def padded (width n : ℕ) : String :=
  let digits := toString n
  "".pushn '0' (width - digits.length) ++ digits

/-- The first seven characters of `toISOString`, which writes a year beyond 9999 with a sign and
six digits. -/
def isoMonth (t : DateTime) : String :=
  let (year, month) := civilMonth (t / 86400000)
  if year ≤ 9999 then padded 4 year ++ "-" ++ padded 2 month else "+" ++ padded 6 year

example : isoMonth 0 = "1970-01" ∧ isoMonth 1709164799999 = "2024-02" ∧
    isoMonth 1709251200000 = "2024-03" := by decide

end Months

section Service

structure Breakdowns where
  market : List (MarketType × Cell)
  league : List (ℕ × Cell)
  monthly : List (String × MonthlyCell)
  deriving DecidableEq

def addCell (p : ScoredPrediction) (c : Cell) : Cell :=
  ⟨c.total + 1, if p.isCorrect = some true then c.correct + 1 else c.correct⟩

def addMonthly (p : ScoredPrediction) (c : MonthlyCell) : MonthlyCell :=
  ⟨c.total + 1, if p.isCorrect = some true then c.correct + 1 else c.correct,
    c.pointsX10 + p.pointsX10⟩

/-- One turn of the loop over the predictions. -/
def countPrediction (b : Breakdowns) (p : ScoredPrediction) : Breakdowns where
  market := bump ⟨0, 0⟩ (addCell p) p.marketType b.market
  league := bump ⟨0, 0⟩ (addCell p) p.leagueId b.league
  monthly := bump ⟨0, 0, 0⟩ (addMonthly p) (isoMonth p.scoredAt) b.monthly

def breakdowns (predictions : List ScoredPrediction) : Breakdowns :=
  predictions.foldl countPrediction ⟨[], [], []⟩

/-- One turn of the loop over the entries: the running streak and the best one. -/
def countEntry (streaks : ℕ × ℕ) (e : SettledEntry) : ℕ × ℕ :=
  let currentStreak := if e.prizeMinor > 0 then streaks.1 + 1 else 0
  (currentStreak, max streaks.2 currentStreak)

def streaks (entries : List SettledEntry) : ℕ × ℕ := entries.foldl countEntry (0, 0)

def statsData (userId : ℕ) (entries : List SettledEntry) (predictions : List ScoredPrediction) :
    UserStats where
  userId := userId
  contestsPlayed := entries.length
  contestsWon := (entries.filter (fun e => e.finalRank = some 1)).length
  predictionsTotal := predictions.length
  predictionsCorrect := (predictions.filter (fun p => p.isCorrect = some true)).length
  totalPointsX10 := entries.foldl (fun s e => s + e.totalPointsX10) 0
  highestScoreX10 := entries.foldl (fun m e => max m e.totalPointsX10) 0
  totalWinningsMinor := entries.foldl (fun s e => s + e.prizeMinor) 0
  currentStreak := (streaks entries).1
  bestStreak := (streaks entries).2
  marketBreakdown := (breakdowns predictions).market
  leagueBreakdown := (breakdowns predictions).league
  monthlyBreakdown := (breakdowns predictions).monthly

theorem nodup_append_row {t : Table UserStats} {row : UserStats} (h : t.find row.userId = none) :
    ((t.rows ++ [row]).map Row.id).Nodup := by
  rw [List.map_append, List.nodup_append]
  refine ⟨t.nodup_ids, List.nodup_singleton _, ?_⟩
  intro k hk k' hk' heq
  obtain ⟨r, hr, rfl⟩ := List.mem_map.1 hk
  rw [List.map_singleton, List.mem_singleton] at hk'
  exact (t.find_eq_none_iff row.userId).1 h r hr (heq.trans hk')

/-- The upsert by user: what a projection held before is overwritten. -/
def upsert (row : UserStats) (t : Table UserStats) : Table UserStats :=
  if h : t.find row.userId = none then ⟨t.rows ++ [row], nodup_append_row h⟩
  else t.update row.userId (fun r => { row with userId := r.userId }) (fun _ => rfl)

/-- The settled entries of a user in the order of their submission. -/
def settledEntries (db : Db) (userId : ℕ) : List SettledEntry :=
  ((db.entries.findMany (fun e => e.userId = userId ∧ e.status = .settled)).insertionSort
    (fun a b => a.submittedAt ≤ b.submittedAt)).map
      (fun e => ⟨e.totalPointsX10, e.finalRank, e.prizeMinor⟩)

/-- The league of a prediction, by its slot, the match and the fixture. -/
def leagueOf (s : Store) (p : Prediction) : Option ℕ := do
  let slot ← s.db.contestSlots.find p.slotId
  let contestMatch ← s.db.contestMatches.find slot.contestMatchId
  return s.leagueOf contestMatch.fixtureId

/-- The scored predictions of a user's entries. -/
def scoredPredictions (s : Store) (userId : ℕ) : List ScoredPrediction :=
  (s.db.predictions.findMany (fun p => (s.db.entries.find p.entryId).any
    (fun e => e.userId = userId) = true ∧ p.scoredAt ≠ none)).filterMap (fun p => do
      let scoredAt ← p.scoredAt
      let leagueId ← leagueOf s p
      return ⟨p.marketType, p.isCorrect, p.pointsX10, scoredAt, leagueId⟩)

/-- The upsert of what the two reads returned. -/
def store (userId : ℕ) (entries : List SettledEntry) (predictions : List ScoredPrediction)
    (t : Table UserStats) : Table UserStats := upsert (statsData userId entries predictions) t

def recomputeForUser (userId : ℕ) (s : Store) : Store :=
  { s with
    userStats := store userId (settledEntries s.db userId) (scoredPredictions s userId)
      s.userStats }

end Service

section Statement

/-- A settled entry that won money. -/
def Won (e : SettledEntry) : Prop := 0 < e.prizeMinor

instance : DecidablePred Won := fun e => inferInstanceAs (Decidable (0 < e.prizeMinor))

def Right (p : ScoredPrediction) : Prop := p.isCorrect = some true

instance : DecidablePred Right := fun p => inferInstanceAs (Decidable (p.isCorrect = some true))

variable {κ γ : Type*} [DecidableEq κ]

/-- The breakdown counts each prediction in the one cell of its key, and its tallies add up. -/
structure Partitions (predictions : List ScoredPrediction) (key : ScoredPrediction → κ)
    (total correct : γ → ℕ) (d : List (κ × γ)) : Prop where
  nodup_keys : (d.map Prod.fst).Nodup
  mem_keys : ∀ k, k ∈ d.map Prod.fst ↔ ∃ p ∈ predictions, key p = k
  total_eq : ∀ kc ∈ d, total kc.2 = predictions.countP (fun p => key p = kc.1)
  correct_eq : ∀ kc ∈ d, correct kc.2 = predictions.countP (fun p => key p = kc.1 ∧ Right p)
  total_sum : (d.map (fun kc => total kc.2)).sum = predictions.length
  correct_sum : (d.map (fun kc => correct kc.2)).sum = predictions.countP (fun p => Right p)

/-- The stored row is the projection of the two lists. -/
structure Projects (entries : List SettledEntry) (predictions : List ScoredPrediction)
    (row : UserStats) : Prop where
  current : IsGreatest (Streaks.runs Won entries) row.currentStreak
  best : IsGreatest (Streaks.blocks Won entries) row.bestStreak
  current_le : row.currentStreak ≤ row.bestStreak
  best_le : row.bestStreak ≤ row.contestsPlayed
  played : row.contestsPlayed = entries.length
  total : row.predictionsTotal = predictions.length
  correct : row.predictionsCorrect = predictions.countP (fun p => Right p)
  market : Partitions predictions (·.marketType) Cell.total Cell.correct row.marketBreakdown
  league : Partitions predictions (·.leagueId) Cell.total Cell.correct row.leagueBreakdown
  monthly : Partitions predictions (fun p => isoMonth p.scoredAt) MonthlyCell.total
    MonthlyCell.correct row.monthlyBreakdown

end Statement

section Proof
variable {κ γ : Type*} [DecidableEq κ]

/-- A fold that adds to a measure of a cell adds up what its items weigh. -/
theorem foldl_measure {add : ScoredPrediction → γ → γ} {g : γ → ℕ} {w : ScoredPrediction → ℕ}
    (hadd : ∀ p c, g (add p c) = g c + w p) (zero : γ) (l : List ScoredPrediction) :
    g (l.foldl (fun c p => add p c) zero) = g zero + (l.map w).sum := by
  induction l generalizing zero with
  | nil => simp
  | cons p l ih =>
    rw [List.foldl_cons, ih, hadd, List.map_cons, List.sum_cons]
    omega

theorem sum_map_ite (l : List ScoredPrediction) (q : ScoredPrediction → Prop) [DecidablePred q] :
    (l.map (fun p => if q p then 1 else 0)).sum = l.countP (fun p => q p) := by
  induction l with
  | nil => rfl
  | cons p l ih =>
    rw [List.map_cons, List.sum_cons, ih, List.countP_cons]
    simp only [decide_eq_true_eq]
    omega

/-- A dictionary of cells that count every prediction, and the correct ones apart, is a
partition. -/
theorem partitions_tally (zero : γ) (add : ScoredPrediction → γ → γ) (key : ScoredPrediction → κ)
    {total correct : γ → ℕ} (htotal : total zero = 0) (hcorrect : correct zero = 0)
    (hadd : ∀ p c, total (add p c) = total c + 1)
    (hadd' : ∀ p c, correct (add p c) = correct c + if Right p then 1 else 0)
    (predictions : List ScoredPrediction) :
    Partitions predictions key total correct (predictions.foldl (tally zero add key) []) := by
  have hholds := holds_foldl zero add key predictions
  refine ⟨hholds.nodup_keys, fun k => ?_, fun kc hkc => ?_, fun kc hkc => ?_, ?_, ?_⟩
  · rw [hholds.mem_keys, List.mem_map]
  · rw [hholds.cell_eq kc hkc, foldl_measure hadd, htotal, zero_add, List.map_const',
      List.sum_replicate, smul_eq_mul, mul_one, List.countP_eq_length_filter]
  · rw [hholds.cell_eq kc hkc, foldl_measure hadd', hcorrect, zero_add, sum_map_ite,
      List.countP_filter]
    apply List.countP_congr
    intro p _
    simp [and_comm]
  · rw [sum_foldl zero add key total (fun _ => 1) htotal hadd, List.map_const',
      List.sum_replicate, smul_eq_mul, mul_one]
  · rw [sum_foldl zero add key correct _ hcorrect hadd', sum_map_ite]

/-- The loop fills the three dictionaries side by side. -/
theorem breakdowns_eq (predictions : List ScoredPrediction) : breakdowns predictions =
    ⟨predictions.foldl (tally ⟨0, 0⟩ addCell (·.marketType)) [],
      predictions.foldl (tally ⟨0, 0⟩ addCell (·.leagueId)) [],
      predictions.foldl (tally ⟨0, 0, 0⟩ addMonthly (fun p => isoMonth p.scoredAt)) []⟩ := by
  unfold breakdowns
  induction predictions using List.reverseRecOn with
  | nil => rfl
  | append_singleton l p ih =>
    rw [List.foldl_append, ih, List.foldl_append, List.foldl_append, List.foldl_append]
    rfl

theorem correct_addCell (p : ScoredPrediction) (c : Cell) :
    (addCell p c).correct = c.correct + if Right p then 1 else 0 := by
  by_cases hp : p.isCorrect = some true
  · simp [addCell, Right, hp]
  · simp [addCell, Right, hp]

theorem correct_addMonthly (p : ScoredPrediction) (c : MonthlyCell) :
    (addMonthly p c).correct = c.correct + if Right p then 1 else 0 := by
  by_cases hp : p.isCorrect = some true
  · simp [addMonthly, Right, hp]
  · simp [addMonthly, Right, hp]

theorem partitions_cells (key : ScoredPrediction → κ) (predictions : List ScoredPrediction) :
    Partitions predictions key Cell.total Cell.correct
      (predictions.foldl (tally ⟨0, 0⟩ addCell key) []) :=
  partitions_tally ⟨0, 0⟩ addCell key rfl rfl (fun _ _ => rfl) correct_addCell predictions

theorem partitions_months (predictions : List ScoredPrediction) :
    Partitions predictions (fun p => isoMonth p.scoredAt) MonthlyCell.total MonthlyCell.correct
      (predictions.foldl (tally ⟨0, 0, 0⟩ addMonthly (fun p => isoMonth p.scoredAt)) []) :=
  partitions_tally ⟨0, 0, 0⟩ addMonthly _ rfl rfl (fun _ _ => rfl) correct_addMonthly predictions

theorem projects_statsData (userId : ℕ) (entries : List SettledEntry)
    (predictions : List ScoredPrediction) :
    Projects entries predictions (statsData userId entries predictions) := by
  obtain ⟨hcurrent, hbest⟩ := Streaks.foldl_step Won entries
  have hbreakdowns := breakdowns_eq predictions
  refine ⟨hcurrent, hbest, ?_, ?_, rfl, rfl, ?_, ?_, ?_, ?_⟩
  · exact hbest.2 (Streaks.runs_subset_blocks Won entries hcurrent.1)
  · exact Streaks.le_length_of_mem_blocks Won hbest.1
  · exact List.countP_eq_length_filter.symm
  · simp only [statsData, hbreakdowns]
    exact partitions_cells _ predictions
  · simp only [statsData, hbreakdowns]
    exact partitions_cells _ predictions
  · simp only [statsData, hbreakdowns]
    exact partitions_months predictions

end Proof

section Storing
variable {row : UserStats} {t : Table UserStats}

theorem find_upsert : (upsert row t).find row.userId = some row := by
  unfold upsert
  split_ifs with h
  · rw [Table.find_eq_some_iff]
    exact ⟨by simp, rfl⟩
  · obtain ⟨old, hold⟩ := Option.ne_none_iff_exists'.1 h
    have hid : old.userId = row.userId := ((t.find_eq_some_iff _ _).1 hold).2
    rw [Table.find_update_self _ _ (by intro r; rfl) hold, hid]

/-- The rows of other users stay. -/
theorem find_upsert_of_ne {userId : ℕ} (hne : userId ≠ row.userId) :
    (upsert row t).find userId = t.find userId := by
  unfold upsert
  split_ifs with h
  · unfold Table.find
    have hrow : ¬ Row.id row = userId := fun hid => hne hid.symm
    simp [List.find?_append, hrow]
  · exact Table.find_update_of_ne _ _ (by intro r; rfl) hne

theorem upsert_upsert : upsert row (upsert row t) = upsert row t := by
  have hfind : (upsert row t).find row.userId = some row := find_upsert
  generalize upsert row t = t' at hfind
  have hne : ¬ t'.find row.userId = none := by rw [hfind]; simp
  unfold upsert
  rw [dif_neg hne]
  apply Table.ext_rows
  rw [Table.update, Table.rows_updateWhere]
  refine (List.map_congr_left (fun r hr => ?_)).trans (List.map_id _)
  split_ifs with hid
  · have hsame := t'.find_id hr
    rw [hid, hfind, Option.some.injEq] at hsame
    rw [← hsame, id_eq]
  · rfl

/-- A replay of the event recomputes the same projection. -/
theorem recomputeForUser_again (userId : ℕ) (s : Store) :
    recomputeForUser userId (recomputeForUser userId s) = recomputeForUser userId s := by
  let row := statsData userId (settledEntries s.db userId) (scoredPredictions s userId)
  have hagain : upsert row (upsert row s.userStats) = upsert row s.userStats := upsert_upsert
  exact congrArg (fun t => { s with userStats := t }) hagain

/-- Whatever entries and predictions the reads return, and whatever the table holds, the row that
is stored for the user is their projection, and no other row changes. -/
theorem store_projects (userId : ℕ) (entries : List SettledEntry)
    (predictions : List ScoredPrediction) (t : Table UserStats) :
    (∃ row, (store userId entries predictions t).find userId = some row ∧
        Projects entries predictions row) ∧
      ∀ other, other ≠ userId → (store userId entries predictions t).find other = t.find other :=
  ⟨⟨_, find_upsert, projects_statsData userId entries predictions⟩,
    fun _ hne => find_upsert_of_ne hne⟩

end Storing

end Stats
end FootballIQ
