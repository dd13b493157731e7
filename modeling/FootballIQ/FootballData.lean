import FootballIQ.ResultsPoller
import Mathlib.Data.List.Sort

/-!
# Match payloads of the football-data provider

The adapter translates a payload into a canonical fixture and derives the first
scorer from the score, or from the goals feed where both sides scored: the feed is
sorted by minute and injury time, and the team of its first goal is looked at.
-/

namespace FootballIQ
namespace FootballData

open Transaction Relational Results ResultsPoller

structure Goal where
  minute : Option ℕ
  injuryTime : Option ℕ
  teamId : ℕ
  deriving DecidableEq

structure Score where
  home : Option ℕ
  away : Option ℕ
  deriving DecidableEq

/-- A match of the provider, with the fields that the translation reads for a result. The
teams of an undecided tie have no id. -/
structure FdMatch where
  id : ℕ
  utcDate : DateTime
  status : String
  homeTeamId : Option ℕ
  awayTeamId : Option ℕ
  fullTime : Score
  halfTime : Score
  goals : Option (List Goal)
  deriving DecidableEq

section Mapping

/-- `STATUS_MAP`; a status it does not list is read as scheduled. -/
def statusMap (status : String) : FixtureStatus :=
  if status = "SCHEDULED" ∨ status = "TIMED" then .scheduled
  else if status = "IN_PLAY" ∨ status = "PAUSED" then .live
  else if status = "FINISHED" ∨ status = "AWARDED" then .finished
  else if status = "POSTPONED" ∨ status = "SUSPENDED" then .postponed
  else if status = "CANCELLED" then .cancelled
  else .scheduled

/-- The minute counts a hundredfold, so that injury time stays before the next minute. -/
def goalKey (g : Goal) : ℕ := g.minute.getD 0 * 100 + g.injuryTime.getD 0

def goalSide (m : FdMatch) (g : Goal) : FirstToScore :=
  if some g.teamId = m.homeTeamId then .home else .away

def deriveFirstToScore (m : FdMatch) : Option FirstToScore :=
  match m.fullTime.home, m.fullTime.away with
  | some home, some away =>
    if home + away = 0 then some .none
    else if 0 < home ∧ away = 0 then some .home
    else if 0 < away ∧ home = 0 then some .away
    else ((m.goals.getD []).insertionSort (fun a b => goalKey a ≤ goalKey b)).head?.map
      (goalSide m)
  | _, _ => none

def toCanonicalFixture (m : FdMatch) : RemoteFixture where
  providerRef := toString m.id
  kickoffAt := m.utcDate
  status := statusMap m.status
  homeGoals := m.fullTime.home
  awayGoals := m.fullTime.away
  htHomeGoals := m.halfTime.home
  htAwayGoals := m.halfTime.away
  firstToScore := deriveFirstToScore m

end Mapping

section Statements

/-- The first goal of a feed by the key: none before it is as early, none after it earlier. -/
def FirstGoal (gs : List Goal) (g : Goal) : Prop :=
  ∃ before after, gs = before ++ g :: after ∧ (∀ x ∈ before, goalKey g < goalKey x) ∧
    ∀ x ∈ after, goalKey g ≤ goalKey x

/-- The two refinements of the request's schema. -/
structure Refined (result : FinalizeResultRequest) : Prop where
  halfTime : result.htHomeGoals ≤ result.homeGoals ∧ result.htAwayGoals ≤ result.awayGoals
  goalless : result.homeGoals + result.awayGoals = 0 ↔ result.firstToScore = .none

end Statements

section Derivation
variable {m : FdMatch}

theorem statusMap_finished_iff (status : String) :
    statusMap status = .finished ↔ status = "FINISHED" ∨ status = "AWARDED" := by
  unfold statusMap
  split_ifs with hs hl hf
  · rcases hs with rfl | rfl <;> decide
  · rcases hl with rfl | rfl <;> decide
  all_goals simp [hf]

/-- The head of the sorted feed is its first goal. -/
theorem firstGoal_of_head {gs : List Goal} {g : Goal}
    (h : (gs.insertionSort (fun a b => goalKey a ≤ goalKey b)).head? = some g) :
    FirstGoal gs g := by
  induction gs generalizing g with
  | nil => cases h
  | cons x gs ih =>
    rw [List.insertionSort_cons] at h
    cases hs : gs.insertionSort (fun a b => goalKey a ≤ goalKey b) with
    | nil =>
      have hnil : gs = [] :=
        List.length_eq_zero_iff.1 ((List.length_insertionSort _ gs).symm.trans (by rw [hs]; rfl))
      rw [hs] at h
      cases h
      exact ⟨[], gs, rfl, by simp, by simp [hnil]⟩
    | cons y ys =>
      obtain ⟨before, after, hgs, hbefore, hafter⟩ := ih (g := y) (by rw [hs]; rfl)
      have hy : ∀ z ∈ gs, goalKey y ≤ goalKey z := by
        intro z hz
        rw [hgs, List.mem_append, List.mem_cons] at hz
        rcases hz with hz | rfl | hz
        · exact (hbefore z hz).le
        · exact le_refl _
        · exact hafter z hz
      rw [hs, List.orderedInsert_cons] at h
      by_cases hxy : goalKey x ≤ goalKey y
      · rw [if_pos hxy] at h
        cases h
        exact ⟨[], gs, rfl, by simp, fun z hz => hxy.trans (hy z hz)⟩
      · rw [if_neg hxy] at h
        cases h
        refine ⟨x :: before, after, by rw [hgs, List.cons_append], ?_, hafter⟩
        intro z hz
        rcases List.mem_cons.1 hz with rfl | hz
        · omega
        · exact hbefore z hz

theorem derive_eq_none_iff : deriveFirstToScore m = none ↔ m.fullTime.home = none ∨
    m.fullTime.away = none ∨
    (m.fullTime.home ≠ some 0 ∧ m.fullTime.away ≠ some 0 ∧ m.goals.getD [] = []) := by
  unfold deriveFirstToScore
  split
  · rename_i home away hh ha
    have hlen := List.length_insertionSort (fun a b => goalKey a ≤ goalKey b) (m.goals.getD [])
    simp only [hh, ha, reduceCtorEq, ne_eq, Option.some.injEq, false_or]
    split_ifs with hnone hhome haway
    · simp only [false_iff]
      omega
    · simp only [false_iff]
      omega
    · simp only [false_iff]
      omega
    · rw [Option.map_eq_none_iff, List.head?_eq_none_iff, ← List.length_eq_zero_iff, hlen,
        List.length_eq_zero_iff]
      constructor
      · intro hgoals
        exact ⟨by omega, by omega, hgoals⟩
      · exact fun h => h.2.2
  · rename_i hnot
    refine iff_of_true rfl ?_
    cases hh : m.fullTime.home with
    | none => exact Or.inl rfl
    | some home =>
      cases ha : m.fullTime.away with
      | none => exact Or.inr (Or.inl rfl)
      | some away => exact absurd ha (hnot home away hh)

theorem autoResult_eq_some_iff (result : FinalizeResultRequest) :
    autoResult (toCanonicalFixture m) = some result ↔
      (m.status = "FINISHED" ∨ m.status = "AWARDED") ∧ m.fullTime.home = some result.homeGoals ∧
        m.fullTime.away = some result.awayGoals ∧
        m.halfTime.home.getD 0 = result.htHomeGoals ∧
        m.halfTime.away.getD 0 = result.htAwayGoals ∧
        deriveFirstToScore m = some result.firstToScore := by
  rw [← statusMap_finished_iff]
  unfold autoResult toCanonicalFixture
  obtain ⟨home, away, htHome, htAway, first⟩ := result
  cases statusMap m.status <;> cases m.fullTime.home <;> cases m.fullTime.away <;>
    cases deriveFirstToScore m <;> simp

end Derivation

end FootballData
end FootballIQ
