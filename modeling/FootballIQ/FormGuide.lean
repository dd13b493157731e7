import FootballIQ.Difficulty
import FootballIQ.FootballData

/-!
# The form guide of football-data

The adapter counts the form of a team from its last five matches, and the head to head from the
meetings among the home side's matches. Four signals of the engine come from these, and the engine
does not tell the two sides apart, so a fixture is as hard to predict as the return match.
-/

namespace FootballIQ
namespace FormGuide

open FootballData Difficulty

section Adapter

/-- `String(id)` of a side; a side that is not decided yet has the id null. -/
def sideRef : Option ℕ → String
  | some id => toString id
  | none => "null"

/-- `slice(-n)`. -/
def lastOf {α : Type} (n : ℕ) (l : List α) : List α := l.drop (l.length - n)

structure CanonicalTeamForm where
  teamRef : String
  last5 : List FormResult
  goalsScoredLast5 : ℕ
  goalsConcededLast5 : ℕ
  deriving DecidableEq

structure CanonicalHeadToHead where
  homeWins : ℕ
  awayWins : ℕ
  draws : ℕ
  matchCount : ℕ
  deriving DecidableEq

/-- The goals of a team and of its opponent; a missing score counts as zero. -/
def goalsFor (teamRef : String) (m : FdMatch) : ℕ × ℕ :=
  if sideRef m.homeTeamId = teamRef then (m.fullTime.home.getD 0, m.fullTime.away.getD 0)
  else (m.fullTime.away.getD 0, m.fullTime.home.getD 0)

def formResult (goals : ℕ × ℕ) : FormResult :=
  if goals.1 > goals.2 then .win else if goals.1 < goals.2 then .loss else .draw

def formFromMatches (teamRef : String) (matchList : List FdMatch) : CanonicalTeamForm :=
  let goals := (lastOf 5 matchList).map (goalsFor teamRef)
  { teamRef := teamRef
    last5 := goals.map formResult
    goalsScoredLast5 := (goals.map Prod.fst).sum
    goalsConcededLast5 := (goals.map Prod.snd).sum }

def winnerRef (m : FdMatch) : String :=
  if m.fullTime.home.getD 0 > m.fullTime.away.getD 0 then sideRef m.homeTeamId
  else sideRef m.awayTeamId

def countMeeting (homeRef : String) (h2h : CanonicalHeadToHead) (m : FdMatch) :
    CanonicalHeadToHead :=
  if m.fullTime.home.getD 0 = m.fullTime.away.getD 0 then { h2h with draws := h2h.draws + 1 }
  else if winnerRef m = homeRef then { h2h with homeWins := h2h.homeWins + 1 }
  else { h2h with awayWins := h2h.awayWins + 1 }

def h2hFromMatches (homeRef : String) (meetings : List FdMatch) : CanonicalHeadToHead :=
  { meetings.foldl (countMeeting homeRef) ⟨0, 0, 0, 0⟩ with matchCount := meetings.length }

/-- What the provider has answered about a fixture's teams: the latest matches of each, and the
longer history of the home side. -/
structure Feeds where
  home : List FdMatch
  away : List FdMatch
  history : List FdMatch
  deriving DecidableEq

def getTeamForm (teamRef : String) (matchList : List FdMatch) : Option CanonicalTeamForm :=
  if matchList = [] then none else some (formFromMatches teamRef matchList)

def meetingsWith (awayRef : String) (history : List FdMatch) : List FdMatch :=
  lastOf 10 (history.filter
    (fun m => sideRef m.homeTeamId = awayRef ∨ sideRef m.awayTeamId = awayRef))

def getHeadToHead (homeRef awayRef : String) (history : List FdMatch) :
    Option CanonicalHeadToHead :=
  if meetingsWith awayRef history = [] then none
  else some (h2hFromMatches homeRef (meetingsWith awayRef history))

def CanonicalTeamForm.toInput (form : CanonicalTeamForm) : TeamFormInput where
  last5 := form.last5
  leaguePosition := none
  goalDifference := none
  goalsScoredLast5 := some form.goalsScoredLast5
  goalsConcededLast5 := some form.goalsConcededLast5
  injuriesCount := none
  suspensionsCount := none

def CanonicalHeadToHead.toInput (h2h : CanonicalHeadToHead) : HeadToHead :=
  ⟨h2h.homeWins, h2h.awayWins, h2h.draws, h2h.matchCount⟩

/-- The input `{}` of a provider that has nothing or has failed. -/
def noInput : DifficultyInput := ⟨none, none, none, none, none⟩

/-- What the difficulty job hands to the engine. -/
def inputOf (homeRef awayRef : String) (feeds : Feeds) : DifficultyInput where
  home := (getTeamForm homeRef feeds.home).map CanonicalTeamForm.toInput
  away := (getTeamForm awayRef feeds.away).map CanonicalTeamForm.toInput
  headToHead := (getHeadToHead homeRef awayRef feeds.history).map CanonicalHeadToHead.toInput
  homeWinRate := none
  tableSize := none

end Adapter

section Counts
variable {ref other : String} {meetings : List FdMatch}

theorem mem_of_mem_lastOf {α : Type} {n : ℕ} {l : List α} {a : α} (h : a ∈ lastOf n l) : a ∈ l :=
  List.mem_of_mem_drop h

/-- The two teams of a match are these two. -/
def Between (ref other : String) (m : FdMatch) : Prop :=
  (sideRef m.homeTeamId = ref ∨ sideRef m.awayTeamId = ref) ∧
    (sideRef m.homeTeamId = other ∨ sideRef m.awayTeamId = other)

/-- Between two teams one of them wins. -/
theorem winnerRef_other (hne : ref ≠ other) {m : FdMatch} (hm : Between ref other m) :
    winnerRef m = other ↔ winnerRef m ≠ ref := by
  have hsides : (sideRef m.homeTeamId = ref ∧ sideRef m.awayTeamId = other) ∨
      sideRef m.homeTeamId = other ∧ sideRef m.awayTeamId = ref := by
    obtain ⟨href | href, hother | hother⟩ := hm
    · exact absurd (href.symm.trans hother) hne
    · exact Or.inl ⟨href, hother⟩
    · exact Or.inr ⟨hother, href⟩
    · exact absurd (href.symm.trans hother) hne
  unfold winnerRef
  rcases hsides with ⟨hh, ha⟩ | ⟨hh, ha⟩
  · rw [hh, ha]
    split_ifs <;> simp [hne, hne.symm]
  · rw [hh, ha]
    split_ifs <;> simp [hne, hne.symm]

def CanonicalHeadToHead.swap (h2h : CanonicalHeadToHead) : CanonicalHeadToHead :=
  { h2h with homeWins := h2h.awayWins, awayWins := h2h.homeWins }

theorem countMeeting_swap (hne : ref ≠ other) {m : FdMatch} (hm : Between ref other m)
    (h2h : CanonicalHeadToHead) :
    countMeeting other h2h.swap m = (countMeeting ref h2h m).swap := by
  have hwinner := winnerRef_other hne hm
  unfold countMeeting
  split_ifs with hdraw hother href
  · rfl
  · exact absurd href (hwinner.1 hother)
  · rfl
  · rfl
  · exact absurd (hwinner.2 ‹_›) hother

/-- Counted for the other team the wins change sides. -/
theorem h2hFromMatches_swap (hne : ref ≠ other) (hm : ∀ m ∈ meetings, Between ref other m) :
    h2hFromMatches other meetings = (h2hFromMatches ref meetings).swap := by
  have hfold : ∀ (ms : List FdMatch) (h2h : CanonicalHeadToHead),
      (∀ m ∈ ms, Between ref other m) →
      ms.foldl (countMeeting other) h2h.swap = (ms.foldl (countMeeting ref) h2h).swap := by
    intro ms
    induction ms with
    | nil => exact fun _ _ => rfl
    | cons m ms ih =>
      intro h2h hms
      rw [List.foldl_cons, List.foldl_cons, countMeeting_swap hne (hms m List.mem_cons_self),
        ih _ (fun m' hm' => hms m' (List.mem_cons_of_mem m hm'))]
  have hcounts := hfold meetings ⟨0, 0, 0, 0⟩ hm
  unfold h2hFromMatches
  rw [show (⟨0, 0, 0, 0⟩ : CanonicalHeadToHead) = CanonicalHeadToHead.swap ⟨0, 0, 0, 0⟩ from rfl,
    hcounts]
  rfl

end Counts

section Sides
variable {input : DifficultyInput}

/-- The same data with the sides exchanged. -/
def swap (input : DifficultyInput) : DifficultyInput :=
  { input with
    home := input.away
    away := input.home
    headToHead := input.headToHead.map
      (fun h2h => { h2h with homeWins := h2h.awayWins, awayWins := h2h.homeWins }) }

theorem both_swap (field : TeamFormInput → Option ℚ) :
    both (swap input) field = (both input field).map Prod.swap := by
  unfold both swap
  cases input.home with
  | none => cases input.away <;> rfl
  | some home =>
    cases input.away with
    | none => simp
    | some away => cases hh : field home <;> cases ha : field away <;> simp [hh, ha]

theorem closeness_swap (field : TeamFormInput → Option ℚ) (span : ℚ) :
    closeness (swap input) field span = closeness input field span := by
  unfold closeness
  rw [both_swap, Option.map_map]
  congr 1
  funext v
  simp [abs_sub_comm]

theorem absences_swap (field : TeamFormInput → Option ℚ) (span : ℚ) :
    absences (swap input) field span = absences input field span := by
  unfold absences
  rw [both_swap, Option.map_map]
  congr 1
  funext v
  simp [add_comm]

/-- The engine does not tell the sides apart. -/
theorem computeSignals_swap (input : DifficultyInput) :
    computeSignals (swap input) = computeSignals input := by
  funext k
  cases k with
  | form =>
    simp only [computeSignals, swap]
    cases input.home with
    | none => cases input.away <;> rfl
    | some home =>
      cases input.away with
      | none => rfl
      | some away => simp [and_comm, abs_sub_comm]
  | headToHead =>
    simp only [computeSignals, swap]
    cases input.headToHead with
    | none => rfl
    | some h2h => simp [abs_sub_comm]
  | leaguePosition | goalDifference | recentGoals | defensiveRecord => exact closeness_swap _ _
  | injuries | suspensions => exact absences_swap _ _
  | homeAdvantage | historical => rfl

end Sides

section Rating
variable {homeRef awayRef : String} {feeds : Feeds} {history : List FdMatch} {k : SignalName}

/-- The signals that the provider's data can supply. -/
def suppliedSignals : List SignalName := [.form, .headToHead, .recentGoals, .defensiveRecord]

theorem both_eq_none {input : DifficultyInput} {field : TeamFormInput → Option ℚ}
    (h : ∀ home, input.home = some home → field home = none) : both input field = none := by
  unfold both
  cases hhome : input.home with
  | none => rfl
  | some home => cases input.away <;> simp [h home hhome]

theorem mem_suppliedSignals (h : computeSignals (inputOf homeRef awayRef feeds) k ≠ none) :
    k ∈ suppliedSignals := by
  have hnone : ∀ field : TeamFormInput → Option ℚ, (∀ form : CanonicalTeamForm,
      field form.toInput = none) → both (inputOf homeRef awayRef feeds) field = none := by
    intro field hfield
    apply both_eq_none
    intro home hhome
    obtain ⟨form, _, rfl⟩ := Option.map_eq_some_iff.1 hhome
    exact hfield form
  cases k with
  | form | headToHead | recentGoals | defensiveRecord => decide
  | homeAdvantage | historical => exact absurd rfl h
  | leaguePosition | goalDifference =>
    refine absurd ?_ h
    simp only [computeSignals, closeness]
    rw [hnone _ (fun _ => rfl), Option.map_none]
  | injuries | suspensions =>
    refine absurd ?_ h
    simp only [computeSignals, absences]
    rw [hnone _ (fun _ => rfl), Option.map_none]

theorem between_of_mem {m : FdMatch} (hm : m ∈ meetingsWith awayRef feeds.history)
    (heq : meetingsWith homeRef history = meetingsWith awayRef feeds.history) :
    Between homeRef awayRef m := by
  have hhome : m ∈ meetingsWith homeRef history := heq ▸ hm
  exact ⟨by simpa using (List.mem_filter.1 (mem_of_mem_lastOf hhome)).2,
    by simpa using (List.mem_filter.1 (mem_of_mem_lastOf hm)).2⟩

theorem inputOf_swap (hne : homeRef ≠ awayRef)
    (heq : meetingsWith homeRef history = meetingsWith awayRef feeds.history) :
    inputOf awayRef homeRef ⟨feeds.away, feeds.home, history⟩ =
      swap (inputOf homeRef awayRef feeds) := by
  have hh2h : getHeadToHead awayRef homeRef history =
      (getHeadToHead homeRef awayRef feeds.history).map CanonicalHeadToHead.swap := by
    unfold getHeadToHead
    rw [heq]
    split_ifs with hnil
    · rfl
    · rw [Option.map_some, h2hFromMatches_swap hne (fun m hm => between_of_mem hm heq)]
  simp only [inputOf, swap, hh2h, Option.map_map]
  rfl

/-- A fixture and the return match get the same rating, whatever the teams' matches and the
weights are, as long as the histories of both show the same last meetings; and the weights of six
of the ten signals never matter. -/
theorem rating_fair (hne : homeRef ≠ awayRef)
    (heq : meetingsWith homeRef history = meetingsWith awayRef feeds.history) {weights
      weights' : Weights} (hweights : ∀ k ∈ suppliedSignals, weights' k = weights k) :
    computeStars (inputOf awayRef homeRef ⟨feeds.away, feeds.home, history⟩) weights' =
      computeStars (inputOf homeRef awayRef feeds) weights := by
  have hscore : weightedScore (computeSignals (inputOf homeRef awayRef feeds)) weights' =
      weightedScore (computeSignals (inputOf homeRef awayRef feeds)) weights :=
    weightedScore_congr (fun k hk => hweights k (mem_suppliedSignals hk))
  simp only [computeStars, inputOf_swap hne heq, computeSignals_swap, hscore]

end Rating

section Sample

def played (homeTeamId awayTeamId homeGoals awayGoals : ℕ) : FdMatch :=
  ⟨0, 0, "FINISHED", some homeTeamId, some awayTeamId, ⟨some homeGoals, some awayGoals⟩,
    ⟨none, none⟩, none⟩

/-- Four meetings of the teams 57 and 61. -/
def derbies : List FdMatch :=
  [played 57 61 2 0, played 61 57 0 1, played 57 61 1 1, played 61 57 2 0]

example : h2hFromMatches "57" derbies = ⟨2, 1, 1, 4⟩ := by decide +kernel

/-- Each history has a match against a third team, and team 57 has lost its last one. -/
def derbyFeeds : Feeds := ⟨derbies ++ [played 57 65 0 3], derbies, derbies ++ [played 57 65 0 3]⟩

theorem rating_fair_derby :
    computeStars (inputOf "61" "57" ⟨derbyFeeds.away, derbyFeeds.home, played 61 65 1 0 :: derbies⟩)
        (Function.update equalWeights .injuries (some 7)) =
      computeStars (inputOf "57" "61" derbyFeeds) equalWeights ∧
    (computeStars (inputOf "57" "61" derbyFeeds) equalWeights).stars = 4 := by
  refine ⟨rating_fair (by decide) (by decide +kernel) ?_, by decide +kernel⟩
  intro k hk
  apply Function.update_of_ne
  rintro rfl
  exact absurd hk (by decide)

end Sample

end FormGuide
end FootballIQ
