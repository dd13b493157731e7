import FootballIQ.FootballData

/-!
# The first scorer by the goals feed

Where both sides scored, the feed decides. The sort reads an unknown minute as minute zero, and
the team of the first goal counts as the away side unless it is the home side. So the answer is
backed by the feed exactly when no minute is unknown and the goal that is found, or one as early,
belongs to the side that is named.
-/

namespace FootballIQ
namespace FootballData

section Order

/-- The goal is no later than the other, by minute and then by injury time. -/
def NoLater (g g' : Goal) : Prop :=
  ∃ m ∈ g.minute, ∃ m' ∈ g'.minute,
    m < m' ∨ (m = m' ∧ g.injuryTime.getD 0 ≤ g'.injuryTime.getD 0)

def Earliest (gs : List Goal) (g : Goal) : Prop := g ∈ gs ∧ ∀ g' ∈ gs, NoLater g g'

/-- The first in the feed among its earliest goals. -/
def ListedFirst (gs : List Goal) (g : Goal) : Prop :=
  Earliest gs g ∧ ∃ before after, gs = before ++ g :: after ∧ ∀ x ∈ before, ¬ Earliest gs x

def MinutesKnown (gs : List Goal) : Prop := ∀ g ∈ gs, g.minute ≠ none

/-- The feed shows a goal of the side that is as early as any, and knows every minute. -/
def Shows (gs : List Goal) (side : Option ℕ) : Prop :=
  MinutesKnown gs ∧ ∃ g, Earliest gs g ∧ some g.teamId = side

/-- What is answered is a side that the feed shows first. -/
def NeverGuesses (m : FdMatch) : Prop :=
  ∀ answer ∈ deriveFirstToScore m, (answer = .home ∧ Shows (m.goals.getD []) m.homeTeamId) ∨
    (answer = .away ∧ Shows (m.goals.getD []) m.awayTeamId)

variable {gs : List Goal} {g g' : Goal}

/-- With injury times below a hundred the key orders goals of known minutes by their time. -/
theorem goalKey_le_iff (hg : g.minute ≠ none) (hg' : g'.minute ≠ none)
    (hinjury : g.injuryTime.getD 0 < 100) (hinjury' : g'.injuryTime.getD 0 < 100) :
    goalKey g ≤ goalKey g' ↔ NoLater g g' := by
  obtain ⟨m, hm⟩ := Option.ne_none_iff_exists'.1 hg
  obtain ⟨m', hm'⟩ := Option.ne_none_iff_exists'.1 hg'
  simp only [goalKey, NoLater, hm, hm', Option.getD_some, Option.mem_some_iff, exists_eq_left']
  omega

/-- The head of the sorted feed is the first of its earliest goals. -/
theorem listedFirst_of_firstGoal (hknown : MinutesKnown gs)
    (hinjury : ∀ g ∈ gs, g.injuryTime.getD 0 < 100) (h : FirstGoal gs g) : ListedFirst gs g := by
  obtain ⟨before, after, hgs, hbefore, hafter⟩ := h
  have hmem : g ∈ gs := by simp [hgs]
  have hle : ∀ {x y : Goal}, x ∈ gs → y ∈ gs → (goalKey x ≤ goalKey y ↔ NoLater x y) := by
    intro x y hx hy
    exact goalKey_le_iff (hknown x hx) (hknown y hy) (hinjury x hx) (hinjury y hy)
  refine ⟨⟨hmem, fun x hx => (hle hmem hx).1 ?_⟩, before, after, hgs, fun x hx hearliest => ?_⟩
  · rw [hgs, List.mem_append, List.mem_cons] at hx
    rcases hx with hx | rfl | hx
    · exact (hbefore x hx).le
    · exact le_refl _
    · exact hafter x hx
  · have hlater := hbefore x hx
    have hsooner := (hle hearliest.1 hmem).2 (hearliest.2 g hmem)
    omega

theorem ListedFirst.unique (h : ListedFirst gs g) (h' : ListedFirst gs g') : g = g' := by
  obtain ⟨hg, before, after, hgs, hbefore⟩ := h
  obtain ⟨hg', before', after', hgs', hbefore'⟩ := h'
  have hsame := hgs.symm.trans hgs'
  rw [List.append_eq_append_iff] at hsame
  rcases hsame with ⟨mid, rfl, htail⟩ | ⟨mid, rfl, htail⟩
  · cases mid with
    | nil => exact (List.cons.inj htail).1
    | cons x mid =>
      obtain ⟨rfl, _⟩ := List.cons.inj htail
      exact absurd hg (hbefore' g (by simp))
  · cases mid with
    | nil => exact (List.cons.inj htail).1.symm
    | cons x mid =>
      obtain ⟨rfl, _⟩ := List.cons.inj htail
      exact absurd hg' (hbefore g' (by simp))

end Order

section Answer
variable {m : FdMatch}

/-- With goals on both sides the answer is the side of the first goal of the feed. -/
theorem deriveFirstToScore_of_both {h a : ℕ} (hhome : m.fullTime.home = some h) (hh : 0 < h)
    (haway : m.fullTime.away = some a) (ha : 0 < a) :
    deriveFirstToScore m = (((m.goals.getD []).insertionSort
      (fun a b => goalKey a ≤ goalKey b)).head?.map (goalSide m)) := by
  unfold deriveFirstToScore
  rw [hhome, haway]
  simp only
  rw [if_neg (by omega), if_neg (by omega), if_neg (by omega)]

/-- With known minutes the side of the first goal is one that the feed shows, unless the goal is
neither side's and no goal of the away side is as early. -/
theorem shows_goalSide_iff {gs : List Goal} {g : Goal} (hknown : MinutesKnown gs)
    (hlisted : ListedFirst gs g) :
    ((goalSide m g = .home ∧ Shows gs m.homeTeamId) ∨
        (goalSide m g = .away ∧ Shows gs m.awayTeamId)) ↔
      (∃ g, ListedFirst gs g ∧ some g.teamId = m.homeTeamId) ∨
        ∃ g, Earliest gs g ∧ some g.teamId = m.awayTeamId := by
  by_cases hside : some g.teamId = m.homeTeamId
  · have hhome : goalSide m g = .home := by rw [goalSide, if_pos hside]
    exact iff_of_true (Or.inl ⟨hhome, hknown, g, hlisted.1, hside⟩) (Or.inl ⟨g, hlisted, hside⟩)
  · have haway : goalSide m g = .away := by rw [goalSide, if_neg hside]
    rw [haway]
    constructor
    · rintro (⟨hnot, _⟩ | ⟨_, _, hshown⟩)
      · cases hnot
      · exact Or.inr hshown
    · rintro (⟨g', hlisted', hside'⟩ | hshown)
      · rw [← hlisted.unique hlisted'] at hside'
        exact absurd hside' hside
      · exact Or.inr ⟨rfl, hknown, hshown⟩

/-- The answer is backed by the feed exactly when there is no feed, or every minute is known and
the first of the earliest goals is the home side's or some earliest goal the away side's. -/
theorem neverGuesses_iff {h a : ℕ} (hhome : m.fullTime.home = some h) (hh : 0 < h)
    (haway : m.fullTime.away = some a) (ha : 0 < a)
    (hinjury : ∀ g ∈ m.goals.getD [], g.injuryTime.getD 0 < 100) :
    NeverGuesses m ↔ m.goals.getD [] = [] ∨ (MinutesKnown (m.goals.getD []) ∧
      ((∃ g, ListedFirst (m.goals.getD []) g ∧ some g.teamId = m.homeTeamId) ∨
        ∃ g, Earliest (m.goals.getD []) g ∧ some g.teamId = m.awayTeamId)) := by
  have hanswer := deriveFirstToScore_of_both hhome hh haway ha
  unfold NeverGuesses
  rw [hanswer]
  generalize m.goals.getD [] = gs at hinjury
  cases hhead : (gs.insertionSort (fun a b => goalKey a ≤ goalKey b)).head? with
  | none =>
    rw [List.head?_eq_none_iff, ← List.length_eq_zero_iff, List.length_insertionSort,
      List.length_eq_zero_iff] at hhead
    exact iff_of_true (by simp) (Or.inl hhead)
  | some g =>
    have hfirst := firstGoal_of_head hhead
    have hne : gs ≠ [] := by
      rintro rfl
      cases hhead
    rw [or_iff_right hne]
    simp only [Option.map_some, Option.mem_some_iff, forall_eq']
    by_cases hknown : MinutesKnown gs
    · have hlisted := listedFirst_of_firstGoal hknown hinjury hfirst
      rw [shows_goalSide_iff hknown hlisted]
      exact (and_iff_right hknown).symm
    · refine iff_of_false ?_ (fun h => hknown h.1)
      rintro (⟨_, hshows⟩ | ⟨_, hshows⟩)
      · exact hknown hshows.1
      · exact hknown hshows.1

/-- Both sides scored. The minute of the second entry is unknown, and its goal is taken for the
first one. -/
def unknownMinute : FdMatch :=
  ⟨497555, 0, "FINISHED", some 57, some 61, ⟨some 1, some 1⟩, ⟨some 0, some 1⟩,
    some [⟨some 12, none, 61⟩, ⟨none, none, 57⟩]⟩

theorem neverGuesses_iff_unknownMinute :
    NeverGuesses unknownMinute ↔ unknownMinute.goals.getD [] = [] ∨
      (MinutesKnown (unknownMinute.goals.getD []) ∧
        ((∃ g, ListedFirst (unknownMinute.goals.getD []) g ∧
            some g.teamId = unknownMinute.homeTeamId) ∨
          ∃ g, Earliest (unknownMinute.goals.getD []) g ∧
            some g.teamId = unknownMinute.awayTeamId)) :=
  neverGuesses_iff rfl (by decide) rfl (by decide) (by decide)

theorem guesses_unknownMinute : deriveFirstToScore unknownMinute = some .home ∧
    ¬ NeverGuesses unknownMinute := by
  have hanswer : deriveFirstToScore unknownMinute = some .home := by decide
  refine ⟨hanswer, fun h => ?_⟩
  rcases h .home hanswer with ⟨_, hknown, _⟩ | ⟨hnot, _⟩
  · exact hknown ⟨none, none, 57⟩ (by decide) rfl
  · cases hnot

/-- A goal of neither side is taken for the away side's. -/
def foreignGoal : FdMatch :=
  ⟨497555, 0, "FINISHED", some 57, some 61, ⟨some 1, some 1⟩, ⟨some 0, some 1⟩,
    some [⟨some 5, none, 99⟩, ⟨some 12, none, 57⟩, ⟨some 40, none, 61⟩]⟩

example : deriveFirstToScore foreignGoal = some .away := by decide

end Answer

end FootballData
end FootballIQ
