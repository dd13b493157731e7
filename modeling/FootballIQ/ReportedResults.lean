import FootballIQ.FirstScorer

/-!
# Results as reported

The poller finalizes a fixture from the translation of a payload. What it stores is what the
payload reports when both half-time scores are there and fit the full-time score, and the feed,
where it decides, shows the side that is named. A missing half-time score is stored as zero,
and a goal of unknown minute or of a third team names a side like any other.
-/

namespace FootballIQ
namespace FootballData

open Transaction Relational Results ResultsPoller

section Statements

/-- Who scored first, as the payload tells it: by the score where one side has no goal, by
what the goals feed shows where both have. -/
inductive ScoredFirst (m : FdMatch) : FirstToScore → Prop where
  | goalless (hh : m.fullTime.home = some 0) (ha : m.fullTime.away = some 0) :
      ScoredFirst m .none
  | onlyHome {h : ℕ} (hpos : 0 < h) (hh : m.fullTime.home = some h)
      (ha : m.fullTime.away = some 0) : ScoredFirst m .home
  | onlyAway {a : ℕ} (hpos : 0 < a) (hh : m.fullTime.home = some 0)
      (ha : m.fullTime.away = some a) : ScoredFirst m .away
  | feedHome {h a : ℕ} (hhpos : 0 < h) (hapos : 0 < a) (hh : m.fullTime.home = some h)
      (ha : m.fullTime.away = some a) (hshown : Shows (m.goals.getD []) m.homeTeamId) :
      ScoredFirst m .home
  | feedAway {h a : ℕ} (hhpos : 0 < h) (hapos : 0 < a) (hh : m.fullTime.home = some h)
      (ha : m.fullTime.away = some a) (hshown : Shows (m.goals.getD []) m.awayTeamId) :
      ScoredFirst m .away

/-- Every field of the result comes from the payload. -/
structure Reported (m : FdMatch) (result : FinalizeResultRequest) : Prop where
  homeGoals : m.fullTime.home = some result.homeGoals
  awayGoals : m.fullTime.away = some result.awayGoals
  htHomeGoals : m.halfTime.home = some result.htHomeGoals
  htAwayGoals : m.halfTime.away = some result.htAwayGoals
  firstToScore : ScoredFirst m result.firstToScore

/-- If the fixture `f` is final in `db`, then by a result that the payload reports and the
schema accepts. -/
def FinalAsReported (m : FdMatch) (now : DateTime) (f : Fixture) (db : Db) : Prop :=
  ∀ f', db.fixtures.find f.id = some f' → f'.resultFinalizedAt ≠ none →
    ∃ result, f' = finalized now result f ∧ Reported m result ∧ Refined result

/-- The payload settles nothing: the match is not over, a score is missing, or both sides
scored and there is no feed. -/
def Undecided (m : FdMatch) : Prop :=
  (m.status ≠ "FINISHED" ∧ m.status ≠ "AWARDED") ∨ m.fullTime.home = none ∨
    m.fullTime.away = none ∨
    (m.fullTime.home ≠ some 0 ∧ m.fullTime.away ≠ some 0 ∧ m.goals.getD [] = [])

/-- Both half-time scores are there, and neither exceeds the full-time score. -/
def HalfTimeStands (m : FdMatch) : Prop :=
  (∃ ht ft, m.halfTime.home = some ht ∧ m.fullTime.home = some ft ∧ ht ≤ ft) ∧
    ∃ ht ft, m.halfTime.away = some ht ∧ m.fullTime.away = some ft ∧ ht ≤ ft

def OneSided (m : FdMatch) : Prop := m.fullTime.home = some 0 ∨ m.fullTime.away = some 0

/-- Every minute of the feed is known. Its first goal by the key is the home side's and one of
its earliest is too, or the first one is not and one of the earliest is the away side's. -/
def FeedStands (m : FdMatch) : Prop :=
  MinutesKnown (m.goals.getD []) ∧ ∃ g, FirstGoal (m.goals.getD []) g ∧
    ((some g.teamId = m.homeTeamId ∧
        ∃ g', Earliest (m.goals.getD []) g' ∧ some g'.teamId = m.homeTeamId) ∨
      (some g.teamId ≠ m.homeTeamId ∧
        ∃ g', Earliest (m.goals.getD []) g' ∧ some g'.teamId = m.awayTeamId))

end Statements

section Feed
variable {m : FdMatch}

theorem FirstGoal.unique {gs : List Goal} {g g' : Goal} (h : FirstGoal gs g)
    (h' : FirstGoal gs g') : g = g' := by
  obtain ⟨before, after, hgs, hbefore, hafter⟩ := h
  obtain ⟨before', after', hgs', hbefore', hafter'⟩ := h'
  have hsame := hgs.symm.trans hgs'
  rw [List.append_eq_append_iff] at hsame
  rcases hsame with ⟨mid, rfl, htail⟩ | ⟨mid, rfl, htail⟩
  · cases mid with
    | nil => exact (List.cons.inj htail).1
    | cons x mid =>
      obtain ⟨rfl, rfl⟩ := List.cons.inj htail
      exact absurd (hafter g' (by simp)) (not_le.2 (hbefore' g (by simp)))
  · cases mid with
    | nil => exact (List.cons.inj htail).1.symm
    | cons x mid =>
      obtain ⟨rfl, rfl⟩ := List.cons.inj htail
      exact absurd (hafter' g (by simp)) (not_le.2 (hbefore g' (by simp)))

theorem exists_firstGoal {gs : List Goal} (hne : gs ≠ []) : ∃ g, FirstGoal gs g := by
  cases hhead : (gs.insertionSort (fun a b => goalKey a ≤ goalKey b)).head? with
  | none =>
    rw [List.head?_eq_none_iff, ← List.length_eq_zero_iff, List.length_insertionSort,
      List.length_eq_zero_iff] at hhead
    exact absurd hhead hne
  | some g => exact ⟨g, firstGoal_of_head hhead⟩

theorem goalSide_eq_home_iff (g : Goal) : goalSide m g = .home ↔ some g.teamId = m.homeTeamId := by
  unfold goalSide
  split_ifs with hside
  · exact iff_of_true rfl hside
  · exact iff_of_false nofun hside

theorem goalSide_eq_away_iff (g : Goal) : goalSide m g = .away ↔ some g.teamId ≠ m.homeTeamId := by
  unfold goalSide
  split_ifs with hside
  · exact iff_of_false nofun (not_not.2 hside)
  · exact iff_of_true rfl hside

/-- The feed stands exactly when it shows the side of its first goal by the key. -/
theorem feedStands_iff_shows {g : Goal} (hfirst : FirstGoal (m.goals.getD []) g) :
    FeedStands m ↔ (goalSide m g = .home ∧ Shows (m.goals.getD []) m.homeTeamId) ∨
      (goalSide m g = .away ∧ Shows (m.goals.getD []) m.awayTeamId) := by
  rw [goalSide_eq_home_iff, goalSide_eq_away_iff]
  constructor
  · rintro ⟨hknown, g', hfirst', hside⟩
    rw [← hfirst.unique hfirst'] at hside
    rcases hside with ⟨hhome, hshown⟩ | ⟨haway, hshown⟩
    · exact Or.inl ⟨hhome, hknown, hshown⟩
    · exact Or.inr ⟨haway, hknown, hshown⟩
  · rintro (⟨hhome, hknown, hshown⟩ | ⟨haway, hknown, hshown⟩)
    · exact ⟨hknown, g, hfirst, Or.inl ⟨hhome, hshown⟩⟩
    · exact ⟨hknown, g, hfirst, Or.inr ⟨haway, hshown⟩⟩

/-- With injury times below a hundred: the first of the earliest goals is the home side's or
some earliest goal the away side's. -/
theorem feedStands_iff_earliest
    (hinjury : ∀ g ∈ m.goals.getD [], g.injuryTime.getD 0 < 100) :
    FeedStands m ↔ MinutesKnown (m.goals.getD []) ∧
      ((∃ g, ListedFirst (m.goals.getD []) g ∧ some g.teamId = m.homeTeamId) ∨
        ∃ g, Earliest (m.goals.getD []) g ∧ some g.teamId = m.awayTeamId) := by
  by_cases hne : m.goals.getD [] = []
  · refine iff_of_false ?_ ?_
    · rintro ⟨_, g, ⟨before, after, hgs, _⟩, _⟩
      rw [hne] at hgs
      cases before <;> cases hgs
    · rw [hne]
      rintro ⟨_, ⟨g, hlisted, _⟩ | ⟨g, hearliest, _⟩⟩
      · cases hlisted.1.1
      · cases hearliest.1
  · obtain ⟨g, hfirst⟩ := exists_firstGoal hne
    rw [feedStands_iff_shows hfirst]
    by_cases hknown : MinutesKnown (m.goals.getD [])
    · rw [shows_goalSide_iff hknown (listedFirst_of_firstGoal hknown hinjury hfirst),
        and_iff_right hknown]
    · refine iff_of_false ?_ (fun h => hknown h.1)
      rintro (⟨_, hshows⟩ | ⟨_, hshows⟩)
      · exact hknown hshows.1
      · exact hknown hshows.1

end Feed

section Derivation
variable {m : FdMatch}

theorem goalless_iff_none {home away : ℕ} {s : FirstToScore} (h : ScoredFirst m s)
    (hh : m.fullTime.home = some home) (ha : m.fullTime.away = some away) :
    home + away = 0 ↔ s = .none := by
  cases h with
  | goalless hh' ha' =>
    have hhome : home = 0 := Option.some.inj (hh.symm.trans hh')
    have haway : away = 0 := Option.some.inj (ha.symm.trans ha')
    simp only [hhome, haway]
  | onlyHome hpos hh' _ =>
    have hhome := Option.some.inj (hh.symm.trans hh')
    exact iff_of_false (by omega) (by simp)
  | onlyAway hpos _ ha' =>
    have haway := Option.some.inj (ha.symm.trans ha')
    exact iff_of_false (by omega) (by simp)
  | feedHome hpos _ hh' _ _ =>
    have hhome := Option.some.inj (hh.symm.trans hh')
    exact iff_of_false (by omega) (by simp)
  | feedAway hpos _ hh' _ _ =>
    have hhome := Option.some.inj (hh.symm.trans hh')
    exact iff_of_false (by omega) (by simp)

/-- With goals on both sides only the feed tells who scored first. -/
theorem scoredFirst_iff_shows {home away : ℕ} {s : FirstToScore}
    (hh : m.fullTime.home = some home) (hhpos : 0 < home) (ha : m.fullTime.away = some away)
    (hapos : 0 < away) :
    ScoredFirst m s ↔ (s = .home ∧ Shows (m.goals.getD []) m.homeTeamId) ∨
      (s = .away ∧ Shows (m.goals.getD []) m.awayTeamId) := by
  constructor
  · intro h
    cases h with
    | goalless hh' _ =>
      have hhome := Option.some.inj (hh.symm.trans hh')
      omega
    | onlyHome _ _ ha' =>
      have haway := Option.some.inj (ha.symm.trans ha')
      omega
    | onlyAway _ hh' _ =>
      have hhome := Option.some.inj (hh.symm.trans hh')
      omega
    | feedHome _ _ _ _ hshown => exact Or.inl ⟨rfl, hshown⟩
    | feedAway _ _ _ _ hshown => exact Or.inr ⟨rfl, hshown⟩
  · rintro (⟨rfl, hshown⟩ | ⟨rfl, hshown⟩)
    · exact .feedHome hhpos hapos hh ha hshown
    · exact .feedAway hhpos hapos hh ha hshown

/-- A derived first scorer is told by the payload exactly when one side has no goal or the
feed stands. -/
theorem scoredFirst_iff_of_derive {s : FirstToScore} (h : deriveFirstToScore m = some s) :
    ScoredFirst m s ↔ OneSided m ∨ FeedStands m := by
  by_cases hone : OneSided m
  · refine iff_of_true ?_ (Or.inl hone)
    unfold deriveFirstToScore at h
    split at h
    · rename_i home away hh ha
      have hzero : home = 0 ∨ away = 0 := by
        rcases hone with hhome | haway
        · exact Or.inl (Option.some.inj (hh.symm.trans hhome))
        · exact Or.inr (Option.some.inj (ha.symm.trans haway))
      split_ifs at h with hnone hhome haway
      · cases h
        exact .goalless (hh.trans (by rw [show home = 0 by omega]))
          (ha.trans (by rw [show away = 0 by omega]))
      · cases h
        exact .onlyHome hhome.1 hh (ha.trans (by rw [hhome.2]))
      · cases h
        exact .onlyAway haway.1 (hh.trans (by rw [haway.2])) ha
      · omega
    · cases h
  · rw [or_iff_right hone]
    have hscores : ∃ home away, m.fullTime.home = some home ∧ 0 < home ∧
        m.fullTime.away = some away ∧ 0 < away := by
      have hderived : deriveFirstToScore m ≠ none := by rw [h]; simp
      rw [Ne, derive_eq_none_iff] at hderived
      unfold OneSided at hone
      cases hh : m.fullTime.home with
      | none => exact absurd (Or.inl hh) hderived
      | some home =>
        cases ha : m.fullTime.away with
        | none => exact absurd (Or.inr (Or.inl ha)) hderived
        | some away =>
          rw [hh, ha, Option.some.injEq, Option.some.injEq] at hone
          exact ⟨home, away, rfl, by omega, rfl, by omega⟩
    obtain ⟨home, away, hh, hhpos, ha, hapos⟩ := hscores
    rw [deriveFirstToScore_of_both hh hhpos ha hapos] at h
    obtain ⟨g, hhead, rfl⟩ := Option.map_eq_some_iff.1 h
    rw [scoredFirst_iff_shows hh hhpos ha hapos, feedStands_iff_shows (firstGoal_of_head hhead)]

theorem autoResult_eq_none_iff : autoResult (toCanonicalFixture m) = none ↔ Undecided m := by
  have hstatus := statusMap_finished_iff m.status
  have hderive := derive_eq_none_iff (m := m)
  unfold Undecided
  rw [← hderive, ← not_or, ← hstatus]
  unfold autoResult toCanonicalFixture
  cases hfirst : deriveFirstToScore m with
  | none => cases statusMap m.status <;> cases m.fullTime.home <;> cases m.fullTime.away <;> simp
  | some first =>
    have hscores : ¬ (m.fullTime.home = none ∨ m.fullTime.away = none) := by
      intro hmissing
      rw [hderive.2 (by tauto)] at hfirst
      cases hfirst
    cases hh : m.fullTime.home with
    | none => exact absurd (Or.inl hh) hscores
    | some home =>
      cases ha : m.fullTime.away with
      | none => exact absurd (Or.inr ha) hscores
      | some away => cases statusMap m.status <;> simp

/-- What the poller takes from a payload is reported and well formed exactly when the half-time
scores are there and fit, and the first scorer is told. -/
theorem reported_refined_iff {result : FinalizeResultRequest}
    (h : autoResult (toCanonicalFixture m) = some result) :
    Reported m result ∧ Refined result ↔ HalfTimeStands m ∧ (OneSided m ∨ FeedStands m) := by
  obtain ⟨_, hhome, haway, hhtHome, hhtAway, hfirst⟩ := (autoResult_eq_some_iff result).1 h
  rw [← scoredFirst_iff_of_derive hfirst]
  constructor
  · rintro ⟨hrep, href⟩
    exact ⟨⟨⟨_, _, hrep.htHomeGoals, hhome, href.halfTime.1⟩,
      ⟨_, _, hrep.htAwayGoals, haway, href.halfTime.2⟩⟩, hrep.firstToScore⟩
  · rintro ⟨⟨⟨ht, ft, hht, hft, hle⟩, ⟨ht', ft', hht', hft', hle'⟩⟩, hscored⟩
    rw [hht, Option.getD_some] at hhtHome
    rw [hht', Option.getD_some] at hhtAway
    rw [hhome, Option.some.injEq] at hft
    rw [haway, Option.some.injEq] at hft'
    constructor
    · exact ⟨hhome, haway, hhtHome ▸ hht, hhtAway ▸ hht', hscored⟩
    · constructor
      · omega
      · exact goalless_iff_none hscored hhome haway

end Derivation

theorem finalized_inj {now : DateTime} {r r' : FinalizeResultRequest} {f : Fixture}
    (h : finalized now r f = finalized now r' f) : r = r' := by
  obtain ⟨home, away, htHome, htAway, first⟩ := r
  simp only [finalized, Fixture.mk.injEq, Option.some.injEq] at h
  obtain ⟨_, _, _, hhome, haway, hhtHome, hhtAway, hfirst, _⟩ := h
  rw [FinalizeResultRequest.mk.injEq]
  exact ⟨hhome, haway, hhtHome, hhtAway, hfirst⟩

/-- A poll that gets the payload for a candidate leaves it as reported exactly when the payload
is left to manual entry, or when its half-time scores stand and the first scorer is told by a
side without goals or by a feed that stands. With injury times below a hundred, as feeds have
them, the feed stands by its earliest goals alone. -/
theorem finalAsReported_iff {provider : String} {now : DateTime} {db : Db} {c : Candidate}
    {getFixture : String → Option RemoteFixture} {m : FdMatch}
    (hc : c ∈ candidates provider now db)
    (hm : answer getFixture c = some (toCanonicalFixture m)) :
    (FinalAsReported m now c.fixture (poll provider now getFixture db) ↔
      Undecided m ∨ (HalfTimeStands m ∧ (OneSided m ∨ FeedStands m))) ∧
    ((∀ g ∈ m.goals.getD [], g.injuryTime.getD 0 < 100) →
      (FeedStands m ↔ MinutesKnown (m.goals.getD []) ∧
        ((∃ g, ListedFirst (m.goals.getD []) g ∧ some g.teamId = m.homeTeamId) ∨
          ∃ g, Earliest (m.goals.getD []) g ∧ some g.teamId = m.awayTeamId))) := by
  refine ⟨?_, feedStands_iff_earliest⟩
  have hfind := find_poll_of_candidate getFixture hc
  have hopen : c.fixture.resultFinalizedAt = none := (mem_candidates hc).2.1.1
  unfold FinalAsReported
  rw [hfind]
  simp only [polled, hm]
  cases hauto : autoResult (toCanonicalFixture m) with
  | none =>
    refine iff_of_true ?_ (Or.inl (autoResult_eq_none_iff.1 hauto))
    intro f' hf' hfinal
    rw [Option.some.injEq] at hf'
    subst hf'
    split_ifs at hfinal
    · exact absurd hopen hfinal
    · exact absurd hopen hfinal
  | some result =>
    have hdecided : ¬ Undecided m := by
      rw [← autoResult_eq_none_iff, hauto]
      simp
    rw [or_iff_right hdecided, ← reported_refined_iff hauto]
    simp only [finalizedOnce, if_pos hopen, Option.some.injEq]
    constructor
    · intro h
      obtain ⟨r, heq, hrep, href⟩ := h _ rfl (by simp [finalized])
      rw [← finalized_inj heq] at hrep href
      exact ⟨hrep, href⟩
    · rintro h f' rfl _
      exact ⟨result, rfl, h⟩

section Payloads

/-- A fixture two hours after its kickoff. -/
def overdue : Db :=
  { Db.empty with
    fixtures := ⟨[⟨7, 0, .live, none, none, none, none, none, none⟩], by decide⟩
    fixtureProviderRefs := [⟨7, "FOOTBALL_DATA", "497555"⟩] }

def overdueCandidate : Candidate := ⟨⟨7, 0, .live, none, none, none, none, none, none⟩, ["497555"]⟩

/-- A match 2-1 whose feed lists the goals out of order. -/
def toldByFeed : FdMatch :=
  ⟨497555, 0, "FINISHED", some 57, some 61, ⟨some 2, some 1⟩, ⟨some 1, some 0⟩,
    some [⟨some 71, none, 61⟩, ⟨some 90, some 3, 57⟩, ⟨some 12, none, 57⟩]⟩

/-- A match 1-0 without its half-time score. -/
def noHalfTime : FdMatch :=
  ⟨497555, 0, "FINISHED", some 57, some 61, ⟨some 1, some 0⟩, ⟨none, none⟩, none⟩

def answerWith (m : FdMatch) : String → Option RemoteFixture := fun _ => some (toCanonicalFixture m)

theorem finalAsReported_toldByFeed : FinalAsReported toldByFeed 7200000 overdueCandidate.fixture
    (poll "FOOTBALL_DATA" 7200000 (answerWith toldByFeed) overdue) := by
  have hcandidate : overdueCandidate ∈ candidates "FOOTBALL_DATA" 7200000 overdue := by decide
  have hanswer : answer (answerWith toldByFeed) overdueCandidate =
      some (toCanonicalFixture toldByFeed) := by decide
  have hiff := finalAsReported_iff hcandidate hanswer
  refine hiff.1.2 (Or.inr ⟨⟨⟨1, 2, rfl, rfl, by decide⟩, ⟨0, 1, rfl, rfl, by decide⟩⟩, Or.inr ?_⟩)
  refine (hiff.2 (by decide)).2 ⟨by unfold MinutesKnown; decide, Or.inl ?_⟩
  refine ⟨⟨some 12, none, 57⟩, ⟨⟨by decide, ?_⟩,
    [⟨some 71, none, 61⟩, ⟨some 90, some 3, 57⟩], [], rfl, ?_⟩, rfl⟩
  · intro g hg
    fin_cases hg
    · exact ⟨12, rfl, 71, rfl, Or.inl (by decide)⟩
    · exact ⟨12, rfl, 90, rfl, Or.inl (by decide)⟩
    · exact ⟨12, rfl, 12, rfl, Or.inr ⟨rfl, le_refl _⟩⟩
  · intro g hg hearliest
    obtain ⟨m, hm, m', hm', hle⟩ := hearliest.2 ⟨some 12, none, 57⟩ (by decide)
    fin_cases hg
    all_goals
      cases hm
      cases hm'
      omega

/-- The poller stores 0-0 as the half-time score that the payload does not have, and a side
whose goal has no minute as the first scorer. -/
theorem poll_guesses :
    (¬ FinalAsReported noHalfTime 7200000 overdueCandidate.fixture
        (poll "FOOTBALL_DATA" 7200000 (answerWith noHalfTime) overdue)) ∧
      ¬ FinalAsReported unknownMinute 7200000 overdueCandidate.fixture
        (poll "FOOTBALL_DATA" 7200000 (answerWith unknownMinute) overdue) := by
  constructor
  · intro h
    obtain ⟨result, _, hrep, _⟩ := h
      (finalized 7200000 ⟨1, 0, 0, 0, .home⟩ overdueCandidate.fixture) (by decide) (by decide)
    have hht := hrep.htHomeGoals
    cases hht
  · intro h
    obtain ⟨result, heq, hrep, _⟩ := h
      (finalized 7200000 ⟨1, 1, 0, 1, .home⟩ overdueCandidate.fixture) (by decide) (by decide)
    rw [← finalized_inj heq] at hrep
    have hfirst := hrep.firstToScore
    rw [scoredFirst_iff_shows rfl (by decide) rfl (by decide)] at hfirst
    rcases hfirst with ⟨_, hknown, _⟩ | ⟨hnot, _⟩
    · exact hknown ⟨none, none, 57⟩ (by decide) rfl
    · cases hnot

end Payloads

end FootballData
end FootballIQ
