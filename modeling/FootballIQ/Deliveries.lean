import FootballIQ.Handler

/-!
# Results and the lock

The handler looks for LOCKED and SCORING contests at the moment of the delivery,
and the event is then consumed. A contest whose lock comes late has not heard of
the results delivered before: it is scored exactly when each fixture that anyone
picked on, and at least one fixture at all, is delivered after the lock.
-/

namespace FootballIQ
namespace Deliveries

open Transaction Relational Contests Scoring ScoringRuns ScoringOutcome Handler

/-- The lock job of the contest, a finalization, and a delivery handled to its end. -/
inductive Event where
  | lock (now : DateTime)
  | finalize (now : DateTime) (fixtureId : ℕ) (result : Results.FinalizeResultRequest)
  | deliver (now : DateTime) (fixtureId : ℕ)
  deriving DecidableEq

def handle (contestId : ℕ) (db : Db) : Event → Db
  | .lock now => commit (lock now contestId) db
  | .finalize now fixtureId result =>
    commit (do Results.finalizeRead fixtureId; Results.finalizeTx now fixtureId result) db
  | .deliver now fixtureId => onResultFinalized now fixtureId db

def handleAll (contestId : ℕ) (db : Db) (evs : List Event) : Db := evs.foldl (handle contestId) db

section Histories

def LockedIn (evs : List Event) : Prop := ∃ now, .lock now ∈ evs

def FinalizedIn (evs : List Event) (fixtureId : ℕ) : Prop :=
  ∃ now result, .finalize now fixtureId result ∈ evs

def Delivers (e : Event) (fixtureId : ℕ) : Prop := ∃ now, e = .deliver now fixtureId

/-- The fixture is delivered after its finalization. -/
def Delivered (evs : List Event) (fixtureId : ℕ) : Prop :=
  ∃ before e after, evs = before ++ e :: after ∧ Delivers e fixtureId ∧ FinalizedIn before fixtureId

/-- The fixture is delivered after its finalization and after the lock. -/
def HeardLocked (evs : List Event) (fixtureId : ℕ) : Prop :=
  ∃ before e after, evs = before ++ e :: after ∧ Delivers e fixtureId ∧
    FinalizedIn before fixtureId ∧ LockedIn before

/-- A splitting of a longer history is one of the shorter history or at the last event. -/
theorem splits_snoc {α : Type*} (evs : List α) (e : α) (Q : List α → α → Prop) :
    (∃ before x after, evs ++ [e] = before ++ x :: after ∧ Q before x) ↔
      (∃ before x after, evs = before ++ x :: after ∧ Q before x) ∨ Q evs e := by
  constructor
  · rintro ⟨before, x, after, heq, hQ⟩
    induction after using List.reverseRecOn with
    | nil =>
      obtain ⟨rfl, hex⟩ := List.append_inj' heq rfl
      exact Or.inr (List.head_eq_of_cons_eq hex ▸ hQ)
    | append_singleton after a =>
      rw [← List.cons_append, ← List.append_assoc] at heq
      obtain ⟨rfl, _⟩ := List.append_inj' heq rfl
      exact Or.inl ⟨before, x, after, rfl, hQ⟩
  · rintro (⟨before, x, after, rfl, hQ⟩ | hQ)
    · exact ⟨before, x, after ++ [e], by simp, hQ⟩
    · exact ⟨evs, e, [], rfl, hQ⟩

theorem delivered_snoc (evs : List Event) (e : Event) (f : ℕ) :
    Delivered (evs ++ [e]) f ↔ Delivered evs f ∨ (Delivers e f ∧ FinalizedIn evs f) :=
  splits_snoc evs e (fun before e => Delivers e f ∧ FinalizedIn before f)

theorem heardLocked_snoc (evs : List Event) (e : Event) (f : ℕ) :
    HeardLocked (evs ++ [e]) f ↔
      HeardLocked evs f ∨ (Delivers e f ∧ FinalizedIn evs f ∧ LockedIn evs) :=
  splits_snoc evs e (fun before e => Delivers e f ∧ FinalizedIn before f ∧ LockedIn before)

theorem HeardLocked.lockedIn {evs : List Event} {f : ℕ} (h : HeardLocked evs f) : LockedIn evs := by
  obtain ⟨before, e, after, rfl, _, _, now, hmem⟩ := h
  exact ⟨now, List.mem_append_left _ hmem⟩

theorem Delivered.finalizedIn {evs : List Event} {f : ℕ} (h : Delivered evs f) :
    FinalizedIn evs f := by
  obtain ⟨before, e, after, rfl, _, now, result, hmem⟩ := h
  exact ⟨now, result, List.mem_append_left _ hmem⟩

theorem lockedIn_snoc (evs : List Event) (e : Event) :
    LockedIn (evs ++ [e]) ↔ LockedIn evs ∨ ∃ now, e = .lock now := by
  simp [LockedIn, exists_or, eq_comm]

theorem finalizedIn_snoc (evs : List Event) (e : Event) (f : ℕ) :
    FinalizedIn (evs ++ [e]) f ↔ FinalizedIn evs f ∨ ∃ now result, e = .finalize now f result := by
  simp [FinalizedIn, exists_or, eq_comm]

end Histories

/-- A published contest with nothing scored and no result final yet. -/
structure Published (contestId : ℕ) (db : Db) : Prop where
  status : statusOf db contestId = some .published
  nonempty : ∃ m ∈ db.contestMatches.rows, m.contestId = contestId
  pinned : Pinned db contestId
  referenced : Referenced db
  unscored : ∀ m ∈ db.contestMatches.rows, Untouched db contestId m
  noResult : ∀ m ∈ db.contestMatches.rows, m.contestId = contestId → ¬ Final db m.fixtureId

section Steps
variable {contestId : ℕ} {db : Db}

/-- The lock moves a published contest and nothing else. -/
theorem lock_step (contestId now : ℕ) (db : Db) :
    Progress db (commit (lock now contestId) db) ∧
      (∀ k, rulesOf (commit (lock now contestId) db) k = rulesOf db k) ∧
      (commit (lock now contestId) db).predictions = db.predictions ∧
      (∀ f, Final (commit (lock now contestId) db) f ↔ Final db f) ∧
      statusOf (commit (lock now contestId) db) contestId =
        if statusOf db contestId = some .published then some .locked
          else statusOf db contestId := by
  rcases lock_cases now contestId db with ⟨c, hc, hs, hlock⟩ | ⟨hno, hlock⟩
  · rw [commit_of_ok hlock]
    have hstatus : statusOf db contestId = some .published := by
      rw [statusOf, hc, Option.map_some, hs]
    refine ⟨⟨rfl, rfl, Table.Same.refl _ _, Table.Same.refl _ _, (Progress.refl db).scored,
      (Progress.refl db).fixtures⟩, fun k => rulesOf_updateWhere (by intro c; rfl)
      (by intro c; rfl) rfl rfl, rfl, fun _ => Iff.rfl, ?_⟩
    rw [if_pos hstatus, statusOf, locked, Table.find_update, hc]
    simp
  · rw [commit_of_ok hlock]
    have hstatus : statusOf db contestId ≠ some .published := by
      intro h
      obtain ⟨c, hc, hs⟩ := Option.map_eq_some_iff.1 h
      exact hno c hc hs
    exact ⟨Progress.refl db, fun _ => rfl, rfl, fun _ => Iff.rfl, (if_neg hstatus).symm⟩

/-- A finalization makes its fixture final, if it exists, and nothing else. -/
theorem finalize_step (contestId now f : ℕ) (result : Results.FinalizeResultRequest) (db : Db) :
    Progress db (handle contestId db (.finalize now f result)) ∧
      (∀ k, rulesOf (handle contestId db (.finalize now f result)) k = rulesOf db k) ∧
      (handle contestId db (.finalize now f result)).predictions = db.predictions ∧
      (∀ k, statusOf (handle contestId db (.finalize now f result)) k = statusOf db k) ∧
      (∀ g, g ≠ f → (Final (handle contestId db (.finalize now f result)) g ↔ Final db g)) ∧
      (db.fixtures.find f ≠ none → Final (handle contestId db (.finalize now f result)) f) := by
  rcases commit_cases (do Results.finalizeRead f; Results.finalizeTx now f result) db with
    ⟨u, db', hok, hc⟩ | ⟨e, herr, hc⟩
  · rw [handle, hc]
    obtain ⟨_, db₁, hread, htx⟩ := (bind_ok_iff _ _ _ _).1 hok
    obtain ⟨_, hdb₁⟩ := Results.finalizeRead_ok hread
    obtain rfl : db₁ = db := hdb₁
    have hprogress := progress_finalizeTx now f result db₁
    rw [commit_of_ok htx] at hprogress
    obtain ⟨hex, hdb⟩ := (Results.finalizeTx_ok_iff now f result db₁ (u, db')).1 htx
    obtain rfl : db' = _ := hdb
    refine ⟨hprogress, fun _ => rfl, rfl, fun _ => rfl, ?_, ?_⟩
    · intro g hg
      have hfind := Table.find_update_of_ne db₁.fixtures (Results.finalized now result)
        (Results.id_finalized now result) hg
      unfold Final
      rw [← hfind]
    · intro _
      obtain ⟨x, hx⟩ := Option.ne_none_iff_exists'.1 hex
      exact ⟨_, Table.find_update_self _ _ (Results.id_finalized now result) hx,
        Option.some_ne_none now⟩
  · rw [handle, hc]
    refine ⟨Progress.refl db, fun _ => rfl, rfl, fun _ => rfl, fun _ _ => Iff.rfl, ?_⟩
    intro hex
    by_contra hnot
    obtain ⟨x, hx⟩ := Option.ne_none_iff_exists'.1 hex
    have hnone : x.resultFinalizedAt = none := by
      by_contra hfinal
      exact hnot ⟨x, hx, hfinal⟩
    have hread : Results.finalizeRead f db = .ok (⟨⟩, db) := by
      simp [Results.finalizeRead, hx, hnone]
    rw [bind_of_ok hread] at herr
    have htx := (Results.finalizeTx_ok_iff now f result db ⟨⟨⟩, _⟩).2 ⟨hex, rfl⟩
    rw [htx] at herr
    cases herr

/-- What a delivery does, as the contest sees it: a match of the fixture is scored
exactly when the result is final and the contest is between its lock and its last score. -/
structure Delivery (contestId f : ℕ) (db db' : Db) : Prop where
  progress : Progress db db'
  rules : ∀ k, rulesOf db' k = rulesOf db k
  final : ∀ g, Final db' g ↔ Final db g
  deaf : ¬ (Final db f ∧ statusOf db contestId ∈ [some .locked, some .scoring] ∧
      ∃ m ∈ db.contestMatches.rows, m.contestId = contestId ∧ m.fixtureId = f) →
    statusOf db' contestId = statusOf db contestId ∧
      (AllScored db' contestId → AllScored db contestId)
  untouched : ∀ m ∈ db.contestMatches.rows, m.contestId = contestId →
    ¬ (Final db f ∧ statusOf db contestId ∈ [some .locked, some .scoring] ∧ m.fixtureId = f) →
    Untouched db contestId m → Untouched db' contestId m
  heard : Final db f → statusOf db contestId ∈ [some .locked, some .scoring] →
    (∀ m ∈ db.contestMatches.rows, m.contestId = contestId → m.fixtureId = f → MatchScored db' m) ∧
    ((∃ m ∈ db.contestMatches.rows, m.contestId = contestId ∧ m.fixtureId = f) →
      statusOf db' contestId ∈ [some .scoring, some .scored] ∧
      (AllFinal db' contestId → AllScored db' contestId →
        statusOf db' contestId = some .scored))
  sound : statusOf db' contestId = some .scored →
    statusOf db contestId = some .scored ∨ AllScored db' contestId

theorem mem_readMatches_iff {f : ℕ} {m : ContestMatch} (hid : m.contestId = contestId) :
    m ∈ readMatches f db ↔ m ∈ db.contestMatches.rows ∧ m.fixtureId = f ∧
      statusOf db contestId ∈ [some .locked, some .scoring] := by
  rw [mem_readMatches, hid, statusOf]
  refine and_congr_right (fun _ => and_congr_right (fun _ => ?_))
  cases db.contests.find contestId with
  | none => simp
  | some c => simp

theorem deliver_step (now f : ℕ) (hp : Pinned db contestId) (hr : Referenced db) :
    Delivery contestId f db (onResultFinalized now f db) := by
  unfold onResultFinalized
  cases hread : readResult f db with
  | none =>
    have hnot : ¬ Final db f := fun hf => readResult_ne_none hf hread
    exact ⟨Progress.refl db, fun _ => rfl, fun _ => Iff.rfl, fun _ => ⟨rfl, fun h => h⟩,
      fun _ _ _ _ h => h, fun hf => absurd hf hnot, Or.inl⟩
  | some result =>
    have hfinal := final_of_readResult hread
    have hmem : ∀ cm ∈ readMatches f db, cm ∈ db.contestMatches.rows :=
      fun cm hcm => (mem_readMatches.1 hcm).1
    have hloop := loop_scoreMatches now result (readMatches f db) hp hr hmem
    refine ⟨hloop.progress, hloop.rules, ?_, ?_, ?_, ?_, hloop.sound⟩
    · intro g
      unfold Final
      rw [hloop.fixtures]
    · intro hdeaf
      refine hloop.others (fun cm hcm hid => hdeaf ?_)
      obtain ⟨hrow, hfix, hs⟩ := (mem_readMatches_iff hid).1 hcm
      exact ⟨hfinal, hs, cm, hrow, hid, hfix⟩
    · intro m hm hid hdeaf
      refine hloop.untouched m (fun cm hcm heq => hdeaf ?_)
      obtain rfl := db.contestMatches.eq_of_id_eq hm (hmem cm hcm) heq
      obtain ⟨_, hfix, hs⟩ := (mem_readMatches_iff hid).1 hcm
      exact ⟨hfinal, hs, hfix⟩
    · intro _ hs
      constructor
      · intro m hm hid hfix
        exact hloop.scored m ((mem_readMatches_iff hid).2 ⟨hm, hfix, hs⟩)
      · rintro ⟨m, hm, hid, hfix⟩
        refine hloop.own ⟨m, (mem_readMatches_iff hid).2 ⟨hm, hfix, hs⟩, hid⟩ ?_
        simp only [List.mem_cons, List.not_mem_nil, or_false] at hs
        rcases hs with h | h <;> simp [h, afterLock]

end Steps

section Runs
variable {contestId : ℕ} {start db : Db} {evs : List Event}

/-- What the history says about the state. -/
structure History (contestId : ℕ) (start : Db) (evs : List Event) (db : Db) : Prop where
  progress : Progress start db
  rules : ∀ k, rulesOf db k = rulesOf start k
  unlocked : ¬ LockedIn evs → statusOf db contestId = some .published
  live : LockedIn evs → statusOf db contestId ∈ afterLock
  final : ∀ m ∈ start.contestMatches.rows, m.contestId = contestId →
    (Final db m.fixtureId ↔ FinalizedIn evs m.fixtureId)
  unheard : ∀ m ∈ start.contestMatches.rows, m.contestId = contestId →
    ¬ HeardLocked evs m.fixtureId → Untouched db contestId m
  heard : ∀ m ∈ start.contestMatches.rows, m.contestId = contestId →
    HeardLocked evs m.fixtureId → ∀ p ∈ db.predictions.rows, BelongsTo db contestId p →
      onMatch db m.id p → p.scoredAt ≠ none
  complete : statusOf db contestId = some .scored → AllScored db contestId
  idle : (∀ m ∈ start.contestMatches.rows, m.contestId = contestId →
    ¬ HeardLocked evs m.fixtureId) → statusOf db contestId ∈ [some .published, some .locked]
  finished : (∃ m ∈ start.contestMatches.rows, m.contestId = contestId ∧
      HeardLocked evs m.fixtureId) →
    (∀ m ∈ start.contestMatches.rows, m.contestId = contestId → Delivered evs m.fixtureId) →
    AllScored db contestId → statusOf db contestId = some .scored

theorem Published.history (h : Published contestId start) : History contestId start [] start where
  progress := Progress.refl start
  rules _ := rfl
  unlocked _ := h.status
  live := by simp [LockedIn]
  final m hm hid := by simp [h.noResult m hm hid, FinalizedIn]
  unheard m hm _ _ := h.unscored m hm
  heard := by simp [HeardLocked]
  complete hs := by simp [h.status] at hs
  idle _ := by simp [h.status]
  finished := by simp [HeardLocked]

section Quiet
variable {db' : Db} {e : Event}

/-- An event that delivers nothing and writes no prediction. -/
theorem History.snoc_quiet (H : History contestId start evs db) (he : ∀ f, ¬ Delivers e f)
    (hp : Progress db db') (hrules : ∀ k, rulesOf db' k = rulesOf db k)
    (hpreds : db'.predictions = db.predictions)
    (hunlocked : ¬ LockedIn (evs ++ [e]) → statusOf db' contestId = some .published)
    (hlive : LockedIn (evs ++ [e]) → statusOf db' contestId ∈ afterLock)
    (hfinal : ∀ m ∈ start.contestMatches.rows, m.contestId = contestId →
      (Final db' m.fixtureId ↔ FinalizedIn (evs ++ [e]) m.fixtureId))
    (hscored : statusOf db' contestId = some .scored ↔ statusOf db contestId = some .scored)
    (hidle : statusOf db contestId ∈ [some .published, some .locked] →
      statusOf db' contestId ∈ [some .published, some .locked]) :
    History contestId start (evs ++ [e]) db' := by
  have hheard : ∀ f, HeardLocked (evs ++ [e]) f ↔ HeardLocked evs f := by simp [heardLocked_snoc, he]
  have hdelivered : ∀ f, Delivered (evs ++ [e]) f ↔ Delivered evs f := by simp [delivered_snoc, he]
  have hrow : ∀ p ∈ db'.predictions.rows, p ∈ db.predictions.rows := by
    rw [hpreds]
    exact fun _ h => h
  have hback : AllScored db' contestId → AllScored db contestId := fun h p hp' hb =>
    h p (hpreds ▸ hp') ((hp.belongsTo_iff rfl).1 hb)
  refine ⟨H.progress.trans hp, fun k => (hrules k).trans (H.rules k), hunlocked, hlive, hfinal,
    ?_, ?_, fun hs => hp.allScored (H.complete (hscored.1 hs)), fun h => hidle (H.idle ?_), ?_⟩
  · intro m hm hid hne p hp' hb hon
    exact H.unheard m hm hid (fun h => hne ((hheard _).2 h)) p (hrow p hp')
      ((hp.belongsTo_iff rfl).2 hb) ((hp.onMatch_iff rfl m.id).2 hon)
  · intro m hm hid hh p hp' hb hon
    exact H.heard m hm hid ((hheard _).1 hh) p (hrow p hp') ((hp.belongsTo_iff rfl).2 hb)
      ((hp.onMatch_iff rfl m.id).2 hon)
  · exact fun m hm hid hh => h m hm hid ((hheard _).2 hh)
  · rintro ⟨m, hm, hid, hh⟩ hall hs
    exact hscored.2 (H.finished ⟨m, hm, hid, (hheard _).1 hh⟩
      (fun m hm hid => (hdelivered _).1 (hall m hm hid)) (hback hs))

end Quiet

theorem History.pinned (H : History contestId start evs db) (h : Published contestId start) :
    Pinned db contestId := H.progress.pinned h.pinned

theorem History.lock (H : History contestId start evs db) (now : ℕ) :
    History contestId start (evs ++ [.lock now]) (handle contestId db (.lock now)) := by
  obtain ⟨hp, hrules, hpreds, hfinal, hstatus⟩ := lock_step contestId now db
  have hlocked : LockedIn (evs ++ [.lock now]) := ⟨now, by simp⟩
  refine H.snoc_quiet (by simp [Delivers]) hp hrules hpreds (fun h => absurd hlocked h) ?_ ?_ ?_ ?_
  · intro _
    rw [handle, hstatus]
    split_ifs with hs
    · simp [afterLock]
    · exact H.live (by_contra fun h => hs (H.unlocked h))
  · intro m hm hid
    rw [handle, hfinal, H.final m hm hid, finalizedIn_snoc]
    simp
  · rw [handle, hstatus]
    split_ifs with hs <;> simp [hs]
  · intro hs
    rw [handle, hstatus]
    split_ifs with hpub
    · simp
    · exact hs

theorem History.finalize (H : History contestId start evs db) (h : Published contestId start)
    (now f : ℕ) (result : Results.FinalizeResultRequest) :
    History contestId start (evs ++ [.finalize now f result])
      (handle contestId db (.finalize now f result)) := by
  obtain ⟨hp, hrules, hpreds, hstatus, hother, hown⟩ :=
    finalize_step contestId now f result db
  have hlocked : LockedIn (evs ++ [.finalize now f result]) ↔ LockedIn evs := by
    simp [lockedIn_snoc]
  refine H.snoc_quiet (by simp [Delivers]) hp hrules hpreds ?_ ?_ ?_ ?_ ?_
  · rw [hlocked, hstatus]
    exact H.unlocked
  · rw [hlocked, hstatus]
    exact H.live
  · intro m hm hid
    rw [finalizedIn_snoc, ← H.final m hm hid]
    by_cases hf : m.fixtureId = f
    · subst hf
      have hex := (H.pinned h).fixtures m (H.progress.matches_ ▸ hm) hid
      simp [hown hex]
    · simp [hother _ hf, Ne.symm hf]
  · rw [hstatus]
  · rw [hstatus]
    exact id

section Delivering
variable {db' : Db} {now f : ℕ}

/-- A fixture of the contest is heard behind a delivery if it was before, or if the delivery is
of its final result after the lock. -/
theorem heardLocked_deliver (evs : List Event) (now f g : ℕ) :
    HeardLocked (evs ++ [.deliver now f]) g ↔
      HeardLocked evs g ∨ f = g ∧ FinalizedIn evs g ∧ LockedIn evs := by
  rw [heardLocked_snoc]
  simp [Delivers]

/-- The contest is read only between its lock and its last score. -/
theorem History.lockedIn (H : History contestId start evs db)
    (hs : statusOf db contestId ∈ [some .locked, some .scoring]) : LockedIn evs := by
  by_contra hno
  rw [H.unlocked hno] at hs
  simp at hs

theorem History.running (H : History contestId start evs db) (hl : LockedIn evs)
    (hs : statusOf db contestId ≠ some .scored) :
    statusOf db contestId ∈ [some .locked, some .scoring] := by
  have hstatus := H.live hl
  simp only [afterLock, List.mem_cons, List.not_mem_nil, or_false] at hstatus ⊢
  tauto

theorem History.deliver_live (H : History contestId start evs db) (D : Delivery contestId f db db')
    (hl : LockedIn evs) : statusOf db' contestId ∈ afterLock := by
  by_cases hread : Final db f ∧ statusOf db contestId ∈ [some .locked, some .scoring] ∧
      ∃ m ∈ db.contestMatches.rows, m.contestId = contestId ∧ m.fixtureId = f
  · have hs := ((D.heard hread.1 hread.2.1).2 hread.2.2).1
    simp only [List.mem_cons, List.not_mem_nil, or_false] at hs
    rcases hs with hs | hs <;> simp [hs, afterLock]
  · rw [(D.deaf hread).1]
    exact H.live hl

/-- A match that is not heard behind the delivery is not scored by it. -/
theorem History.deliver_unheard (H : History contestId start evs db)
    (D : Delivery contestId f db db') {m : ContestMatch} (hm : m ∈ start.contestMatches.rows)
    (hid : m.contestId = contestId)
    (hne : ¬ HeardLocked (evs ++ [.deliver now f]) m.fixtureId) : Untouched db' contestId m := by
  rw [heardLocked_deliver] at hne
  push Not at hne
  refine D.untouched m (H.progress.matches_ ▸ hm) hid ?_ (H.unheard m hm hid hne.1)
  rintro ⟨hfinal, hs, rfl⟩
  exact hne.2 rfl ((H.final m hm hid).1 hfinal) (H.lockedIn hs)

/-- A match that is heard was scored before, or is scored by the delivery. -/
theorem History.deliver_heard (H : History contestId start evs db)
    (D : Delivery contestId f db db') {m : ContestMatch} (hm : m ∈ start.contestMatches.rows)
    (hid : m.contestId = contestId) (hh : HeardLocked (evs ++ [.deliver now f]) m.fixtureId)
    {p' : Prediction} (hp' : p' ∈ db'.predictions.rows) (hb : BelongsTo db' contestId p')
    (hon : onMatch db' m.id p') : p'.scoredAt ≠ none := by
  obtain ⟨p, hmem, hcols⟩ := D.progress.picks.mem hp'
  have hkeep : p.scoredAt ≠ none → p'.scoredAt ≠ none := fun hs =>
    D.progress.scored p hmem hs p' hp' (congrArg (fun c => c.1) hcols.symm)
  have hb' := (D.progress.belongsTo_iff hcols).2 hb
  rcases (heardLocked_deliver evs now f _).1 hh with hold | ⟨rfl, hfin, hl⟩
  · exact hkeep (H.heard m hm hid hold p hmem hb' ((D.progress.onMatch_iff hcols m.id).2 hon))
  · by_cases hs : statusOf db contestId = some .scored
    · exact hkeep (H.complete hs p hmem hb')
    · exact (D.heard ((H.final m hm hid).2 hfin) (H.running hl hs)).1 m
        (H.progress.matches_ ▸ hm) hid rfl p' hp' hon

theorem History.deliver_idle (H : History contestId start evs db) (D : Delivery contestId f db db')
    (hall : ∀ m ∈ start.contestMatches.rows, m.contestId = contestId →
      ¬ HeardLocked (evs ++ [.deliver now f]) m.fixtureId) :
    statusOf db' contestId ∈ [some .published, some .locked] := by
  have hheard := heardLocked_deliver evs now f
  have hold := H.idle (fun m hm hid hh => hall m hm hid ((hheard _).2 (Or.inl hh)))
  rw [(D.deaf ?_).1]
  · exact hold
  · rintro ⟨hfinal, hs, m, hm, hid, rfl⟩
    rw [H.progress.matches_] at hm
    exact hall m hm hid
      ((hheard _).2 (Or.inr ⟨rfl, (H.final m hm hid).1 hfinal, H.lockedIn hs⟩))

/-- A delivery that the contest reads announces it if it completes it. -/
theorem History.deliver_finished_read (H : History contestId start evs db)
    (D : Delivery contestId f db db')
    (hdel : ∀ m ∈ start.contestMatches.rows, m.contestId = contestId →
      Delivered evs m.fixtureId ∨ (f = m.fixtureId ∧ FinalizedIn evs m.fixtureId))
    (hread : Final db f ∧ statusOf db contestId ∈ [some .locked, some .scoring] ∧
      ∃ m ∈ db.contestMatches.rows, m.contestId = contestId ∧ m.fixtureId = f)
    (hscored : AllScored db' contestId) : statusOf db' contestId = some .scored := by
  refine ((D.heard hread.1 hread.2.1).2 hread.2.2).2 (fun m hm hid => ?_) hscored
  rw [D.progress.matches_, H.progress.matches_] at hm
  refine (D.final _).2 ((H.final m hm hid).2 ?_)
  rcases hdel m hm hid with hd | ⟨_, hf⟩
  · exact hd.finalizedIn
  · exact hf

/-- A delivery that the contest does not read leaves nothing to be announced. -/
theorem History.deliver_finished_deaf (H : History contestId start evs db)
    (D : Delivery contestId f db db') (hl : LockedIn evs)
    (hheard : ∃ m ∈ start.contestMatches.rows, m.contestId = contestId ∧
      HeardLocked (evs ++ [.deliver now f]) m.fixtureId)
    (hdel : ∀ m ∈ start.contestMatches.rows, m.contestId = contestId →
      Delivered evs m.fixtureId ∨ (f = m.fixtureId ∧ FinalizedIn evs m.fixtureId))
    (hread : ¬ (Final db f ∧ statusOf db contestId ∈ [some .locked, some .scoring] ∧
      ∃ m ∈ db.contestMatches.rows, m.contestId = contestId ∧ m.fixtureId = f))
    (hscored : AllScored db' contestId) : statusOf db' contestId = some .scored := by
  obtain ⟨m, hm, hid, hh⟩ := hheard
  obtain ⟨hsame, hback⟩ := D.deaf hread
  rw [hsame]
  by_contra hs
  have hnot : ∀ m ∈ start.contestMatches.rows, m.contestId = contestId → f = m.fixtureId →
      ¬ FinalizedIn evs m.fixtureId := by
    rintro m hm hid rfl hf
    exact hread ⟨(H.final m hm hid).2 hf, H.running hl hs, m, H.progress.matches_ ▸ hm, hid, rfl⟩
  refine hs (H.finished ⟨m, hm, hid, ?_⟩ ?_ (hback hscored))
  · rcases (heardLocked_deliver evs now f _).1 hh with hold | ⟨hfm, hf, _⟩
    · exact hold
    · exact absurd hf (hnot m hm hid hfm)
  · intro m hm hid
    rcases hdel m hm hid with hd | ⟨hfm, hf⟩
    · exact hd
    · exact absurd hf (hnot m hm hid hfm)

theorem History.deliver (H : History contestId start evs db) (h : Published contestId start)
    (now f : ℕ) : History contestId start (evs ++ [.deliver now f])
      (handle contestId db (.deliver now f)) := by
  have hr : Referenced db := by
    intro m hm
    rw [H.rules]
    exact h.referenced m (H.progress.matches_ ▸ hm)
  have D := deliver_step now f (H.pinned h) hr
  change History contestId start _ (onResultFinalized now f db)
  generalize onResultFinalized now f db = db' at D
  have hlocked : LockedIn (evs ++ [.deliver now f]) ↔ LockedIn evs := by simp [lockedIn_snoc]
  exact
    { progress := H.progress.trans D.progress
      rules := fun k => (D.rules k).trans (H.rules k)
      unlocked := by
        intro hno
        rw [hlocked] at hno
        rw [(D.deaf (fun hd => hno (H.lockedIn hd.2.1))).1, H.unlocked hno]
      live := fun hl => H.deliver_live D (hlocked.1 hl)
      final := by
        intro m hm hid
        rw [D.final, H.final m hm hid, finalizedIn_snoc]
        simp
      unheard := fun m hm hid hne => H.deliver_unheard D hm hid hne
      heard := fun m hm hid hh p' hp' hb hon => H.deliver_heard D hm hid hh hp' hb hon
      complete := by
        intro hs
        rcases D.sound hs with hs | hs
        · exact D.progress.allScored (H.complete hs)
        · exact hs
      idle := fun hall => H.deliver_idle D hall
      finished := by
        intro hheard hall hscored
        have hl : LockedIn evs := by
          obtain ⟨m, _, _, hh⟩ := hheard
          exact hlocked.1 hh.lockedIn
        have hdel : ∀ m ∈ start.contestMatches.rows, m.contestId = contestId →
            Delivered evs m.fixtureId ∨ (f = m.fixtureId ∧ FinalizedIn evs m.fixtureId) := by
          intro m hm hid
          have hd := (delivered_snoc _ _ _).1 (hall m hm hid)
          simpa [Delivers] using hd
        by_cases hread : Final db f ∧ statusOf db contestId ∈ [some .locked, some .scoring] ∧
            ∃ m ∈ db.contestMatches.rows, m.contestId = contestId ∧ m.fixtureId = f
        · exact H.deliver_finished_read D hdel hread hscored
        · exact H.deliver_finished_deaf D hl hheard hdel hread hscored }

end Delivering

theorem history_handleAll (h : Published contestId start) (evs : List Event) :
    History contestId start evs (handleAll contestId start evs) := by
  induction evs using List.reverseRecOn with
  | nil => exact h.history
  | append_singleton evs e ih =>
    rw [handleAll, List.foldl_append]
    cases e with
    | lock now => exact ih.lock now
    | finalize now f result => exact ih.finalize h now f result
    | deliver now f => exact ih.deliver h now f

/-- All steps have happened: the lock, and each fixture's finalization and delivery. -/
structure Happened (contestId : ℕ) (db : Db) (evs : List Event) : Prop where
  locked : LockedIn evs
  delivered : ∀ m ∈ db.contestMatches.rows, m.contestId = contestId → Delivered evs m.fixtureId

/-- Each fixture that an entry picked on, and at least one fixture, is delivered after
both its finalization and the lock. -/
def HeardAfterLock (contestId : ℕ) (db : Db) (evs : List Event) : Prop :=
  (∀ m ∈ db.contestMatches.rows, m.contestId = contestId →
    (∃ p ∈ db.predictions.rows, BelongsTo db contestId p ∧ onMatch db m.id p) →
      HeardLocked evs m.fixtureId) ∧
    ∃ m ∈ db.contestMatches.rows, m.contestId = contestId ∧ HeardLocked evs m.fixtureId

/-- When all steps have happened, the contest is scored if and only if its results were
heard after the lock. -/
theorem noneLost_iff (h : Published contestId db) (evs : List Event)
    (hall : Happened contestId db evs) :
    (AllScored (handleAll contestId db evs) contestId ∧
        statusOf (handleAll contestId db evs) contestId ∈ [some .scored, some .settled]) ↔
      HeardAfterLock contestId db evs := by
  have H := history_handleAll h evs
  have hmatches := H.progress.matches_
  constructor
  · rintro ⟨hscored, hstatus⟩
    constructor
    · rintro m hm hid ⟨p, hp, hb, hon⟩
      by_contra hne
      obtain ⟨p', hp', hcols⟩ := H.progress.picks.mem_of hp
      have hb' := (H.progress.belongsTo_iff hcols.symm).1 hb
      exact hscored p' hp' hb' (H.unheard m hm hid hne p' hp' hb'
        ((H.progress.onMatch_iff hcols.symm m.id).1 hon))
    · by_contra hne
      push Not at hne
      have hidle := H.idle hne
      simp only [List.mem_cons, List.not_mem_nil, or_false] at hidle hstatus
      rcases hidle with hs | hs <;> simp [hs] at hstatus
  · rintro ⟨hpicked, hsome⟩
    have hscored : AllScored (handleAll contestId db evs) contestId := by
      intro p' hp' hb'
      obtain ⟨p, hp, hcols⟩ := H.progress.picks.mem hp'
      have hb := (H.progress.belongsTo_iff hcols).2 hb'
      obtain ⟨slot, m, hslot, _, hm, hid, hcontest⟩ := h.pinned.slots p hp hb
      have hon : onMatch db m.id p := onMatch_iff.2 ⟨slot, hslot, hid.symm⟩
      exact H.heard m hm hcontest (hpicked m hm hcontest ⟨p, hp, hb, hon⟩) p' hp' hb'
        ((H.progress.onMatch_iff hcols m.id).1 hon)
    refine ⟨hscored, ?_⟩
    rw [H.finished hsome hall.delivered hscored]
    simp

end Runs

section Order

theorem heardLocked_of_mem {before after : List Event} {f now : ℕ} (hf : FinalizedIn before f)
    (hl : LockedIn before) (hd : .deliver now f ∈ after) : HeardLocked (before ++ after) f := by
  obtain ⟨as, bs, rfl⟩ := List.append_of_mem hd
  refine ⟨before ++ as, .deliver now f, bs, by simp, ⟨now, rfl⟩, ?_, ?_⟩
  · obtain ⟨n, r, hmem⟩ := hf
    exact ⟨n, r, List.mem_append_left _ hmem⟩
  · obtain ⟨n, hmem⟩ := hl
    exact ⟨n, List.mem_append_left _ hmem⟩

theorem delivered_of_mem {before after : List Event} {f now : ℕ} (hf : FinalizedIn before f)
    (hd : .deliver now f ∈ after) : Delivered (before ++ after) f := by
  obtain ⟨as, bs, rfl⟩ := List.append_of_mem hd
  obtain ⟨n, r, hmem⟩ := hf
  exact ⟨before ++ as, .deliver now f, bs, by simp, ⟨now, rfl⟩, n, r, List.mem_append_left _ hmem⟩

/-- One user has entered contest 1, which is still open. -/
def enteredDb : Db :=
  ((Platform.protocol (fun _ _ => "")).run ⟨Platform.openDb, []⟩
    [.start (.submitSlip 7 (Platform.sampleSlip 1 "9a0e")), .resume 0 ⟨10, false, false⟩,
      .resume 0 ⟨10, false, false⟩]).shared

theorem published_enteredDb : Published 1 enteredDb where
  status := by decide +kernel
  nonempty := by decide +kernel
  pinned := by
    refine ⟨by decide +kernel, ?_⟩
    have h : ∀ p ∈ enteredDb.predictions.rows, ∃ slot ∈ enteredDb.contestSlots.find p.slotId,
        slot.contestId = 1 ∧ ∃ m ∈ enteredDb.contestMatches.rows, m.id = slot.contestMatchId ∧
          m.contestId = 1 := by decide +kernel
    intro p hp _
    obtain ⟨slot, hslot, hcontest, m, hm, hid, hm1⟩ := h p hp
    exact ⟨slot, m, hslot, hcontest, hm, hid, hm1⟩
  referenced := by unfold Referenced; decide +kernel
  unscored := by
    have h : ∀ p ∈ enteredDb.predictions.rows, p.scoredAt = none := by decide +kernel
    exact fun m _ p hp _ _ => h p hp
  noResult := by
    have h : ∀ m ∈ enteredDb.contestMatches.rows, ∀ f ∈ enteredDb.fixtures.find m.fixtureId,
        f.resultFinalizedAt = none := by decide +kernel
    rintro m hm _ ⟨f, hf, hfinal⟩
    exact hfinal (h m hm f hf)

def results : List Event :=
  (List.range 5).map (fun i => .finalize 150 (i + 1) ⟨2, 1, 1, 0, .home⟩)

def deliveries : List Event := (List.range 5).map (fun i => .deliver 160 (i + 1))

theorem enteredDb_fixtures : ∀ m ∈ enteredDb.contestMatches.rows,
    .finalize 150 m.fixtureId ⟨2, 1, 1, 0, .home⟩ ∈ results ∧
      .deliver 160 m.fixtureId ∈ deliveries := by decide +kernel

theorem noneLost_iff_lockFirst :
    AllScored (handleAll 1 enteredDb (.lock 100 :: results ++ deliveries)) 1 ∧
      statusOf (handleAll 1 enteredDb (.lock 100 :: results ++ deliveries)) 1 ∈
        [some .scored, some .settled] := by
  have hheard : ∀ m ∈ enteredDb.contestMatches.rows,
      HeardLocked (.lock 100 :: results ++ deliveries) m.fixtureId := fun m hm =>
    heardLocked_of_mem ⟨150, _, List.mem_cons_of_mem _ (enteredDb_fixtures m hm).1⟩ ⟨100, by simp⟩
      (enteredDb_fixtures m hm).2
  obtain ⟨m₀, hm₀, hid₀⟩ := published_enteredDb.nonempty
  refine (noneLost_iff published_enteredDb _ ⟨⟨100, by simp⟩, fun m hm _ => ?_⟩).2
    ⟨fun m hm _ _ => hheard m hm, m₀, hm₀, hid₀, hheard m₀ hm₀⟩
  exact delivered_of_mem ⟨150, _, List.mem_cons_of_mem _ (enteredDb_fixtures m hm).1⟩
    (enteredDb_fixtures m hm).2

/-- With the lock last the contest stays LOCKED for good. -/
theorem lateLock_loses : Published 1 enteredDb ∧
    Happened 1 enteredDb (results ++ (deliveries ++ [.lock 170])) ∧
    ¬ (AllScored (handleAll 1 enteredDb (results ++ (deliveries ++ [.lock 170]))) 1 ∧
      statusOf (handleAll 1 enteredDb (results ++ (deliveries ++ [.lock 170]))) 1 ∈
        [some .scored, some .settled]) := by
  refine ⟨published_enteredDb, ⟨⟨170, by simp⟩, fun m hm _ => ?_⟩, ?_⟩
  · obtain ⟨hfinal, hdeliver⟩ := enteredDb_fixtures m hm
    exact delivered_of_mem ⟨150, _, hfinal⟩ (List.mem_append_left _ hdeliver)
  · have hstatus : statusOf (handleAll 1 enteredDb (results ++ (deliveries ++ [.lock 170]))) 1 =
        some .locked := by decide +kernel
    rintro ⟨_, hs⟩
    rw [hstatus] at hs
    simp at hs

end Order

end Deliveries
end FootballIQ
