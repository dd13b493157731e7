import FootballIQ.Scoring

/-!
# What one scoring transaction does

Batching identical picks is an optimization: the transaction writes on every
prediction of the match the pure score of that prediction, and on no other. It
moves the contest from LOCKED to SCORING and otherwise recomputes aggregates.
-/

namespace FootballIQ
namespace Scoring

open Transaction Relational Contests

section Keys

theorem bar_not_mem_name (m : MarketType) : '|' ∉ m.name.toList := by
  cases m <;> decide

theorem name_injective {m m' : MarketType} (h : m.name = m'.name) : m = m' := by
  cases m <;> cases m' <;> first | rfl | simp [MarketType.name] at h

/-- The grouping key determines the market and the selection. -/
theorem groupKey_inj {p q : Prediction} (h : groupKey p = groupKey q) :
    p.marketType = q.marketType ∧ p.selection = q.selection := by
  have htake : ∀ m : MarketType, ∀ sel : String,
      (m.name ++ "|" ++ sel).toList.takeWhile (· ≠ '|') = m.name.toList := by
    intro m sel
    rw [String.toList_append, String.toList_append, List.append_assoc,
      List.takeWhile_append_of_pos]
    · simp
    · intro c hc
      have hne : c ≠ '|' := fun heq => bar_not_mem_name m (heq ▸ hc)
      simpa using hne
  have hname : p.marketType.name = q.marketType.name := by
    apply String.toList_injective
    rw [← htake p.marketType p.selection, ← htake q.marketType q.selection]
    exact congrArg (fun s => s.toList.takeWhile (· ≠ '|')) h
  have hmarket := name_injective hname
  refine ⟨hmarket, ?_⟩
  unfold groupKey at h
  rw [hmarket] at h
  exact String.append_right_inj _ |>.1 h

end Keys

section Grouping
variable (rules : List MarketRule) (result : FinalResult)

/-- The groups of some predictions: each id sits in the group of its key, and the
group carries the score of any prediction with that key. -/
structure Grouped (ps : List Prediction) (groups : List (String × Group)) : Prop where
  of_ids : ∀ g ∈ groups, ∀ id ∈ g.2.ids, ∃ p ∈ ps, p.id = id ∧ g.1 = groupKey p
  pick_eq : ∀ g ∈ groups, ∃ p ∈ ps, g.1 = groupKey p ∧ g.2.pick = scoreOf rules result p
  covered : ∀ p ∈ ps, ∃ g ∈ groups, g.1 = groupKey p ∧ p.id ∈ g.2.ids

theorem Grouped.start {ps : List Prediction} {groups : List (String × Group)}
    (h : Grouped rules result ps groups) (p : Prediction) :
    Grouped rules result (ps ++ [p])
      (groups ++ [(groupKey p, ⟨[p.id], scoreOf rules result p⟩)]) where
  of_ids := by
    intro g hg id hid
    rcases List.mem_append.1 hg with hg | hg
    · obtain ⟨q, hq, hqid, hkey⟩ := h.of_ids g hg id hid
      exact ⟨q, List.mem_append_left _ hq, hqid, hkey⟩
    · rw [List.mem_singleton] at hg
      subst hg
      exact ⟨p, by simp, (List.mem_singleton.1 hid).symm, rfl⟩
  pick_eq := by
    intro g hg
    rcases List.mem_append.1 hg with hg | hg
    · obtain ⟨q, hq, hpick⟩ := h.pick_eq g hg
      exact ⟨q, List.mem_append_left _ hq, hpick⟩
    · rw [List.mem_singleton] at hg
      subst hg
      exact ⟨p, by simp, rfl, rfl⟩
  covered := by
    intro q hq
    rcases List.mem_append.1 hq with hq | hq
    · obtain ⟨g, hg, hcov⟩ := h.covered q hq
      exact ⟨g, List.mem_append_left _ hg, hcov⟩
    · rw [List.mem_singleton] at hq
      subst hq
      exact ⟨(groupKey q, ⟨[q.id], scoreOf rules result q⟩), by simp, rfl, by simp⟩

/-- Append the id of `p` to the group of its key, and leave the other groups. -/
def join (p : Prediction) (g : String × Group) : String × Group :=
  if g.1 = groupKey p then (g.1, { g.2 with ids := g.2.ids ++ [p.id] }) else g

theorem join_fst (p : Prediction) (g : String × Group) : (join p g).1 = g.1 := by
  unfold join
  split_ifs <;> rfl

theorem join_pick (p : Prediction) (g : String × Group) : (join p g).2.pick = g.2.pick := by
  unfold join
  split_ifs <;> rfl

theorem mem_join_ids (p : Prediction) (g : String × Group) (id : ℕ) :
    id ∈ (join p g).2.ids ↔ id ∈ g.2.ids ∨ (g.1 = groupKey p ∧ id = p.id) := by
  unfold join
  by_cases hkey : g.1 = groupKey p
  · simp [hkey]
  · simp [hkey]

theorem Grouped.join {ps : List Prediction} {groups : List (String × Group)}
    (h : Grouped rules result ps groups) (p : Prediction)
    (hkey : ∃ g ∈ groups, g.1 = groupKey p) :
    Grouped rules result (ps ++ [p]) (groups.map (join p)) where
  of_ids := by
    intro g' hg' id hid
    obtain ⟨g, hg, rfl⟩ := List.mem_map.1 hg'
    rw [join_fst]
    rcases (mem_join_ids p g id).1 hid with hid | ⟨hgk, rfl⟩
    · obtain ⟨q, hq, hqid, hqk⟩ := h.of_ids g hg id hid
      exact ⟨q, List.mem_append_left _ hq, hqid, hqk⟩
    · exact ⟨p, by simp, rfl, hgk⟩
  pick_eq := by
    intro g' hg'
    obtain ⟨g, hg, rfl⟩ := List.mem_map.1 hg'
    obtain ⟨q, hq, hqk, hpick⟩ := h.pick_eq g hg
    exact ⟨q, List.mem_append_left _ hq, by rw [join_fst, hqk], by rw [join_pick, hpick]⟩
  covered := by
    intro q hq
    rcases List.mem_append.1 hq with hq | hq
    · obtain ⟨g, hg, hqk, hid⟩ := h.covered q hq
      exact ⟨_, List.mem_map_of_mem hg, by rw [join_fst, hqk], (mem_join_ids p g _).2 (Or.inl hid)⟩
    · rw [List.mem_singleton] at hq
      subst hq
      obtain ⟨g, hg, hgk⟩ := hkey
      exact ⟨_, List.mem_map_of_mem hg, by rw [join_fst, hgk],
        (mem_join_ids q g _).2 (Or.inr ⟨hgk, rfl⟩)⟩

theorem Grouped.addPick {ps : List Prediction} {groups : List (String × Group)}
    (h : Grouped rules result ps groups) (p : Prediction) :
    Grouped rules result (ps ++ [p]) (addPick rules result groups p) := by
  unfold Scoring.addPick
  cases hl : groups.lookup (groupKey p) with
  | none => exact h.start rules result p
  | some group =>
    refine h.join rules result p ?_
    obtain ⟨l, r, hlr, _⟩ := List.lookup_eq_some_iff.1 hl
    exact ⟨(groupKey p, group), by simp [hlr], rfl⟩

theorem grouped_pickGroups (ps : List Prediction) :
    Grouped rules result ps (pickGroups rules result ps) := by
  induction ps using List.reverseRecOn with
  | nil => exact ⟨by simp [pickGroups], by simp [pickGroups], by simp⟩
  | append_singleton ps p ih =>
    rw [pickGroups, List.foldl_append]
    exact ih.addPick rules result p

end Grouping

section Writing

/-- A prediction with its score written at `scoredAt`. -/
def withScore (scoredAt : DateTime) (pick : ScoredPick) (p : Prediction) : Prediction :=
  { p with
    isCorrect := some pick.isCorrect
    pointsX10 := pick.pointsX10
    scoredAt := some scoredAt }

theorem id_withScore (scoredAt : DateTime) (pick : ScoredPick) (p : Prediction) :
    Row.id (withScore scoredAt pick p) = Row.id p := rfl

theorem foldl_writeGroup_rows (scoredAt : DateTime) (gs : List Group) (t : Table Prediction) :
    (gs.foldl (writeGroup scoredAt) t).rows = t.rows.map (fun p =>
      gs.foldl (fun q g => if q.id ∈ g.ids then withScore scoredAt g.pick q else q) p) := by
  induction gs generalizing t with
  | nil => simp
  | cons g gs ih =>
    rw [List.foldl_cons, ih, writeGroup, Table.rows_updateWhere, List.map_map]
    rfl

/-- Groups that agree on the score of an id leave that score, if any of them has the id. -/
theorem foldl_withScore (scoredAt : DateTime) (pick : ScoredPick) (gs : List Group)
    (q : Prediction) (hagree : ∀ g ∈ gs, q.id ∈ g.ids → g.pick = pick) :
    gs.foldl (fun q g => if q.id ∈ g.ids then withScore scoredAt g.pick q else q) q =
      if ∃ g ∈ gs, q.id ∈ g.ids then withScore scoredAt pick q else q := by
  induction gs generalizing q with
  | nil => simp
  | cons g gs ih =>
    rw [List.foldl_cons]
    by_cases hg : q.id ∈ g.ids
    · rw [if_pos hg, hagree g List.mem_cons_self hg, if_pos ⟨g, List.mem_cons_self, hg⟩,
        ih (withScore scoredAt pick q) (fun g' hg' => hagree g' (List.mem_cons_of_mem g hg'))]
      split_ifs <;> rfl
    · rw [if_neg hg, ih q (fun g' hg' => hagree g' (List.mem_cons_of_mem g hg'))]
      have hiff : (∃ g' ∈ gs, q.id ∈ g'.ids) ↔ ∃ g' ∈ g :: gs, q.id ∈ g'.ids := by
        simp [hg]
      simp only [hiff]

variable (rules : List MarketRule) (result : FinalResult)

/-- The batched writes score every prediction of a list of rows by itself, and no other row. -/
theorem rows_writeGroups (scoredAt : DateTime) (t : Table Prediction) (ps : List Prediction)
    (hps : ∀ p ∈ ps, p ∈ t.rows) :
    (((pickGroups rules result ps).map Prod.snd).foldl (writeGroup scoredAt) t).rows =
      t.rows.map (fun p =>
        if p ∈ ps then withScore scoredAt (scoreOf rules result p) p else p) := by
  have hgr := grouped_pickGroups rules result ps
  rw [foldl_writeGroup_rows]
  apply List.map_congr_left
  intro p hp
  have hown : ∀ g ∈ (pickGroups rules result ps).map Prod.snd, p.id ∈ g.ids →
      p ∈ ps ∧ g.pick = scoreOf rules result p := by
    intro g hg hid
    obtain ⟨kg, hkg, rfl⟩ := List.mem_map.1 hg
    obtain ⟨q, hq, hqid, hqk⟩ := hgr.of_ids kg hkg p.id hid
    obtain ⟨q', _, hqk', hpick⟩ := hgr.pick_eq kg hkg
    have hqp : q = p := t.eq_of_id_eq (hps q hq) hp hqid
    obtain ⟨hmarket, hsel⟩ := groupKey_inj (hqk.symm.trans hqk')
    rw [hqp] at hq hmarket hsel
    refine ⟨hq, hpick.trans ?_⟩
    simp only [scoreOf, hmarket, hsel]
  rw [foldl_withScore scoredAt (scoreOf rules result p) _ p (fun g hg hid => (hown g hg hid).2)]
  have hiff : (∃ g ∈ (pickGroups rules result ps).map Prod.snd, p.id ∈ g.ids) ↔ p ∈ ps := by
    constructor
    · rintro ⟨g, hg, hid⟩
      exact (hown g hg hid).1
    · intro hmem
      obtain ⟨g, hg, _, hid⟩ := hgr.covered p hmem
      exact ⟨g.2, List.mem_map_of_mem hg, hid⟩
  simp only [hiff]

/-- The batched writes score every selected prediction by itself. -/
theorem writeGroups_eq (scoredAt : DateTime) (t : Table Prediction) (sel : Prediction → Prop)
    [DecidablePred sel] :
    ((pickGroups rules result (t.findMany sel)).map Prod.snd).foldl (writeGroup scoredAt) t =
      t.updateWhere sel (fun p => withScore scoredAt (scoreOf rules result p) p)
        (fun p => id_withScore scoredAt _ p) := by
  apply Table.ext_rows
  rw [rows_writeGroups rules result scoredAt t _ (fun p hp => ((t.mem_findMany sel p).1 hp).1),
    Table.rows_updateWhere]
  apply List.map_congr_left
  intro p hp
  have hiff : p ∈ t.findMany sel ↔ sel p := by
    rw [t.mem_findMany]
    exact and_iff_right hp
  simp only [hiff]

end Writing

section Transaction

/-- The predictions after one scoring transaction. -/
def scoredPredictions (db : Db) (now : DateTime) (rules : List MarketRule)
    (contestMatchId : ℕ) (result : FinalResult) : Table Prediction :=
  db.predictions.updateWhere (onMatch db contestMatchId)
    (fun p => withScore now (scoreOf rules result p) p) (fun p => id_withScore now _ p)

theorem id_scoring (c : Contest) : Row.id { c with status := .scoring } = Row.id c := rfl

/-- The contests after the first update of the transaction. -/
def openScoring (db : Db) (contestId : ℕ) : Table Contest :=
  db.contests.updateWhere (fun c => c.id = contestId ∧ c.status = .locked)
    (fun c => { c with status := .scoring }) id_scoring

/-- The state of the scoring transaction before its aggregates are recomputed. -/
def withPredictions (db : Db) (now : DateTime) (rules : List MarketRule)
    (contestId contestMatchId : ℕ) (result : FinalResult) : Db :=
  { db with
    contests := openScoring db contestId
    predictions := scoredPredictions db now rules contestMatchId result }

theorem scoreContestMatch_ok_iff (now : DateTime) (contestId contestMatchId : ℕ)
    (result : FinalResult) (db : Db) (r : PUnit × Db) :
    scoreContestMatch now contestId contestMatchId result db = .ok r ↔
      ∃ c ruleSet, (openScoring db contestId).find contestId = some c ∧
        db.ruleSets.find c.ruleSetId = some ruleSet ∧
        r.2 = { withPredictions db now ruleSet.marketRules contestId contestMatchId result with
          entries := recomputeAggregates (withPredictions db now ruleSet.marketRules contestId
            contestMatchId result) contestId
          outbox := db.outbox ++ [.predictionScored contestId] } := by
  simp only [scoreContestMatch, moveContest, bind_ok_iff, get_ok_iff, set_ok_iff, pure_ok_iff,
    orThrow_ok_iff, modify_ok_iff, Db.emit_ok_iff]
  constructor
  · rintro ⟨_, _, ⟨_, _, ⟨rfl, rfl⟩, _, _, rfl, rfl, rfl⟩, _, _, ⟨rfl, rfl⟩, c, _, ⟨hc, rfl⟩,
      ruleSet, _, ⟨hrules, rfl⟩, _, _, rfl, _, _, rfl, hr⟩
    refine ⟨c, ruleSet, hc, hrules, hr.symm.trans ?_⟩
    simp only [writeGroups_eq]
    rfl
  · rintro ⟨c, ruleSet, hc, hrules, hr⟩
    refine ⟨_, _, ⟨db, db, ⟨rfl, rfl⟩, ⟨⟩, _, rfl, rfl, rfl⟩, _, _, ⟨rfl, rfl⟩, c, _, ⟨hc, rfl⟩,
      ruleSet, _, ⟨hrules, rfl⟩, ⟨⟩, _, rfl, ⟨⟩, _, rfl, ?_⟩
    refine Eq.trans ?_ hr.symm
    simp only [writeGroups_eq]
    rfl

/-- The state after the conditional transaction hit. -/
def completed (db : Db) (now contestId : ℕ) : Db :=
  { db with
    contests := db.contests.update contestId
      (fun c => { c with status := .scored, scoredAt := some now }) (fun _ => rfl)
    outbox := db.outbox ++ [.contestScored contestId] }

theorem markScored_cases (now contestId : ℕ) (db : Db) :
    (∃ c, db.contests.find contestId = some c ∧ c.status = .scoring ∧
        commit (markScored now contestId) db = completed db now contestId) ∨
      ((∀ c, db.contests.find contestId = some c → c.status ≠ .scoring) ∧
        commit (markScored now contestId) db = db) := by
  unfold markScored
  rcases moveContest_cases contestId .scoring
    (fun c => { c with status := .scored, scoredAt := some now }) (fun _ => rfl) db with
    ⟨c, hc, hs, hmove⟩ | ⟨hno, hmove⟩
  · exact Or.inl ⟨c, hc, hs, commit_of_ok (by rw [bind_of_ok hmove]; rfl)⟩
  · exact Or.inr ⟨hno, commit_of_ok (by rw [bind_of_ok hmove]; rfl)⟩

end Transaction

end Scoring
end FootballIQ
