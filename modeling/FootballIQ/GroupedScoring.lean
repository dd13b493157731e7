import FootballIQ.ScorePass
import FootballIQ.Tallies

/-!
# Grouped scoring is scoring one by one

The groups of the scoring loop are a tally of ids by the key of their pick. A prediction is in the
group of its key and in no other, no group is empty, and one write per group leaves on every
prediction what it scores alone.
-/

namespace FootballIQ
namespace Scoring

open Relational Tallies

section Cells
variable (rules : List MarketRule) (result : FinalResult)

/-- The groups without the score that their first member left. -/
def idCells (groups : List (String × Group)) : List (String × List ℕ) :=
  groups.map (fun g => (g.1, g.2.ids))

def addId (p : Prediction) (ids : List ℕ) : List ℕ := ids ++ [p.id]

theorem keys_idCells (groups : List (String × Group)) :
    (idCells groups).map Prod.fst = groups.map Prod.fst := by
  rw [idCells, List.map_map]
  rfl

/-- A turn of the loop adds the id to the cell of the key. -/
theorem idCells_addPick {groups : List (String × Group)} (hnd : (groups.map Prod.fst).Nodup)
    (p : Prediction) :
    idCells (addPick rules result groups p) = tally [] addId groupKey (idCells groups) p := by
  rw [← keys_idCells] at hnd
  unfold addPick tally
  cases hl : groups.lookup (groupKey p) with
  | none =>
    have hkey : groupKey p ∉ (idCells groups).map Prod.fst := by
      rw [keys_idCells]
      intro hmem
      obtain ⟨g, hg, hgk⟩ := List.mem_map.1 hmem
      have hne := List.lookup_eq_none_iff.1 hl g hg
      simp [hgk] at hne
    rw [bump_of_not_mem _ _ hkey, idCells, List.map_append]
    rfl
  | some group =>
    have hkey : groupKey p ∈ (idCells groups).map Prod.fst := by
      rw [keys_idCells]
      obtain ⟨l, r, hlr, _⟩ := List.lookup_eq_some_iff.1 hl
      rw [hlr]
      simp
    rw [bump_of_mem _ _ hnd hkey, idCells, idCells, List.map_map, List.map_map]
    apply List.map_congr_left
    intro g _
    by_cases hgk : g.1 = groupKey p
    · simp [hgk, addId]
    · simp [hgk]

/-- The loop tallies the ids by key. -/
theorem idCells_pickGroups (ps : List Prediction) :
    idCells (pickGroups rules result ps) = ps.foldl (tally [] addId groupKey) [] := by
  induction ps using List.reverseRecOn with
  | nil => rfl
  | append_singleton ps p ih =>
    have hnd := (holds_foldl [] addId groupKey ps).nodup_keys
    rw [← ih, keys_idCells] at hnd
    rw [pickGroups, List.foldl_append, List.foldl_append, List.foldl_cons, List.foldl_nil,
      List.foldl_cons, List.foldl_nil, ← pickGroups, idCells_addPick rules result hnd, ih]

theorem holds_pickGroups (ps : List Prediction) :
    Holds [] addId groupKey ps (idCells (pickGroups rules result ps)) := by
  rw [idCells_pickGroups]
  exact holds_foldl [] addId groupKey ps

theorem foldl_addId (ps : List Prediction) (ids : List ℕ) :
    ps.foldl (fun ids p => addId p ids) ids = ids ++ ps.map Prediction.id := by
  induction ps generalizing ids with
  | nil => simp
  | cons p ps ih =>
    rw [List.foldl_cons, ih, addId, List.map_cons, List.append_assoc]
    rfl

theorem nodup_keys_pickGroups (ps : List Prediction) :
    ((pickGroups rules result ps).map Prod.fst).Nodup := by
  rw [← keys_idCells]
  exact (holds_pickGroups rules result ps).nodup_keys

theorem mem_keys_pickGroups (ps : List Prediction) (k : String) :
    k ∈ (pickGroups rules result ps).map Prod.fst ↔ k ∈ ps.map groupKey := by
  rw [← keys_idCells]
  exact (holds_pickGroups rules result ps).mem_keys k

/-- A group has the ids of the predictions with its key. -/
theorem ids_eq_filter {ps : List Prediction} {g : String × Group}
    (hg : g ∈ pickGroups rules result ps) :
    g.2.ids = (ps.filter (fun p => groupKey p = g.1)).map Prediction.id := by
  have hcell := (holds_pickGroups rules result ps).cell_eq (g.1, g.2.ids)
    (List.mem_map_of_mem (f := fun g => (g.1, g.2.ids)) hg)
  rw [foldl_addId, List.nil_append] at hcell
  exact hcell

end Cells

section Partition
variable (rules : List MarketRule) (result : FinalResult) {ps : List Prediction}

theorem ids_ne_nil {g : String × Group} (hg : g ∈ pickGroups rules result ps) : g.2.ids ≠ [] := by
  have hkey : g.1 ∈ ps.map groupKey :=
    (mem_keys_pickGroups rules result ps g.1).1 (List.mem_map_of_mem hg)
  obtain ⟨p, hp, hpk⟩ := List.mem_map.1 hkey
  have hid : p.id ∈ g.2.ids := by
    rw [ids_eq_filter rules result hg]
    exact List.mem_map_of_mem (List.mem_filter.2 ⟨hp, by simpa using hpk⟩)
  exact List.ne_nil_of_mem hid

/-- The id of a prediction is in the group of its key only. -/
theorem id_mem_ids_iff (hids : (ps.map Prediction.id).Nodup) {p : Prediction} (hp : p ∈ ps)
    {g : String × Group} (hg : g ∈ pickGroups rules result ps) :
    p.id ∈ g.2.ids ↔ g.1 = groupKey p := by
  rw [ids_eq_filter rules result hg, List.mem_map]
  constructor
  · rintro ⟨q, hq, hqid⟩
    obtain ⟨hqps, hqk⟩ := List.mem_filter.1 hq
    have hqp : q = p := List.inj_on_of_nodup_map hids hqps hp hqid
    rw [← hqp]
    exact (of_decide_eq_true hqk).symm
  · intro hgk
    exact ⟨p, List.mem_filter.2 ⟨hp, by simp [hgk]⟩, rfl⟩

theorem countP_groups_eq_one (hids : (ps.map Prediction.id).Nodup) {p : Prediction}
    (hp : p ∈ ps) :
    ((pickGroups rules result ps).map Prod.snd).countP (fun g => p.id ∈ g.ids) = 1 := by
  have hkey : groupKey p ∈ (pickGroups rules result ps).map Prod.fst :=
    (mem_keys_pickGroups rules result ps _).2 (List.mem_map_of_mem hp)
  have hcount := List.count_eq_one_of_mem (nodup_keys_pickGroups rules result ps) hkey
  rw [← hcount, List.count, List.countP_map, List.countP_map]
  apply List.countP_congr
  intro g hg
  simpa using id_mem_ids_iff rules result hids hp hg

end Partition

section EachAlone
variable (rules : List MarketRule) (result : FinalResult)

/-- The writes of the groups score every prediction as it scores alone and leave the other rows;
every prediction is in one group, and none of the groups is empty. -/
theorem groups_score_alone (scoredAt : DateTime) (t : Table Prediction) (ps : List Prediction)
    (hids : (ps.map Prediction.id).Nodup) (hrows : ∀ p ∈ ps, p ∈ t.rows) :
    (((pickGroups rules result ps).map Prod.snd).foldl (writeGroup scoredAt) t).rows =
        t.rows.map (fun p => if p ∈ ps then
          withScore scoredAt (scorePrediction p.marketType p.selection result
            ((pointsByMarket rules p.marketType).getD 0)) p else p) ∧
      (∀ p ∈ ps,
        ((pickGroups rules result ps).map Prod.snd).countP (fun g => p.id ∈ g.ids) = 1) ∧
      ∀ g ∈ (pickGroups rules result ps).map Prod.snd, g.ids ≠ [] := by
  refine ⟨rows_writeGroups rules result scoredAt t ps hrows, ?_, ?_⟩
  · intro p hp
    exact countP_groups_eq_one rules result hids hp
  · intro g hg
    obtain ⟨kg, hkg, rfl⟩ := List.mem_map.1 hg
    exact ids_ne_nil rules result hkg

def listedPick (id : ℕ) (marketType : MarketType) (selection : String) : Prediction where
  id := id
  entryId := id
  slotId := 1
  marketType := marketType
  selection := selection
  isCorrect := none
  pointsX10 := 0
  scoredAt := none

def listedPicks : Table Prediction :=
  ⟨[listedPick 1 .matchWinner "HOME", listedPick 2 .correctScore "2|1",
    listedPick 3 .matchWinner "HOME", listedPick 4 .matchWinner "AWAY"], by decide⟩

def listedRules : List MarketRule := [⟨.matchWinner, 10⟩, ⟨.correctScore, 70⟩]

/-- Two picks of one kind, a selection with the separator in it, and a row that is not listed. -/
theorem groups_score_alone_listed :
    (((pickGroups listedRules ⟨2, 1, 0, 0, .home⟩ (listedPicks.rows.take 3)).map
        Prod.snd).foldl (writeGroup 7) listedPicks).rows =
      [withScore 7 ⟨true, 10⟩ (listedPick 1 .matchWinner "HOME"),
        withScore 7 ⟨false, 0⟩ (listedPick 2 .correctScore "2|1"),
        withScore 7 ⟨true, 10⟩ (listedPick 3 .matchWinner "HOME"),
        listedPick 4 .matchWinner "AWAY"] :=
  (groups_score_alone listedRules ⟨2, 1, 0, 0, .home⟩ 7 listedPicks (listedPicks.rows.take 3)
    (by decide) (fun _ hp => List.mem_of_mem_take hp)).1.trans (by decide)

end EachAlone

end Scoring
end FootballIQ
