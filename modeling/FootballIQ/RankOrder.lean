import FootballIQ.KeyOrder
import FootballIQ.Ranking
import Mathlib.Data.Prod.Lex
import Mathlib.Data.String.Basic

/-!
# The ranking is a total order

The tie-breaker chain compares by the lexicographic key of its five columns. While the
draw hashes of the entries differ the chain is a strict total order, and the ranking
does not depend on the order in which the entries come.
-/

namespace FootballIQ
namespace Ranking

open KeyOrder OrderDual

section Keys
variable (drawHash : ℕ → ℕ → String) (contestId : ℕ)

/-- The columns of the tie-breaker chain, the first three descending. -/
def rankKey (e : RankableEntry) : ℕᵒᵈ ×ₗ ℕᵒᵈ ×ₗ ℕᵒᵈ ×ₗ DateTime ×ₗ String :=
  toLex (toDual e.totalPointsX10, toLex (toDual e.correctExpert, toLex (toDual e.correctHard,
    toLex (e.submittedAt, drawHash contestId e.entryId))))

theorem compareEntries_comparesBy :
    ComparesBy (compareEntries drawHash contestId) (rankKey drawHash contestId) := by
  intro a b
  simp only [compareEntries, rankKey, Prod.Lex.compare_def, compareLex, compareOn, ofLex_toLex]
  rfl

/-- The draws of all entries differ. -/
def DistinctDraws (entries : List RankableEntry) : Prop :=
  (entries.map (fun e => drawHash contestId e.entryId)).Nodup

variable {drawHash contestId} {entries : List RankableEntry}

theorem draw_of_rankKey {a b : RankableEntry}
    (h : rankKey drawHash contestId a = rankKey drawHash contestId b) :
    drawHash contestId a.entryId = drawHash contestId b.entryId :=
  congrArg (fun k => (ofLex (ofLex (ofLex (ofLex k).2).2).2).2) h

theorem DistinctDraws.eq_of_draw (h : DistinctDraws drawHash contestId entries)
    {a b : RankableEntry} (ha : a ∈ entries) (hb : b ∈ entries)
    (hdraw : drawHash contestId a.entryId = drawHash contestId b.entryId) : a = b :=
  List.inj_on_of_nodup_map h ha hb hdraw

theorem DistinctDraws.nodup_keys (h : DistinctDraws drawHash contestId entries) :
    (entries.map (rankKey drawHash contestId)).Nodup := by
  apply List.Nodup.of_map (fun k => (ofLex (ofLex (ofLex (ofLex k).2).2).2).2)
  rw [List.map_map]
  exact h

end Keys

section Sorted
variable {drawHash : ℕ → ℕ → String} {contestId : ℕ} {entries entries' : List RankableEntry}

theorem pairwise_rankEntries (h : DistinctDraws drawHash contestId entries) :
    (rankEntries drawHash contestId entries).Pairwise
      (fun a b => rankKey drawHash contestId a < rankKey drawHash contestId b) :=
  pairwise_lt_sort (compareEntries_comparesBy drawHash contestId) h.nodup_keys

theorem rankEntries_eq_of_perm (h : DistinctDraws drawHash contestId entries)
    (hp : entries'.Perm entries) :
    rankEntries drawHash contestId entries' = rankEntries drawHash contestId entries :=
  sort_eq_of_perm (compareEntries_comparesBy drawHash contestId) h.nodup_keys hp

end Sorted

/-- With distinct draws the chain is a strict total order on the entries, and the ranking
lists them in its order, whichever order they come in. -/
theorem rankEntries_total (drawHash : ℕ → ℕ → String) (contestId : ℕ)
    (entries : List RankableEntry) (hdraws : DistinctDraws drawHash contestId entries) :
    StrictTotalOn (compareEntries drawHash contestId) entries ∧
      (rankEntries drawHash contestId entries).Perm entries ∧
      (rankEntries drawHash contestId entries).Pairwise
        (fun a b => rankKey drawHash contestId a < rankKey drawHash contestId b) ∧
      ∀ entries', entries'.Perm entries →
        rankEntries drawHash contestId entries' = rankEntries drawHash contestId entries := by
  refine ⟨?_, rankEntries_perm drawHash contestId entries, pairwise_rankEntries hdraws,
    fun entries' hp => rankEntries_eq_of_perm hdraws hp⟩
  apply strictTotalOn (compareEntries_comparesBy drawHash contestId)
  intro a ha b hb heq
  exact hdraws.eq_of_draw ha hb (draw_of_rankKey heq)

/-- Two entries that only the draw tells apart. -/
def drawnEntries : List RankableEntry := [⟨1, 7, 500, 1, 2, 10⟩, ⟨2, 8, 500, 1, 2, 10⟩]

theorem rankEntries_total_drawn :
    (rankEntries (fun _ id => if id = 1 then "b3" else "0a") 1 drawnEntries).map (·.entryId) =
        [2, 1] ∧
      rankEntries (fun _ id => if id = 1 then "b3" else "0a") 1 drawnEntries.reverse =
        rankEntries (fun _ id => if id = 1 then "b3" else "0a") 1 drawnEntries :=
  ⟨by decide, (rankEntries_total _ 1 drawnEntries (by unfold DistinctDraws; decide)).2.2.2 _
    (List.reverse_perm drawnEntries)⟩

end Ranking
end FootballIQ
