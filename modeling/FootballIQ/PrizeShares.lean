import FootballIQ.Ranking

/-!
# The prizes of a tiling

Over a template whose rows cover the positions from 1 on, each position has the share
of its row, and the prizes divide the pool by the shares of the paid positions.
-/

namespace FootballIQ
namespace Ranking

open Apportionment

/-- The share of the row that covers the position. -/
def shareAt (template : List PayoutRow) (pos : ℕ) : ℕ :=
  ((template.find? (fun row => row.from_ ≤ pos ∧ pos ≤ row.to_)).map PayoutRow.share).getD 0

/-- The shares of the paid positions. -/
def paidShares (template : List PayoutRow) (paid : ℕ) : List ℕ :=
  (List.range' 1 paid).map (shareAt template)

section Shares
variable {template : List PayoutRow} {n : ℕ}

theorem mem_positions {row : PayoutRow} {pos : ℕ} :
    pos ∈ PayoutRow.positions row ↔ row.from_ ≤ pos ∧ pos ≤ row.to_ := by
  unfold PayoutRow.positions
  rw [List.mem_range'_1]
  omega

/-- What is written at a position of a tiling is the share of the row that covers it. -/
theorem shareAt_of_mem_writes (ht : Tiles template n) {pos share : ℕ}
    (hw : (pos, share) ∈ writes template) : shareAt template pos = share := by
  obtain ⟨row, hrow, hmem⟩ := List.mem_flatMap.1 hw
  obtain ⟨pos', hpos', heq⟩ := List.mem_map.1 hmem
  obtain ⟨rfl, rfl⟩ := Prod.mk.inj heq
  have hcovers := mem_positions.1 hpos'
  unfold shareAt
  cases hfind : template.find? (fun row => row.from_ ≤ pos' ∧ pos' ≤ row.to_) with
  | none =>
    have hnone := List.find?_eq_none.1 hfind row hrow
    exact absurd (decide_eq_true hcovers) hnone
  | some row' =>
    have hcovers' : row'.from_ ≤ pos' ∧ pos' ≤ row'.to_ := by
      have hfound := List.find?_some hfind
      exact of_decide_eq_true hfound
    have hw' : (pos', PayoutRow.share row') ∈ writes template :=
      List.mem_flatMap.2 ⟨row', List.mem_of_find?_eq_some hfind,
        List.mem_map_of_mem (mem_positions.2 hcovers')⟩
    have hnd : ((writes template).map Prod.fst).Nodup := ht.nodup_iff.2 List.nodup_range'
    have hsame : (pos', PayoutRow.share row') = (pos', PayoutRow.share row) :=
      List.inj_on_of_nodup_map hnd hw' hw rfl
    exact congrArg Prod.snd hsame

theorem getElem?_perPosition (ht : Tiles template n) {i : ℕ} (hi : i < n) :
    (perPosition template)[i]? = some (some (shareAt template (i + 1))) := by
  obtain ⟨v, hv⟩ := filled_perPosition ht hi
  rcases written_foldl_assign _ (fun w hw => (writes_pos ht w hw).1) [] i v hv with hnil | hw
  · simp at hnil
  · rw [hv, shareAt_of_mem_writes ht hw]

theorem take_perPosition (ht : Tiles template n) {m : ℕ} (hm : m ≤ n) :
    (perPosition template).take m = (paidShares template m).map some := by
  apply List.ext_getElem?
  intro i
  by_cases hi : i < m
  · rw [List.getElem?_take_of_lt hi, getElem?_perPosition ht (hi.trans_le hm), paidShares,
      List.getElem?_map, List.getElem?_map, List.getElem?_range' hi]
    simp [add_comm]
  · rw [List.getElem?_eq_none (by simp; omega), List.getElem?_eq_none (by simp [paidShares]; omega)]

@[simp] theorem length_paidShares (template : List PayoutRow) (m : ℕ) :
    (paidShares template m).length = m := by
  unfold paidShares
  rw [List.length_map, List.length_range']

theorem getElem?_paidShares {m i : ℕ} (hi : i < m) :
    (paidShares template m)[i]? = some (shareAt template (i + 1)) := by
  unfold paidShares
  rw [List.getElem?_map, List.getElem?_range' hi, Option.map_some, mul_comm, mul_one, add_comm]

/-- With shares to divide by, the computation divides the pool by them. -/
theorem computePrizes_divide {entrantCount : ℕ} {pool : ℤ} (ht : Tiles template n)
    (hpool : 0 < pool) (hs : 0 < (paidShares template (min entrantCount n)).sum) :
    computePrizes pool template entrantCount =
      .ok ((divide pool (paidShares template (min entrantCount n))).map some) := by
  have hlen := length_perPosition ht
  have htake := take_perPosition ht (min_le_right entrantCount n)
  generalize hm : min entrantCount n = m at hs htake
  have hzero : m ≠ 0 := by
    rintro rfl
    cases hs
  have hne : ((paidShares template m).sum : ℤ) ≠ 0 := by exact_mod_cast hs.ne'
  have hprizes : ((paidShares template m).map some).map (Option.map
      (fun share : ℕ => (pool * share).tdiv ((paidShares template m).sum : ℕ))) =
      (portions pool (paidShares template m)).map some := by
    rw [← portions_eq hpool.le, List.map_map, List.map_map]
    rfl
  simp only [computePrizes, hlen, hm, htake, reduceOption_map_some, hprizes, hne, hzero, false_and,
    if_false, not_le.2 hpool, or_self]
  unfold divide dust
  cases portions pool (paidShares template m) with
  | nil => rfl
  | cons p ps => rfl

theorem computePrizes_of_no_shares {entrantCount : ℕ} {pool : ℤ} (ht : Tiles template n)
    (hn : 1 ≤ n) (hpool : 0 < pool) (hentrants : 1 ≤ entrantCount)
    (hs : (paidShares template (min entrantCount n)).sum = 0) :
    computePrizes pool template entrantCount = .error (.error "Division by zero") := by
  have hlen := length_perPosition ht
  have htake := take_perPosition ht (min_le_right entrantCount n)
  have hzero : min entrantCount n ≠ 0 := by omega
  have hne : paidShares template (min entrantCount n) ≠ [] := by
    rw [← List.length_pos_iff, length_paidShares]
    omega
  simp only [computePrizes, hlen, htake, reduceOption_map_some, hs, hzero, hne, not_le.2 hpool,
    or_self, if_false, Nat.cast_zero, ne_eq, not_false_eq_true, and_self, if_true]

end Shares

/-- What a division of the pool over the paid positions has to be: exact, with every
prize its floor, up to the dust of the first. -/
structure Divides (pool : ℤ) (template : List PayoutRow) (paid : ℕ) (prizes : List ℤ) : Prop where
  length : prizes.length = paid
  nonneg : ∀ prize ∈ prizes, 0 ≤ prize
  sum : prizes.sum = pool
  floors : ∀ pos, 2 ≤ pos → pos ≤ paid → prizes[pos - 1]? =
    some (pool * shareAt template pos / ((paidShares template paid).sum : ℕ))
  first : ∃ prize, prizes[0]? = some prize ∧
    pool * shareAt template 1 / ((paidShares template paid).sum : ℕ) ≤ prize ∧
    prize ≤ pool * shareAt template 1 / ((paidShares template paid).sum : ℕ) + (paid - 1)
  antitone : (paidShares template paid).Pairwise (· ≥ ·) → prizes.Pairwise (· ≥ ·)

theorem divides_divide {pool : ℤ} {template : List PayoutRow} {paid : ℕ} (hpool : 0 < pool)
    (hs : 0 < (paidShares template paid).sum) :
    Divides pool template paid (divide pool (paidShares template paid)) where
  length := by rw [length_divide, length_paidShares]
  nonneg := divide_nonneg hpool.le hs
  sum := sum_divide hs
  floors pos hpos hle := by
    rw [getElem?_divide (by omega), getElem?_paidShares (by omega), Option.map_some,
      Nat.sub_add_cancel (by omega)]
    rfl
  first := by
    have hpaid : 0 < paid := by
      rw [← length_paidShares template paid, List.length_pos_iff]
      intro hnil
      rw [hnil] at hs
      cases hs
    obtain ⟨prize, hprize, hge, hle⟩ :=
      getElem?_divide_zero pool hs (getElem?_paidShares hpaid)
    rw [length_paidShares] at hle
    exact ⟨prize, hprize, hge, hle⟩
  antitone := divide_antitone hpool.le hs

/-- A pool is divided exactly and fairly over any tiling and any number of entrants, and
the computation fails exactly when the paid positions have no share at all. -/
theorem computePrizes_exact (pool : ℤ) (template : List PayoutRow) (n entrantCount : ℕ)
    (ht : Tiles template n) (hn : 1 ≤ n) (hpool : 0 < pool) (hentrants : 1 ≤ entrantCount) :
    (0 < (paidShares template (min entrantCount n)).sum → ∃ prizes : List ℤ,
      computePrizes pool template entrantCount = .ok (prizes.map some) ∧
        Divides pool template (min entrantCount n) prizes) ∧
      ((∃ e, computePrizes pool template entrantCount = .error e) ↔
        (paidShares template (min entrantCount n)).sum = 0) := by
  refine ⟨fun hs => ⟨_, computePrizes_divide ht hpool hs, divides_divide hpool hs⟩, ?_⟩
  rcases Nat.eq_zero_or_pos (paidShares template (min entrantCount n)).sum with hs | hs
  · exact iff_of_true ⟨_, computePrizes_of_no_shares ht hn hpool hentrants hs⟩ hs
  · rw [computePrizes_divide ht hpool hs]
    apply iff_of_false
    · rintro ⟨e, he⟩
      cases he
    · exact hs.ne'

/-- A template of two rows, the second over two positions, for two entrants. -/
theorem computePrizes_exact_ranged :
    computePrizes 100001 [⟨1, 1, 6000⟩, ⟨2, 3, 4001⟩] 2 = .ok [some 75001, some 25000] ∧
      ((∃ e, computePrizes 100001 [⟨1, 1, 6000⟩, ⟨2, 3, 4001⟩] 2 = .error e) ↔
        (paidShares [⟨1, 1, 6000⟩, ⟨2, 3, 4001⟩] (min 2 3)).sum = 0) :=
  ⟨by decide, (computePrizes_exact 100001 [⟨1, 1, 6000⟩, ⟨2, 3, 4001⟩] 3 2 (by decide) (by decide)
    (by decide) (by decide)).2⟩

end Ranking
end FootballIQ
