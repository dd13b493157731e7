import FootballIQ.Apportionment
import FootballIQ.Schema
import Mathlib.Data.List.ReduceOption
import Mathlib.Data.List.Sort

/-!
# Ranking and prize computation

The tie-breaker chain, the stable sort by it, and the expansion of a payout
template into integer prizes. The template is written position by position into
a sparse array, so a position that no row writes is a hole.
-/

namespace FootballIQ
namespace Ranking

structure RankableEntry where
  entryId : ℕ
  userId : ℕ
  totalPointsX10 : ℕ
  correctExpert : ℕ
  correctHard : ℕ
  submittedAt : DateTime
  deriving DecidableEq

section Order
variable (drawHash : ℕ → ℕ → String)

/-- Points, Expert and Hard counts descending, then submission time, then the draw. -/
def compareEntries (contestId : ℕ) (a b : RankableEntry) : Ordering :=
  (compare b.totalPointsX10 a.totalPointsX10).then <|
  (compare b.correctExpert a.correctExpert).then <|
  (compare b.correctHard a.correctHard).then <|
  (compare a.submittedAt b.submittedAt).then <|
  compare (drawHash contestId a.entryId) (drawHash contestId b.entryId)

def rankEntries (contestId : ℕ) (entries : List RankableEntry) : List RankableEntry :=
  entries.insertionSort (fun a b => compareEntries drawHash contestId a b ≠ .gt)

theorem rankEntries_perm (contestId : ℕ) (entries : List RankableEntry) :
    (rankEntries drawHash contestId entries).Perm entries :=
  List.perm_insertionSort _ entries

end Order

section Template

/-- The positions that a row of the template covers. -/
def PayoutRow.positions (row : PayoutRow) : List ℕ :=
  List.range' row.from_ (row.to_ + 1 - row.from_)

def PayoutRow.share (row : PayoutRow) : ℕ := row.shareBps / (row.to_ + 1 - row.from_)

/-- The assignment `perPosition[pos - 1] = share`, which grows the array with holes. -/
def assign (perPosition : List (Option ℕ)) (pos share : ℕ) : List (Option ℕ) :=
  if pos = 0 then perPosition
  else if pos ≤ perPosition.length then perPosition.set (pos - 1) (some share)
  else perPosition ++ List.replicate (pos - 1 - perPosition.length) none ++ [some share]

/-- All assignments of the two nested loops, in order. -/
def writes (template : List PayoutRow) : List (ℕ × ℕ) :=
  template.flatMap (fun row => (PayoutRow.positions row).map (fun pos => (pos, PayoutRow.share row)))

def perPosition (template : List PayoutRow) : List (Option ℕ) :=
  (writes template).foldl (fun shares w => assign shares w.1 w.2) []

/-- The rows cover every position from 1 to `n` exactly once, in any order of the rows. -/
def Tiles (template : List PayoutRow) (n : ℕ) : Prop :=
  ((writes template).map Prod.fst).Perm (List.range' 1 n)

instance (template : List PayoutRow) (n : ℕ) : Decidable (Tiles template n) :=
  inferInstanceAs (Decidable (List.Perm _ _))

theorem length_assign (s : List (Option ℕ)) {pos : ℕ} (share : ℕ) (hpos : 1 ≤ pos) :
    (assign s pos share).length = max s.length pos := by
  unfold assign
  rw [if_neg (by omega)]
  by_cases hle : pos ≤ s.length
  · rw [if_pos hle, List.length_set]
    omega
  · rw [if_neg hle, List.length_append, List.length_append, List.length_replicate,
      List.length_singleton]
    omega

theorem getElem?_assign (s : List (Option ℕ)) {pos : ℕ} (share : ℕ) (hpos : 1 ≤ pos) (i : ℕ)
    (v : ℕ) : (assign s pos share)[i]? = some (some v) ↔
      (i = pos - 1 ∧ v = share) ∨ (i ≠ pos - 1 ∧ s[i]? = some (some v)) := by
  unfold assign
  rw [if_neg (by omega)]
  by_cases hle : pos ≤ s.length
  · rw [if_pos hle, List.getElem?_set]
    by_cases hi : pos - 1 = i
    · have hlt : pos - 1 < s.length := by omega
      simp [hi, hi ▸ hlt, eq_comm]
    · simp [hi, Ne.symm hi]
  · rw [if_neg hle]
    rcases lt_trichotomy i (pos - 1) with hi | hi | hi
    · rw [List.getElem?_append_left (by simp; omega)]
      rcases lt_or_ge i s.length with his | his
      · rw [List.getElem?_append_left his]
        simp [hi.ne]
      · rw [List.getElem?_append_right his, List.getElem?_replicate_of_lt (by omega),
          List.getElem?_eq_none his]
        simp [hi.ne]
    · rw [List.getElem?_append_right (by simp; omega)]
      have hz : i - (s ++ List.replicate (pos - 1 - s.length) none).length = 0 := by
        simp
        omega
      rw [hz]
      simp [hi, eq_comm]
    · rw [List.getElem?_eq_none (by simp; omega), List.getElem?_eq_none (by omega)]
      simp [hi.ne']

/-- The array after some assignments is as long as its start or their largest
position, whichever is larger. -/
theorem length_foldl_assign (ws : List (ℕ × ℕ)) (hpos : ∀ w ∈ ws, 1 ≤ w.1)
    (s : List (Option ℕ)) :
    (ws.foldl (fun s w => assign s w.1 w.2) s).length = (ws.map Prod.fst).foldr max s.length := by
  induction ws generalizing s with
  | nil => rfl
  | cons w ws ih =>
    have hcomm : ∀ (l : List ℕ) (a b : ℕ), l.foldr max (max a b) = max b (l.foldr max a) := by
      intro l
      induction l with
      | nil => exact fun a b => max_comm a b
      | cons c l ihl =>
        intro a b
        rw [List.foldr_cons, List.foldr_cons, ihl, max_left_comm]
    rw [List.foldl_cons, ih (fun w' hw' => hpos w' (List.mem_cons_of_mem w hw')),
      length_assign s w.2 (hpos w List.mem_cons_self), List.map_cons, List.foldr_cons, hcomm]

/-- A position that was written holds a share, whatever is written afterwards. -/
theorem filled_foldl_assign (ws : List (ℕ × ℕ)) (hpos : ∀ w ∈ ws, 1 ≤ w.1)
    (s : List (Option ℕ)) (i : ℕ) (hi : (∃ v, s[i]? = some (some v)) ∨ i + 1 ∈ ws.map Prod.fst) :
    ∃ v, (ws.foldl (fun s w => assign s w.1 w.2) s)[i]? = some (some v) := by
  induction ws generalizing s with
  | nil => simpa using hi
  | cons w ws ih =>
    have hw := hpos w List.mem_cons_self
    refine ih (fun w' hw' => hpos w' (List.mem_cons_of_mem w hw')) (assign s w.1 w.2) ?_
    by_cases hiw : i = w.1 - 1
    · exact Or.inl ⟨w.2, (getElem?_assign s w.2 hw i w.2).2 (Or.inl ⟨hiw, rfl⟩)⟩
    · rcases hi with ⟨v, hv⟩ | hi
      · exact Or.inl ⟨v, (getElem?_assign s w.2 hw i v).2 (Or.inr ⟨hiw, hv⟩)⟩
      · rw [List.map_cons, List.mem_cons] at hi
        rcases hi with hi | hi
        · omega
        · exact Or.inr hi

/-- A value in the array was there before or was written at its position. -/
theorem written_foldl_assign (ws : List (ℕ × ℕ)) (hpos : ∀ w ∈ ws, 1 ≤ w.1)
    (s : List (Option ℕ)) (i v : ℕ)
    (h : (ws.foldl (fun s w => assign s w.1 w.2) s)[i]? = some (some v)) :
    s[i]? = some (some v) ∨ (i + 1, v) ∈ ws := by
  induction ws generalizing s with
  | nil => exact Or.inl h
  | cons w ws ih =>
    have hw := hpos w List.mem_cons_self
    rcases ih (fun w' hw' => hpos w' (List.mem_cons_of_mem w hw')) _ h with hv | hv
    · rcases (getElem?_assign s w.2 hw i v).1 hv with ⟨hi, rfl⟩ | ⟨_, hv⟩
      · have : (i + 1, w.2) = w := Prod.ext (by simp; omega) rfl
        exact Or.inr (this ▸ List.mem_cons_self)
      · exact Or.inl hv
    · exact Or.inr (List.mem_cons_of_mem w hv)

theorem writes_pos {template : List PayoutRow} {n : ℕ} (ht : Tiles template n) :
    ∀ w ∈ writes template, 1 ≤ w.1 ∧ w.1 ≤ n := by
  intro w hw
  have hmem := ht.subset (List.mem_map_of_mem hw)
  rw [List.mem_range'_1] at hmem
  omega

theorem length_perPosition {template : List PayoutRow} {n : ℕ} (ht : Tiles template n) :
    (perPosition template).length = n := by
  have hmax : ∀ k : ℕ, (List.range' 1 k).foldr max 0 = k := by
    intro k
    induction k with
    | zero => rfl
    | succ k ih =>
      have hbase : ∀ (l : List ℕ) (a : ℕ), l.foldr max a = max a (l.foldr max 0) := by
        intro l a
        induction l with
        | nil => simp
        | cons b l ihl => rw [List.foldr_cons, List.foldr_cons, ihl, max_left_comm]
      rw [List.range'_concat, List.foldr_append, hbase, ih]
      simp
      omega
  rw [perPosition, length_foldl_assign _ (fun w hw => (writes_pos ht w hw).1), List.length_nil,
    ht.foldr_eq, hmax]

theorem filled_perPosition {template : List PayoutRow} {n : ℕ} (ht : Tiles template n) {i : ℕ}
    (hi : i < n) : ∃ v, (perPosition template)[i]? = some (some v) := by
  refine filled_foldl_assign _ (fun w hw => (writes_pos ht w hw).1) [] i (Or.inr ?_)
  refine ht.symm.subset ?_
  rw [List.mem_range'_1]
  omega

/-- In a tiling the first position holds the share of the row that covers it. -/
theorem perPosition_head {template : List PayoutRow} {n : ℕ} (ht : Tiles template n)
    {row : PayoutRow} (hrow : row ∈ template) (hone : 1 ∈ PayoutRow.positions row) :
    (perPosition template)[0]? = some (some (PayoutRow.share row)) := by
  have hw : (1, PayoutRow.share row) ∈ writes template :=
    List.mem_flatMap.2 ⟨row, hrow, List.mem_map_of_mem hone⟩
  have hn : 0 < n := (writes_pos ht _ hw).1.trans (writes_pos ht _ hw).2
  obtain ⟨v, hv⟩ := filled_perPosition ht hn
  have hnd : ((writes template).map Prod.fst).Nodup := ht.nodup_iff.2 List.nodup_range'
  rcases written_foldl_assign _ (fun w hw => (writes_pos ht w hw).1) [] 0 v hv with hnil | hmem
  · simp at hnil
  · have heq : v = PayoutRow.share row :=
      congrArg Prod.snd (List.inj_on_of_nodup_map hnd hmem hw rfl)
    rw [hv, heq]

end Template

section Prizes

/-- Shares of the pool for the paid positions; the first position takes the dust. -/
def computePrizes (poolMinor : ℤ) (template : List PayoutRow) (entrantCount : ℕ) :
    Except Failure (List (Option ℤ)) :=
  let paidPositions := min entrantCount (perPosition template).length
  if paidPositions = 0 ∨ poolMinor ≤ 0 then .ok []
  else
    let shares := (perPosition template).take paidPositions
    let shareSum : ℤ := shares.reduceOption.sum
    if shareSum = 0 ∧ shares.reduceOption ≠ [] then .error (.error "Division by zero")
    else
      let prizes := shares.map (Option.map (fun share : ℕ => (poolMinor * share).tdiv shareSum))
      let dust := poolMinor - prizes.reduceOption.sum
      .ok (prizes.modifyHead (fun first => some (first.getD 0 + dust)))

/-- The shares of a pool are rounded down as in a division of whole amounts. -/
theorem portions_eq {pool : ℤ} (hpool : 0 ≤ pool) (shares : List ℕ) :
    shares.map (fun share : ℕ => (pool * share).tdiv (shares.sum : ℕ)) =
      Apportionment.portions pool shares := by
  apply List.map_congr_left
  intro share _
  exact Int.tdiv_eq_ediv_of_nonneg (mul_nonneg hpool (Nat.cast_nonneg share))

/-- Rounding every share down never spends more than the pool. -/
theorem sum_tdiv_le (pool : ℤ) (hpool : 0 ≤ pool) (shares : List ℕ) (hsum : 0 < shares.sum) :
    (shares.map (fun share : ℕ => (pool * share).tdiv (shares.sum : ℕ))).sum ≤ pool := by
  rw [portions_eq hpool]
  exact sub_nonneg.1 (Apportionment.dust_nonneg pool hsum)

theorem reduceOption_map_some {α : Type*} (xs : List α) : (xs.map some).reduceOption = xs := by
  induction xs with
  | nil => rfl
  | cons x xs ih => rw [List.map_cons, List.reduceOption_cons_of_some, ih]

theorem exists_map_some (s : List (Option ℕ))
    (h : ∀ i, i < s.length → ∃ v, s[i]? = some (some v)) : ∃ l : List ℕ, s = l.map some := by
  induction s with
  | nil => exact ⟨[], rfl⟩
  | cons o s ih =>
    obtain ⟨v, hv⟩ := h 0 (by simp)
    obtain ⟨l, rfl⟩ := ih (fun i hi => by simpa using h (i + 1) (by simpa using hi))
    simp only [List.getElem?_cons_zero, Option.some.injEq] at hv
    exact ⟨v :: l, by rw [hv, List.map_cons]⟩

/-- The rounded-down share of the pool, out of a total of shares. -/
def quotient (pool : ℤ) (total share : ℕ) : ℤ := (pool * share).tdiv total

theorem computePrizes_filled {template : List PayoutRow} {entrantCount m a : ℕ} {l : List ℕ}
    {pool : ℤ} (hpool : 0 < pool)
    (hpaid : min entrantCount (perPosition template).length = m + 1)
    (htake : (perPosition template).take (m + 1) = (a :: l).map some)
    (hsum : 0 < (a :: l).sum) :
    computePrizes pool template entrantCount =
      .ok (((quotient pool (a :: l).sum a +
          (pool - ((a :: l).map (quotient pool (a :: l).sum)).sum)) ::
        l.map (quotient pool (a :: l).sum)).map some) := by
  have hprizes : ((a :: l).map some).map (Option.map
      (fun share : ℕ => (pool * share).tdiv ((a :: l).sum : ℕ))) =
      ((a :: l).map (quotient pool (a :: l).sum)).map some := by
    rw [List.map_map, List.map_map]
    rfl
  have hne : ((a :: l).sum : ℤ) ≠ 0 := by exact_mod_cast hsum.ne'
  simp only [computePrizes, hpaid, htake, reduceOption_map_some, hprizes, hne, false_and, if_false,
    Nat.add_eq_zero_iff, one_ne_zero, and_false, not_le.2 hpool, or_self]
  rfl

/-- Over a tiling whose first position has a share, the prizes have no holes, are
non-negative, fit the entrants and distribute exactly the pool. -/
theorem computePrizes_of_tiles {template : List PayoutRow} {n entrantCount : ℕ} {pool : ℤ}
    (ht : Tiles template n) {row : PayoutRow} (hrow : row ∈ template)
    (hone : 1 ∈ PayoutRow.positions row) (hshare : 1 ≤ PayoutRow.share row)
    (hentrants : 1 ≤ entrantCount) (hpool : 0 ≤ pool) :
    ∃ prizes : List ℤ, computePrizes pool template entrantCount = .ok (prizes.map some) ∧
      prizes.length ≤ entrantCount ∧ (∀ p ∈ prizes, 0 ≤ p) ∧ prizes.sum = pool := by
  obtain ⟨l, hl⟩ := exists_map_some (perPosition template)
    (fun i hi => filled_perPosition ht (length_perPosition ht ▸ hi))
  have hhead := perPosition_head ht hrow hone
  obtain ⟨a, l, rfl⟩ : ∃ a l', l = a :: l' := by
    cases l with
    | nil => simp [hl] at hhead
    | cons a l' => exact ⟨a, l', rfl⟩
  have ha : a = PayoutRow.share row := by simpa [hl] using hhead
  obtain ⟨m, hm⟩ : ∃ m, min entrantCount (perPosition template).length = m + 1 := by
    refine ⟨min entrantCount (perPosition template).length - 1, ?_⟩
    rw [hl, List.length_map, List.length_cons]
    omega
  have htake : (perPosition template).take (m + 1) = (a :: l.take m).map some := by
    rw [hl, ← List.map_take, List.take_succ_cons]
  by_cases hzero : pool = 0
  · refine ⟨[], ?_, Nat.zero_le _, by simp, hzero.symm⟩
    simp [computePrizes, hzero]
  · have hpos : 0 < pool := lt_of_le_of_ne hpool (Ne.symm hzero)
    have hsum : 0 < (a :: l.take m).sum := by
      rw [List.sum_cons]
      omega
    have hquot : ∀ share, 0 ≤ quotient pool (a :: l.take m).sum share := fun share =>
      Int.tdiv_nonneg (by positivity) (by positivity)
    have hdust : 0 ≤ pool - ((a :: l.take m).map (quotient pool (a :: l.take m).sum)).sum :=
      sub_nonneg.2 (sum_tdiv_le pool hpool _ hsum)
    refine ⟨_, computePrizes_filled hpos hm htake hsum, ?_, ?_, ?_⟩
    · simp only [List.length_cons, List.length_map, List.length_take]
      omega
    · intro p hp
      rcases List.mem_cons.1 hp with rfl | hp
      · exact add_nonneg (hquot a) hdust
      · obtain ⟨share, _, rfl⟩ := List.mem_map.1 hp
        exact hquot share
    · simp only [List.map_cons, List.sum_cons]
      ring

/-- Over a template with a first position the prizes add up to the pool, which the dust makes
exact, or to nothing where there is no pool. -/
theorem sum_computePrizes {template : List PayoutRow} {entrantCount : ℕ} {pool : ℤ}
    {prizes : List (Option ℤ)} (h : computePrizes pool template entrantCount = .ok prizes)
    (hentrants : 1 ≤ entrantCount) (hfirst : perPosition template ≠ []) :
    prizes.reduceOption.sum = max pool 0 ∧ prizes.length ≤ entrantCount := by
  have hpaid : min entrantCount (perPosition template).length ≠ 0 := by
    have := List.length_pos_iff.2 hfirst
    omega
  obtain ⟨first, rest, htake⟩ : ∃ first rest,
      (perPosition template).take (min entrantCount (perPosition template).length) =
        first :: rest := by
    rw [← List.ne_nil_iff_exists_cons, ← List.length_pos_iff, List.length_take]
    omega
  have hlen := congrArg List.length htake
  rw [List.length_take, List.length_cons] at hlen
  by_cases hpool : pool ≤ 0
  · simp only [computePrizes, hpool, or_true, if_true, Except.ok.injEq] at h
    rw [← h, max_eq_right hpool]
    exact ⟨rfl, Nat.zero_le _⟩
  · rw [max_eq_left (by omega)]
    simp only [computePrizes, hpaid, hpool, or_self, if_false, htake] at h
    split_ifs at h with hzero
    rw [Except.ok.injEq] at h
    rw [← h]
    constructor
    · cases first with
      | none => simp [List.reduceOption_cons_of_none, List.reduceOption_cons_of_some]
      | some share =>
        simp only [List.map_cons, Option.map_some, List.modifyHead_cons,
          List.reduceOption_cons_of_some, List.sum_cons, Option.getD_some]
        ring
    · simp only [List.length_modifyHead, List.length_map, List.length_cons]
      omega

/-- The prizes never exceed the pool. -/
theorem sum_computePrizes_le {template : List PayoutRow} {entrantCount : ℕ} {pool : ℤ}
    {prizes : List (Option ℤ)} (h : computePrizes pool template entrantCount = .ok prizes) :
    prizes.reduceOption.sum ≤ max pool 0 := by
  by_cases hpaid : min entrantCount (perPosition template).length = 0
  · simp only [computePrizes, hpaid, true_or, if_true, Except.ok.injEq] at h
    rw [← h]
    exact le_max_right pool 0
  · have hentrants : 1 ≤ entrantCount := by omega
    have hfirst : perPosition template ≠ [] := by
      rw [← List.length_pos_iff]
      omega
    exact (sum_computePrizes h hentrants hfirst).1.le

end Prizes

end Ranking
end FootballIQ
