import Mathlib.Algebra.Order.BigOperators.Group.List
import Mathlib.Tactic

/-!
# Dividing a pool by shares

Every part of a pool is its share, rounded down; the first part also takes what the
rounding leaves over. The parts add up to the pool, and what is left over is less
than one unit for each part.
-/

namespace Apportionment

/-- The part of the pool for a share out of a total, rounded down. -/
def portion (pool : ℤ) (total share : ℕ) : ℤ := pool * share / total

def portions (pool : ℤ) (shares : List ℕ) : List ℤ := shares.map (portion pool shares.sum)

/-- What the rounding leaves over. -/
def dust (pool : ℤ) (shares : List ℕ) : ℤ := pool - (portions pool shares).sum

def divide (pool : ℤ) (shares : List ℕ) : List ℤ :=
  (portions pool shares).modifyHead (fun first => first + dust pool shares)

variable {pool : ℤ} {shares : List ℕ} {total : ℕ}

section Rounding

/-- Division with remainder, summed over the shares. -/
theorem sum_portion_add_emod (pool : ℤ) (total : ℕ) (shares : List ℕ) :
    total * (shares.map (portion pool total)).sum +
      (shares.map (fun s : ℕ => pool * s % total)).sum = pool * (shares.sum : ℕ) := by
  induction shares with
  | nil => simp
  | cons s shares ih =>
    have hs : (total : ℤ) * portion pool total s + pool * s % total = pool * s :=
      Int.mul_ediv_add_emod (pool * s) total
    rw [List.map_cons, List.map_cons, List.sum_cons, List.sum_cons, List.sum_cons, Nat.cast_add]
    linarith

theorem total_mul_dust (pool : ℤ) (shares : List ℕ) :
    (shares.sum : ℕ) * dust pool shares =
      (shares.map (fun s : ℕ => pool * s % (shares.sum : ℕ))).sum := by
  have hsum := sum_portion_add_emod pool shares.sum shares
  unfold dust portions
  linarith

theorem dust_nonneg (pool : ℤ) (hs : 0 < shares.sum) : 0 ≤ dust pool shares := by
  have hd : (0 : ℤ) < (shares.sum : ℕ) := by exact_mod_cast hs
  have hrem : 0 ≤ (shares.map (fun s : ℕ => pool * s % (shares.sum : ℕ))).sum := by
    apply List.sum_nonneg
    intro x hx
    obtain ⟨s, _, rfl⟩ := List.mem_map.1 hx
    exact Int.emod_nonneg _ hd.ne'
  rw [← total_mul_dust] at hrem
  exact nonneg_of_mul_nonneg_right hrem hd

/-- Every remainder is below the total, so their sum is below one total for each share. -/
theorem dust_lt_length (pool : ℤ) (hs : 0 < shares.sum) : dust pool shares < shares.length := by
  have hd : (0 : ℤ) < (shares.sum : ℕ) := by exact_mod_cast hs
  have hne : shares ≠ [] := by
    rintro rfl
    cases hs
  have hrem : (shares.map (fun s : ℕ => pool * s % (shares.sum : ℕ))).sum <
      (shares.map (fun _ => ((shares.sum : ℕ) : ℤ))).sum := by
    obtain ⟨s, hmem⟩ := List.exists_mem_of_ne_nil shares hne
    apply List.sum_lt_sum
    · intro s _
      exact (Int.emod_lt_of_pos _ hd).le
    · exact ⟨s, hmem, Int.emod_lt_of_pos _ hd⟩
  rw [← total_mul_dust, List.map_const', List.sum_replicate, nsmul_eq_mul, mul_comm] at hrem
  exact lt_of_mul_lt_mul_right hrem hd.le

theorem portion_nonneg (hpool : 0 ≤ pool) (total s : ℕ) : 0 ≤ portion pool total s :=
  Int.ediv_nonneg (mul_nonneg hpool (Nat.cast_nonneg s)) (Nat.cast_nonneg total)

theorem portion_mono (hpool : 0 ≤ pool) {s t : ℕ} (hst : s ≤ t) :
    portion pool total s ≤ portion pool total t := by
  have hle : pool * (s : ℤ) ≤ pool * (t : ℤ) :=
    mul_le_mul_of_nonneg_left (by exact_mod_cast hst) hpool
  rcases Nat.eq_zero_or_pos total with rfl | htotal
  · simp [portion]
  · exact Int.ediv_le_ediv (by exact_mod_cast htotal) hle

end Rounding

section Parts

@[simp] theorem length_divide (pool : ℤ) (shares : List ℕ) :
    (divide pool shares).length = shares.length := by
  unfold divide portions
  rw [List.length_modifyHead, List.length_map]

theorem divide_cons (pool : ℤ) (s : ℕ) (shares : List ℕ) :
    divide pool (s :: shares) =
      (portion pool (s :: shares).sum s + dust pool (s :: shares)) ::
        shares.map (portion pool (s :: shares).sum) := rfl

theorem sum_divide (hs : 0 < shares.sum) : (divide pool shares).sum = pool := by
  cases shares with
  | nil => cases hs
  | cons s shares =>
    have hdust : dust pool (s :: shares) = pool - (portion pool (s :: shares).sum s +
        (shares.map (portion pool (s :: shares).sum)).sum) := rfl
    rw [divide_cons, List.sum_cons]
    linarith

theorem divide_nonneg (hpool : 0 ≤ pool) (hs : 0 < shares.sum) :
    ∀ p ∈ divide pool shares, 0 ≤ p := by
  intro p hp
  cases shares with
  | nil => cases hs
  | cons s shares =>
    rw [divide_cons] at hp
    rcases List.mem_cons.1 hp with rfl | hp
    · exact add_nonneg (portion_nonneg hpool _ s) (dust_nonneg pool hs)
    · obtain ⟨t, _, rfl⟩ := List.mem_map.1 hp
      exact portion_nonneg hpool _ t

/-- Every part but the first is its share, rounded down. -/
theorem getElem?_divide {i : ℕ} (hi : 1 ≤ i) :
    (divide pool shares)[i]? = shares[i]?.map (portion pool shares.sum) := by
  obtain ⟨i, rfl⟩ := Nat.exists_eq_succ_of_ne_zero (Nat.one_le_iff_ne_zero.1 hi)
  cases shares with
  | nil => rfl
  | cons s shares => rw [divide_cons, List.getElem?_cons_succ, List.getElem?_cons_succ,
      List.getElem?_map]

/-- The first part exceeds its share by less than one unit for each other part. -/
theorem getElem?_divide_zero (pool : ℤ) {s : ℕ} (hs : 0 < shares.sum) (hfirst : shares[0]? = some s) :
    ∃ p, (divide pool shares)[0]? = some p ∧ portion pool shares.sum s ≤ p ∧
      p ≤ portion pool shares.sum s + (shares.length - 1) := by
  have hlt := dust_lt_length pool hs
  have hle := dust_nonneg pool hs
  cases shares with
  | nil => cases hfirst
  | cons t shares =>
    obtain rfl : t = s := Option.some.inj hfirst
    refine ⟨portion pool (t :: shares).sum t + dust pool (t :: shares), rfl, ?_, ?_⟩
    · omega
    · omega

/-- Shares that do not rise are divided into parts that do not rise. -/
theorem divide_antitone (hpool : 0 ≤ pool) (hs : 0 < shares.sum)
    (hanti : shares.Pairwise (· ≥ ·)) : (divide pool shares).Pairwise (· ≥ ·) := by
  have hdust := dust_nonneg pool hs
  cases shares with
  | nil => cases hs
  | cons s shares =>
    rw [List.pairwise_cons] at hanti
    rw [divide_cons, List.pairwise_cons]
    constructor
    · intro p hp
      obtain ⟨t, ht, rfl⟩ := List.mem_map.1 hp
      have hle : portion pool (s :: shares).sum t ≤ portion pool (s :: shares).sum s :=
        portion_mono hpool (hanti.1 t ht)
      exact le_add_of_le_of_nonneg hle hdust
    · exact List.pairwise_map.2 (hanti.2.imp (fun hst => portion_mono hpool hst))

end Parts

end Apportionment
