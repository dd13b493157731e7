import Mathlib.Data.List.Nodup
import Mathlib.Algebra.BigOperators.Group.List.Basic
import Mathlib.Tactic

/-!
# Tables with a primary key

A table is a list of rows whose keys are pairwise distinct; the distinctness is
carried by the structure. Rows are inserted under a fresh key and updated in
place by functions that keep the key, so no operation can break it.
-/

namespace Relational

section Keys
variable {α κ : Type*} [DecidableEq κ] {l : List α} {key : α → κ}

/-- Where the keys are distinct, a lookup by the key of an item finds that item. -/
theorem find?_of_nodup (hnd : (l.map key).Nodup) {a : α} (ha : a ∈ l) :
    l.find? (fun b => key b = key a) = some a := by
  induction l with
  | nil => cases ha
  | cons b l ih =>
    rw [List.map_cons, List.nodup_cons] at hnd
    by_cases hkey : key b = key a
    · have hfound : (b :: l).find? (fun b => key b = key a) = some b :=
        List.find?_cons_of_pos (by simpa using hkey)
      rcases List.mem_cons.1 ha with rfl | ha
      · exact hfound
      · exact absurd (hkey ▸ List.mem_map_of_mem ha) hnd.1
    · have hrest : (b :: l).find? (fun b => key b = key a) = l.find? (fun b => key b = key a) :=
        List.find?_cons_of_neg (by simpa using hkey)
      rcases List.mem_cons.1 ha with rfl | ha
      · exact absurd rfl hkey
      · exact hrest.trans (ih hnd.2 ha)

/-- So does a lookup from the end, as in a map to which the items are added in turn. -/
theorem find?_reverse_of_nodup (hnd : (l.map key).Nodup) {a : α} (ha : a ∈ l) :
    l.reverse.find? (fun b => key b = key a) = some a := by
  have hreverse : (l.reverse.map key).Nodup := by
    rw [List.map_reverse, List.nodup_reverse]
    exact hnd
  exact find?_of_nodup hreverse (List.mem_reverse.2 ha)

end Keys

class Row (ρ : Type*) where
  id : ρ → ℕ

structure Table (ρ : Type*) [Row ρ] where
  rows : List ρ
  nodup_ids : (rows.map Row.id).Nodup

namespace Table
variable {ρ : Type*} [Row ρ]

theorem ext_rows {t t' : Table ρ} (h : t.rows = t'.rows) : t = t' := by
  cases t
  cases t'
  cases h
  rfl

instance [DecidableEq ρ] : DecidableEq (Table ρ) := fun t t' =>
  decidable_of_iff (t.rows = t'.rows) ⟨ext_rows, fun h => h ▸ rfl⟩

def empty : Table ρ := ⟨[], List.nodup_nil⟩

def find (t : Table ρ) (k : ℕ) : Option ρ := t.rows.find? (fun r => Row.id r = k)

def findFirst (t : Table ρ) (p : ρ → Prop) [DecidablePred p] : Option ρ :=
  t.rows.find? (fun r => p r)

def findMany (t : Table ρ) (p : ρ → Prop) [DecidablePred p] : List ρ :=
  t.rows.filter (fun r => p r)

def count (t : Table ρ) (p : ρ → Prop) [DecidablePred p] : ℕ := (t.findMany p).length

/-- One above every key in use. -/
def fresh (t : Table ρ) : ℕ := (t.rows.map Row.id).foldr (fun k n => max (k + 1) n) 0

section Reading
variable (t : Table ρ)

theorem eq_of_id_eq {r r' : ρ} (hr : r ∈ t.rows) (hr' : r' ∈ t.rows)
    (h : Row.id r = Row.id r') : r = r' :=
  List.inj_on_of_nodup_map t.nodup_ids hr hr' h

theorem find_eq_some_iff (k : ℕ) (r : ρ) :
    t.find k = some r ↔ r ∈ t.rows ∧ Row.id r = k := by
  constructor
  · intro h
    exact ⟨List.mem_of_find?_eq_some h, by simpa using List.find?_some h⟩
  · rintro ⟨hr, rfl⟩
    exact find?_of_nodup t.nodup_ids hr

theorem find_id {r : ρ} (hr : r ∈ t.rows) : t.find (Row.id r) = some r :=
  (t.find_eq_some_iff _ _).2 ⟨hr, rfl⟩

theorem find_eq_none_iff (k : ℕ) : t.find k = none ↔ ∀ r ∈ t.rows, Row.id r ≠ k := by
  simp [find]

theorem findFirst_eq_some {p : ρ → Prop} [DecidablePred p] {r : ρ}
    (h : t.findFirst p = some r) : r ∈ t.rows ∧ p r :=
  ⟨List.mem_of_find?_eq_some h, by simpa using List.find?_some h⟩

theorem findFirst_eq_none_iff (p : ρ → Prop) [DecidablePred p] :
    t.findFirst p = none ↔ ∀ r ∈ t.rows, ¬ p r := by
  simp [findFirst]

@[simp] theorem mem_findMany (p : ρ → Prop) [DecidablePred p] (r : ρ) :
    r ∈ t.findMany p ↔ r ∈ t.rows ∧ p r := by
  simp [findMany]

theorem nodup_rows : t.rows.Nodup := List.Nodup.of_map _ t.nodup_ids

theorem lt_fresh {r : ρ} (hr : r ∈ t.rows) : Row.id r < t.fresh := by
  have key : ∀ ks : List ℕ, ∀ k ∈ ks, k < ks.foldr (fun k n => max (k + 1) n) 0 := by
    intro ks
    induction ks with
    | nil => simp
    | cons j ks ih =>
      intro k hk
      rcases List.mem_cons.1 hk with rfl | hk
      · exact lt_of_lt_of_le (Nat.lt_succ_self _) (le_max_left _ _)
      · exact lt_of_lt_of_le (ih k hk) (le_max_right _ _)
  exact key _ _ (List.mem_map_of_mem hr)

theorem fresh_ne {r : ρ} (hr : r ∈ t.rows) : Row.id r ≠ t.fresh := (t.lt_fresh hr).ne

theorem find_of_append {t' : Table ρ} {rs : List ρ} (h : t'.rows = t.rows ++ rs) {k : ℕ} {r : ρ}
    (hr : t.find k = some r) : t'.find k = some r := by
  obtain ⟨hmem, hk⟩ := (t.find_eq_some_iff k r).1 hr
  exact (t'.find_eq_some_iff k r).2 ⟨h ▸ List.mem_append_left rs hmem, hk⟩

theorem find_fresh : t.find t.fresh = none :=
  (t.find_eq_none_iff _).2 (fun _ hr => t.fresh_ne hr)

end Reading

section Inserting

/-- Insert the row that `mk` builds around a fresh key. -/
def insert (t : Table ρ) (mk : ℕ → ρ) (hmk : ∀ k, Row.id (mk k) = k) : Table ρ where
  rows := t.rows ++ [mk t.fresh]
  nodup_ids := by
    rw [List.map_append, List.nodup_append]
    refine ⟨t.nodup_ids, by simp, ?_⟩
    intro k hk k' hk' heq
    obtain ⟨r, hr, rfl⟩ := List.mem_map.1 hk
    rw [List.map_singleton, List.mem_singleton, hmk] at hk'
    exact t.fresh_ne hr (heq.trans hk')

variable (t : Table ρ) (mk : ℕ → ρ) (hmk : ∀ k, Row.id (mk k) = k)

@[simp] theorem rows_insert : (t.insert mk hmk).rows = t.rows ++ [mk t.fresh] := rfl

theorem mem_insert (r : ρ) : r ∈ (t.insert mk hmk).rows ↔ r ∈ t.rows ∨ r = mk t.fresh := by
  simp

theorem find_insert_of_some {k : ℕ} {r : ρ} (h : t.find k = some r) :
    (t.insert mk hmk).find k = some r := by
  obtain ⟨hr, hk⟩ := (t.find_eq_some_iff k r).1 h
  exact (find_eq_some_iff _ k r).2 ⟨(mem_insert t mk hmk r).2 (Or.inl hr), hk⟩

theorem findFirst_insert {p : ρ → Prop} [DecidablePred p] (hp : ¬ p (mk t.fresh)) :
    (t.insert mk hmk).findFirst p = t.findFirst p := by
  unfold findFirst
  rw [rows_insert, List.find?_append, List.find?_singleton]
  simp [hp]

theorem find_insert_fresh : (t.insert mk hmk).find t.fresh = some (mk t.fresh) :=
  (find_eq_some_iff _ _ _).2 ⟨(mem_insert t mk hmk _).2 (Or.inr rfl), hmk _⟩

end Inserting

section Updating

def updateWhere (t : Table ρ) (p : ρ → Prop) [DecidablePred p] (f : ρ → ρ)
    (hf : ∀ r, Row.id (f r) = Row.id r) : Table ρ where
  rows := t.rows.map (fun r => if p r then f r else r)
  nodup_ids := by
    have hids : (Row.id ∘ fun r => if p r then f r else r) = (Row.id : ρ → ℕ) := by
      funext r
      simp only [Function.comp_apply]
      split_ifs
      · exact hf r
      · rfl
    rw [List.map_map, hids]
    exact t.nodup_ids

def update (t : Table ρ) (k : ℕ) (f : ρ → ρ) (hf : ∀ r, Row.id (f r) = Row.id r) : Table ρ :=
  t.updateWhere (fun r => Row.id r = k) f hf

variable (t : Table ρ) (p : ρ → Prop) [DecidablePred p] (f : ρ → ρ)
  (hf : ∀ r, Row.id (f r) = Row.id r)

@[simp] theorem rows_updateWhere :
    (t.updateWhere p f hf).rows = t.rows.map (fun r => if p r then f r else r) := rfl

theorem mem_updateWhere (r : ρ) :
    r ∈ (t.updateWhere p f hf).rows ↔ ∃ q ∈ t.rows, (if p q then f q else q) = r := by
  simp

theorem find_updateWhere (k : ℕ) :
    (t.updateWhere p f hf).find k = (t.find k).map (fun r => if p r then f r else r) := by
  have hid : ∀ r, Row.id (if p r then f r else r) = Row.id r := by
    intro r
    split_ifs
    · exact hf r
    · rfl
  cases h : t.find k with
  | none =>
    rw [Option.map_none, find_eq_none_iff]
    intro r hr
    obtain ⟨q, hq, rfl⟩ := (mem_updateWhere t p f hf r).1 hr
    rw [hid]
    exact (t.find_eq_none_iff k).1 h q hq
  | some r =>
    obtain ⟨hr, hk⟩ := (t.find_eq_some_iff k r).1 h
    rw [Option.map_some, find_eq_some_iff]
    exact ⟨(mem_updateWhere t p f hf _).2 ⟨r, hr, rfl⟩, by rw [hid, hk]⟩

theorem find_update (j k : ℕ) :
    (t.update j f hf).find k = (t.find k).map (fun r => if k = j then f r else r) := by
  rw [update, find_updateWhere]
  cases h : t.find k with
  | none => rfl
  | some r =>
    obtain ⟨_, hk⟩ := (t.find_eq_some_iff k r).1 h
    simp only [Option.map_some, hk]

theorem find_update_self {k : ℕ} {r : ρ} (h : t.find k = some r) :
    (t.update k f hf).find k = some (f r) := by
  rw [find_update, h, Option.map_some, if_pos rfl]

theorem find_update_of_ne {j k : ℕ} (h : k ≠ j) : (t.update j f hf).find k = t.find k := by
  rw [find_update]
  cases t.find k with
  | none => rfl
  | some r => rw [Option.map_some, if_neg h]

theorem mem_of_mem_update {k : ℕ} {r : ρ} (h : r ∈ (t.update k f hf).rows) (hk : Row.id r ≠ k) :
    r ∈ t.rows := by
  obtain ⟨q, hq, rfl⟩ := (mem_updateWhere t _ f hf r).1 h
  split_ifs at hk ⊢ with hqk
  · exact absurd ((hf q).trans hqk) hk
  · exact hq

theorem update_of_none {k : ℕ} (h : t.find k = none) : t.update k f hf = t := by
  apply ext_rows
  rw [update, rows_updateWhere]
  conv_rhs => rw [← List.map_id t.rows]
  apply List.map_congr_left
  intro r hr
  rw [if_neg ((t.find_eq_none_iff k).1 h r hr), id_eq]

section OneKey
variable {t} {f} {hf} {q : ρ → Prop} [DecidablePred q] {k : ℕ} {r : ρ}

theorem updateWhere_key_of_pos (h : t.find k = some r) (hq : q r) :
    t.updateWhere (fun r => Row.id r = k ∧ q r) f hf = t.update k f hf := by
  apply ext_rows
  rw [update, rows_updateWhere, rows_updateWhere]
  apply List.map_congr_left
  intro r' hr'
  by_cases hk : Row.id r' = k
  · have hrr : r' = r := Option.some.inj (((t.find_eq_some_iff k r').2 ⟨hr', hk⟩).symm.trans h)
    rw [hrr] at hk ⊢
    rw [if_pos ⟨hk, hq⟩, if_pos hk]
  · rw [if_neg (fun hc => hk hc.1), if_neg hk]

theorem updateWhere_key_of_neg (h : ∀ r, t.find k = some r → ¬ q r) :
    t.updateWhere (fun r => Row.id r = k ∧ q r) f hf = t := by
  apply ext_rows
  rw [rows_updateWhere]
  conv_rhs => rw [← List.map_id t.rows]
  apply List.map_congr_left
  intro r hr
  rw [if_neg, id_eq]
  rintro ⟨hk, hq⟩
  exact h r ((t.find_eq_some_iff k r).2 ⟨hr, hk⟩) hq

theorem count_key_of_pos (h : t.find k = some r) (hq : q r) :
    t.count (fun r => Row.id r = k ∧ q r) = 1 := by
  obtain ⟨hr, hk⟩ := (t.find_eq_some_iff k r).1 h
  have hone : t.findMany (fun r => Row.id r = k ∧ q r) = [r] := by
    refine List.perm_singleton.1 ((List.perm_ext_iff_of_nodup
      (t.nodup_rows.filter _) (List.nodup_singleton r)).2 ?_)
    intro r'
    rw [List.mem_singleton]
    refine (t.mem_findMany _ r').trans ?_
    constructor
    · rintro ⟨hr', hk', _⟩
      exact t.eq_of_id_eq hr' hr (hk'.trans hk.symm)
    · rintro rfl
      exact ⟨hr, hk, hq⟩
  rw [count, hone, List.length_singleton]

theorem count_key_of_neg (h : ∀ r, t.find k = some r → ¬ q r) :
    t.count (fun r => Row.id r = k ∧ q r) = 0 := by
  rw [count, List.length_eq_zero_iff, findMany, List.filter_eq_nil_iff]
  intro r hr hc
  obtain ⟨hk, hq⟩ := of_decide_eq_true hc
  exact h r ((t.find_eq_some_iff k r).2 ⟨hr, hk⟩) hq

end OneKey

/-- Updating one row moves a column sum by the change of that row. -/
theorem sum_update {M : Type*} [AddCommGroup M] (g : ρ → M) {k : ℕ} {r : ρ}
    (h : t.find k = some r) :
    ((t.update k f hf).rows.map g).sum = (t.rows.map g).sum + (g (f r) - g r) := by
  obtain ⟨hr, hk⟩ := (t.find_eq_some_iff k r).1 h
  have key : ∀ rs : List ρ, (rs.map Row.id).Nodup → r ∈ rs →
      ((rs.map (fun q => if Row.id q = k then f q else q)).map g).sum =
        (rs.map g).sum + (g (f r) - g r) := by
    intro rs
    induction rs with
    | nil => intro _ hmem; cases hmem
    | cons q rs ih =>
      intro hnd hmem
      rw [List.map_cons, List.nodup_cons] at hnd
      simp only [List.map_cons, List.sum_cons]
      rcases List.mem_cons.1 hmem with rfl | hmem
      · have htail : rs.map (fun q => if Row.id q = k then f q else q) = rs := by
          conv_rhs => rw [← List.map_id rs]
          apply List.map_congr_left
          intro q hq
          rw [if_neg, id_eq]
          intro hqk
          exact hnd.1 (List.mem_map.2 ⟨q, hq, hqk.trans hk.symm⟩)
        rw [if_pos hk, htail]
        abel
      · have hne : Row.id q ≠ k := by
          intro hqk
          exact hnd.1 (List.mem_map.2 ⟨r, hmem, hk.trans hqk.symm⟩)
        rw [if_neg hne, ih hnd.2 hmem]
        abel
  exact key t.rows t.nodup_ids hr

/-- Adding a value at one row adds it to a column sum. -/
theorem sum_add_at {M : Type*} [AddCommMonoid M] (g : ρ → M) (x : M) {k : ℕ} {r : ρ}
    (h : t.find k = some r) :
    (t.rows.map (fun q => g q + if Row.id q = k then x else 0)).sum = (t.rows.map g).sum + x := by
  obtain ⟨hr, hk⟩ := (t.find_eq_some_iff k r).1 h
  have key : ∀ rs : List ρ, (rs.map Row.id).Nodup → r ∈ rs →
      (rs.map (fun q => if Row.id q = k then x else 0)).sum = x := by
    intro rs
    induction rs with
    | nil => intro _ hmem; cases hmem
    | cons q rs ih =>
      intro hnd hmem
      rw [List.map_cons, List.nodup_cons] at hnd
      rw [List.map_cons, List.sum_cons]
      rcases List.mem_cons.1 hmem with rfl | hmem
      · have hout : ∀ q ∈ rs, (if Row.id q = k then x else 0) = 0 := by
          intro q hq
          rw [if_neg]
          intro hqk
          exact hnd.1 (List.mem_map.2 ⟨q, hq, hqk.trans hk.symm⟩)
        rw [if_pos hk, List.map_congr_left hout]
        simp
      · have hne : Row.id q ≠ k := by
          intro hqk
          exact hnd.1 (List.mem_map.2 ⟨r, hmem, hk.trans hqk.symm⟩)
        rw [if_neg hne, ih hnd.2 hmem, zero_add]
  rw [List.sum_map_add, key t.rows t.nodup_ids hr]

end Updating

section Counting
variable (t : Table ρ) (p : ρ → Prop) [DecidablePred p]

theorem findMany_eq_nil_iff : t.findMany p = [] ↔ ∀ r ∈ t.rows, ¬ p r := by
  rw [List.eq_nil_iff_forall_not_mem]
  simp only [mem_findMany, not_and]

theorem count_eq_zero_iff : t.count p = 0 ↔ ∀ r ∈ t.rows, ¬ p r := by
  rw [count, List.length_eq_zero_iff, findMany_eq_nil_iff]

theorem count_insert (mk : ℕ → ρ) (hmk : ∀ k, Row.id (mk k) = k) :
    (t.insert mk hmk).count p = t.count p + if p (mk t.fresh) then 1 else 0 := by
  unfold count findMany
  rw [rows_insert, List.filter_append, List.length_append]
  by_cases hp : p (mk t.fresh)
  · simp [hp]
  · simp [hp]

theorem count_eq_sum : (t.count p : ℤ) = (t.rows.map (fun r => if p r then (1 : ℤ) else 0)).sum := by
  unfold count findMany
  induction t.rows with
  | nil => rfl
  | cons r rs ih =>
    rw [List.map_cons, List.sum_cons, ← ih]
    by_cases hp : p r
    · simp [hp, add_comm]
    · simp [hp]

/-- Updating one row moves a count by what the row counts before and after. -/
theorem count_update (f : ρ → ρ) (hf : ∀ r, Row.id (f r) = Row.id r) {k : ℕ} {r : ρ}
    (h : t.find k = some r) :
    (t.update k f hf).count p + (if p r then 1 else 0) =
      t.count p + if p (f r) then 1 else 0 := by
  have hsum := sum_update t f hf (fun r => if p r then (1 : ℤ) else 0) h
  rw [← count_eq_sum, ← count_eq_sum] at hsum
  split_ifs at hsum ⊢ <;> omega

end Counting

section Keeping
variable {γ : Type*}

/-- Every row of `t` is still in `t'` with the same key and the same column `g`. -/
def Keeps (g : ρ → γ) (t t' : Table ρ) : Prop :=
  ∀ r ∈ t.rows, ∃ r' ∈ t'.rows, Row.id r' = Row.id r ∧ g r' = g r

theorem Keeps.refl (g : ρ → γ) (t : Table ρ) : Keeps g t t := fun r hr => ⟨r, hr, rfl, rfl⟩

theorem Keeps.trans {g : ρ → γ} {t t' t'' : Table ρ} (h : Keeps g t t') (h' : Keeps g t' t'') :
    Keeps g t t'' := by
  intro r hr
  obtain ⟨r', hr', hid, hg⟩ := h r hr
  obtain ⟨r'', hr'', hid', hg'⟩ := h' r' hr'
  exact ⟨r'', hr'', hid'.trans hid, hg'.trans hg⟩

theorem Keeps.find {g : ρ → γ} {t t' : Table ρ} (h : Keeps g t t') {k : ℕ} {r : ρ}
    (hr : t.find k = some r) : ∃ r', t'.find k = some r' ∧ g r' = g r := by
  obtain ⟨hmem, hk⟩ := (t.find_eq_some_iff k r).1 hr
  obtain ⟨r', hr', hid, hg⟩ := h r hmem
  exact ⟨r', (t'.find_eq_some_iff k r').2 ⟨hr', hid.trans hk⟩, hg⟩

theorem keeps_insert (g : ρ → γ) (t : Table ρ) (mk : ℕ → ρ) (hmk : ∀ k, Row.id (mk k) = k) :
    Keeps g t (t.insert mk hmk) :=
  fun r hr => ⟨r, (mem_insert t mk hmk r).2 (Or.inl hr), rfl, rfl⟩

theorem keeps_updateWhere (g : ρ → γ) (t : Table ρ) (p : ρ → Prop) [DecidablePred p] (f : ρ → ρ)
    (hf : ∀ r, Row.id (f r) = Row.id r) (hg : ∀ r, g (f r) = g r) :
    Keeps g t (t.updateWhere p f hf) := by
  intro r hr
  refine ⟨if p r then f r else r, (mem_updateWhere t p f hf _).2 ⟨r, hr, rfl⟩, ?_⟩
  split_ifs
  · exact ⟨hf r, hg r⟩
  · exact ⟨rfl, rfl⟩

end Keeping

section SameColumn
variable {γ : Type*} {g : ρ → γ} {t t' t'' : Table ρ}

/-- The tables have the same rows as far as the column `g` shows. -/
def Same (g : ρ → γ) (t t' : Table ρ) : Prop := t'.rows.map g = t.rows.map g

theorem Same.refl (g : ρ → γ) (t : Table ρ) : Same g t t := rfl

theorem Same.trans (h : Same g t t') (h' : Same g t' t'') : Same g t t'' := Eq.trans h' h

theorem same_updateWhere {p : ρ → Prop} [DecidablePred p] {f : ρ → ρ}
    (hf : ∀ r, Row.id (f r) = Row.id r) (hg : ∀ r ∈ t.rows, p r → g (f r) = g r) :
    Same g t (t.updateWhere p f hf) := by
  unfold Same
  rw [rows_updateWhere, List.map_map]
  apply List.map_congr_left
  intro r hr
  simp only [Function.comp_apply]
  split_ifs with hp
  · exact hg r hr hp
  · rfl

theorem same_update {k : ℕ} {f : ρ → ρ} (hf : ∀ r, Row.id (f r) = Row.id r)
    (hg : ∀ r ∈ t.rows, Row.id r = k → g (f r) = g r) : Same g t (t.update k f hf) :=
  same_updateWhere hf hg

theorem Same.mem (h : Same g t t') {r' : ρ} (hr : r' ∈ t'.rows) : ∃ r ∈ t.rows, g r = g r' := by
  have hmem : g r' ∈ t.rows.map g := h ▸ List.mem_map_of_mem hr
  exact List.mem_map.1 hmem

theorem Same.mem_of (h : Same g t t') {r : ρ} (hr : r ∈ t.rows) : ∃ r' ∈ t'.rows, g r' = g r := by
  have hmem : g r ∈ t'.rows.map g := h.symm ▸ List.mem_map_of_mem hr
  exact List.mem_map.1 hmem

/-- A selection by a condition on the column sees the same column. -/
theorem Same.findMany (h : Same g t t') (p : ρ → Prop) [DecidablePred p]
    (hp : ∀ r r', g r = g r' → (p r ↔ p r')) :
    (t'.findMany p).map g = (t.findMany p).map g := by
  have key : ∀ rs rs' : List ρ, rs'.map g = rs.map g →
      (rs'.filter (fun r => p r)).map g = (rs.filter (fun r => p r)).map g := by
    intro rs
    induction rs with
    | nil =>
      intro rs' hrs
      rw [List.map_eq_nil_iff.1 hrs]
    | cons r rs ih =>
      intro rs' hrs
      obtain ⟨r', rs'', rfl, hr, hrest⟩ := List.map_eq_cons_iff.1 hrs
      have hiff := hp r' r hr
      by_cases hpr : p r
      · simp [hpr, hiff.2 hpr, hr, ih rs'' hrest]
      · have hpr' : ¬ p r' := fun hp' => hpr (hiff.1 hp')
        simp [hpr, hpr', ih rs'' hrest]
  exact key t.rows t'.rows h

theorem Same.count (h : Same g t t') (p : ρ → Prop) [DecidablePred p]
    (hp : ∀ r r', g r = g r' → (p r ↔ p r')) : t'.count p = t.count p := by
  have hlen := congrArg List.length (h.findMany p hp)
  rwa [List.length_map, List.length_map] at hlen

theorem Same.findFirst (h : Same g t t') (p : ρ → Prop) [DecidablePred p]
    (hp : ∀ r r', g r = g r' → (p r ↔ p r')) :
    (t'.findFirst p).map g = (t.findFirst p).map g := by
  have hhead : ∀ u : Table ρ, u.findFirst p = (u.findMany p).head? := fun u =>
    List.head?_filter.symm
  rw [hhead, hhead, ← List.head?_map, ← List.head?_map, h.findMany p hp]

theorem Same.find (h : Same g t t') (hid : ∀ r r', g r = g r' → Row.id r = Row.id r') (k : ℕ) :
    (t'.find k).map g = (t.find k).map g :=
  h.findFirst (fun r => Row.id r = k) (fun r r' hg => by rw [hid r r' hg])

/-- Tables with the same column have the same keys, if the column shows them. -/
theorem Same.fresh (h : Same g t t') (hid : ∀ r r', g r = g r' → Row.id r = Row.id r') :
    t'.fresh = t.fresh := by
  have key : ∀ rs rs' : List ρ, rs'.map g = rs.map g → rs'.map Row.id = rs.map Row.id := by
    intro rs
    induction rs with
    | nil =>
      intro rs' hrs
      rw [List.map_eq_nil_iff.1 hrs]
    | cons r rs ih =>
      intro rs' hrs
      obtain ⟨r', rs'', rfl, hr, hrest⟩ := List.map_eq_cons_iff.1 hrs
      rw [List.map_cons, List.map_cons, hid r' r hr, ih rs'' hrest]
  unfold Table.fresh
  rw [key t.rows t'.rows h]

theorem Same.insert (h : Same g t t') {mk mk' : ℕ → ρ} (hmk : ∀ k, Row.id (mk k) = k)
    (hmk' : ∀ k, Row.id (mk' k) = k) (hg : g (mk' t'.fresh) = g (mk t.fresh)) :
    Same g (t.insert mk hmk) (t'.insert mk' hmk') := by
  unfold Same
  rw [rows_insert, rows_insert, List.map_append, List.map_append, h, List.map_singleton,
    List.map_singleton, hg]

/-- An update that treats rows with the same column alike keeps the columns the same. -/
theorem Same.updateWhere (h : Same g t t') {p q : ρ → Prop} [DecidablePred p] [DecidablePred q]
    {f f' : ρ → ρ} (hf : ∀ r, Row.id (f r) = Row.id r) (hf' : ∀ r, Row.id (f' r) = Row.id r)
    (hp : ∀ r r', g r' = g r → (q r' ↔ p r)) (hg : ∀ r r', g r' = g r → g (f' r') = g (f r)) :
    Same g (t.updateWhere p f hf) (t'.updateWhere q f' hf') := by
  have key : ∀ rs rs' : List ρ, rs'.map g = rs.map g →
      (rs'.map (fun r => if q r then f' r else r)).map g =
        (rs.map (fun r => if p r then f r else r)).map g := by
    intro rs
    induction rs with
    | nil =>
      intro rs' hrs
      rw [List.map_eq_nil_iff.1 hrs]
      rfl
    | cons r rs ih =>
      intro rs' hrs
      obtain ⟨r', rs'', rfl, hr, hrest⟩ := List.map_eq_cons_iff.1 hrs
      have hone : g (if q r' then f' r' else r') = g (if p r then f r else r) := by
        by_cases hpr : p r
        · rw [if_pos hpr, if_pos ((hp r r' hr).2 hpr), hg r r' hr]
        · rw [if_neg hpr, if_neg (fun hq => hpr ((hp r r' hr).1 hq)), hr]
      simp only [List.map_cons, hone, ih rs'' hrest]
  exact key t.rows t'.rows h

theorem Same.update (h : Same g t t') (hid : ∀ r r', g r = g r' → Row.id r = Row.id r') (k : ℕ)
    {f f' : ρ → ρ} (hf : ∀ r, Row.id (f r) = Row.id r) (hf' : ∀ r, Row.id (f' r) = Row.id r)
    (hg : ∀ r r', g r' = g r → g (f' r') = g (f r)) :
    Same g (t.update k f hf) (t'.update k f' hf') :=
  h.updateWhere hf hf' (fun r r' hr => by rw [hid r' r hr]) hg

end SameColumn

section Shrinking
variable {p : ρ → Prop} {t t' t'' : Table ρ}

/-- Row by row, `t'` satisfies `p` only where `t` did. -/
def Shrinks (p : ρ → Prop) (t t' : Table ρ) : Prop :=
  List.Forall₂ (fun r r' => p r' → p r) t.rows t'.rows

theorem Shrinks.refl (p : ρ → Prop) (t : Table ρ) : Shrinks p t t :=
  List.forall₂_same.2 (fun _ _ h => h)

theorem Shrinks.trans (h : Shrinks p t t') (h' : Shrinks p t' t'') : Shrinks p t t'' := by
  have key : ∀ {rs rs' rs'' : List ρ}, List.Forall₂ (fun r r' => p r' → p r) rs rs' →
      List.Forall₂ (fun r r' => p r' → p r) rs' rs'' →
      List.Forall₂ (fun r r' => p r' → p r) rs rs'' := by
    intro rs rs' rs'' h
    induction h generalizing rs'' with
    | nil => exact fun h' => h'
    | cons hr _ ih =>
      intro h'
      cases h' with
      | cons hr' hrest => exact .cons (fun hp => hr (hr' hp)) (ih hrest)
  exact key h h'

theorem shrinks_updateWhere {q : ρ → Prop} [DecidablePred q] {f : ρ → ρ}
    (hf : ∀ r, Row.id (f r) = Row.id r) (hp : ∀ r, q r → p (f r) → p r) :
    Shrinks p t (t.updateWhere q f hf) := by
  unfold Shrinks
  rw [rows_updateWhere, List.forall₂_map_right_iff, List.forall₂_same]
  intro r _
  split_ifs with hq
  · exact hp r hq
  · exact id

theorem Shrinks.mem (h : Shrinks p t t') {r' : ρ} (hr : r' ∈ t'.rows) (hp : p r') :
    ∃ r ∈ t.rows, p r := by
  have key : ∀ {rs rs' : List ρ}, List.Forall₂ (fun r r' => p r' → p r) rs rs' → r' ∈ rs' →
      ∃ r ∈ rs, p r := by
    intro rs rs' h
    induction h with
    | nil =>
      intro hr
      cases hr
    | @cons r _ rs _ hr _ ih =>
      intro hmem
      rcases List.mem_cons.1 hmem with rfl | hmem
      · exact ⟨r, List.mem_cons_self, hr hp⟩
      · obtain ⟨q, hq, hpq⟩ := ih hmem
        exact ⟨q, List.mem_cons_of_mem _ hq, hpq⟩
  exact key h hr

theorem Shrinks.count_le [DecidablePred p] (h : Shrinks p t t') : t'.count p ≤ t.count p := by
  have key : ∀ {rs rs' : List ρ}, List.Forall₂ (fun r r' => p r' → p r) rs rs' →
      (rs'.filter (fun r => p r)).length ≤ (rs.filter (fun r => p r)).length := by
    intro rs rs' h
    induction h with
    | nil => exact le_refl 0
    | @cons r r' _ _ hr _ ih =>
      by_cases hp : p r'
      · simp only [List.filter_cons, hp, hr hp, decide_true, if_true, List.length_cons]
        omega
      · by_cases hq : p r
        · simp only [List.filter_cons, hp, hq, decide_true, decide_false, if_true,
            List.length_cons, Bool.false_eq_true, if_false]
          omega
        · simpa only [List.filter_cons, hp, hq, decide_false, Bool.false_eq_true, if_false]
  exact key h

end Shrinking

end Table
end Relational
