import Mathlib.Data.List.Sort
import Mathlib.Tactic

/-!
# Paging by the key of the last row

A client reads rows in descending order of a key, page by page, and passes the key of the
last row it has seen; the next page holds rows with smaller keys only. The client always
comes to an end and sees no row twice. It sees every row exactly if no page ends inside a
group of rows with one key, in whatever order each answer lists such a group.
-/

namespace KeysetPaging

section Reading
variable {α κ : Type*} {fetch : Option κ → List α × Option κ}

/-- The page of an answer: `limit` rows, and the key of the last one if there are more. -/
def page (key : α → κ) (limit : ℕ) (out : List α) : List α × Option κ :=
  (out.take limit, if limit < out.length then (out.take limit).getLast?.map key else none)

/-- The client: read on as long as there is a next cursor. -/
def follow (fetch : Option κ → List α × Option κ) : ℕ → Option κ → Option (List α)
  | 0, _ => none
  | n + 1, cursor =>
    match (fetch cursor).2 with
    | none => some (fetch cursor).1
    | some c => (follow fetch n (some c)).map ((fetch cursor).1 ++ ·)

/-- Fuel beyond the end changes nothing. -/
theorem follow_mono {n : ℕ} {cursor : Option κ} {items : List α}
    (h : follow fetch n cursor = some items) (m : ℕ) :
    follow fetch (n + m) cursor = some items := by
  induction n generalizing cursor items with
  | zero => cases h
  | succ n ih =>
    rw [Nat.succ_add]
    unfold follow at h ⊢
    cases hnext : (fetch cursor).2 with
    | none =>
      rw [hnext] at h
      exact h
    | some c =>
      rw [hnext] at h
      obtain ⟨rest, hrest, hitems⟩ := Option.map_eq_some_iff.1 h
      simp only [ih hrest, Option.map_some, hitems]

theorem follow_unique {n n' : ℕ} {cursor : Option κ} {items items' : List α}
    (h : follow fetch n cursor = some items) (h' : follow fetch n' cursor = some items') :
    items = items' := by
  have hboth := follow_mono h n'
  rw [Nat.add_comm, follow_mono h' n, Option.some.injEq] at hboth
  exact hboth.symm

end Reading

variable {α κ : Type*} [LinearOrder κ] (key : α → κ)

/-- What a cursor leaves: the rows strictly below it. -/
def below : Option κ → α → Bool
  | none, _ => true
  | some c, a => key a < c

/-- All rows below the cursor in descending order, rows with one key in any order. -/
structure Answers (rows : List α) (cursor : Option κ) (out : List α) : Prop where
  perm : out.Perm (rows.filter (below key cursor))
  sorted : out.Pairwise (fun a b => key b ≤ key a)

/-- No page boundary falls inside a group of rows with one key. -/
def Unsplit (limit : ℕ) (rows : List α) : Prop :=
  ∀ t k, ¬ (rows.countP (fun a => t < key a) < k * limit ∧
    k * limit < rows.countP (fun a => t ≤ key a))

section Groups
variable {key} {limit : ℕ} {rows rows' front back : List α}

theorem unsplit_perm (h : rows.Perm rows') : Unsplit key limit rows ↔ Unsplit key limit rows' := by
  unfold Unsplit
  simp only [h.countP_eq]

theorem unsplit_of_length_le (h : rows.length ≤ limit) : Unsplit key limit rows := by
  rintro t k ⟨hlow, hhigh⟩
  have hle := rows.countP_le_length (p := fun a => decide (t ≤ key a))
  have hk : k = 0 := by
    by_contra hne
    have hmul := Nat.le_mul_of_pos_left limit (Nat.pos_of_ne_zero hne)
    omega
  rw [hk, zero_mul] at hlow
  exact absurd hlow (Nat.not_lt_zero _)

/-- A page that ends with its group leaves the question to the rest. -/
theorem unsplit_append_iff (hlen : front.length = limit)
    (hgap : ∀ a ∈ front, ∀ b ∈ back, key b < key a) :
    Unsplit key limit (front ++ back) ↔ Unsplit key limit back := by
  have hcases : ∀ t, (∀ a ∈ front, t < key a) ∨ ∀ b ∈ back, key b < t := by
    intro t
    by_cases hall : ∀ a ∈ front, t < key a
    · exact Or.inl hall
    · rw [not_forall₂] at hall
      obtain ⟨a, ha, hle⟩ := hall
      exact Or.inr (fun b hb => (hgap a ha b hb).trans_le (not_lt.1 hle))
  have habove : ∀ t, (∀ a ∈ front, t < key a) →
      (front ++ back).countP (fun a => t < key a) = limit + back.countP (fun a => t < key a) ∧
      (front ++ back).countP (fun a => t ≤ key a) = limit + back.countP (fun a => t ≤ key a) := by
    intro t hall
    have hlt : front.countP (fun a => t < key a) = front.length :=
      List.countP_eq_length.2 (fun a ha => decide_eq_true (hall a ha))
    have hle : front.countP (fun a => t ≤ key a) = front.length :=
      List.countP_eq_length.2 (fun a ha => decide_eq_true (hall a ha).le)
    rw [List.countP_append, List.countP_append, hlt, hle, hlen]
    exact ⟨rfl, rfl⟩
  have hbeyond : ∀ t, (∀ b ∈ back, key b < t) → back.countP (fun a => t ≤ key a) = 0 := by
    intro t hall
    rw [List.countP_eq_zero]
    intro b hb
    simpa using hall b hb
  constructor
  · rintro h t k ⟨hlow, hhigh⟩
    rcases hcases t with hall | hall
    · obtain ⟨hlt, hle⟩ := habove t hall
      apply h t (k + 1)
      rw [hlt, hle, Nat.succ_mul]
      omega
    · rw [hbeyond t hall] at hhigh
      exact Nat.not_lt_zero _ hhigh
  · rintro h t k ⟨hlow, hhigh⟩
    rcases hcases t with hall | hall
    · obtain ⟨hlt, hle⟩ := habove t hall
      rw [hlt] at hlow
      rw [hle] at hhigh
      cases k with
      | zero => omega
      | succ k =>
        rw [Nat.succ_mul] at hlow hhigh
        exact h t k ⟨by omega, by omega⟩
    · have hfront := front.countP_le_length (p := fun a => decide (t ≤ key a))
      rw [List.countP_append, hbeyond t hall] at hhigh
      cases k with
      | zero => omega
      | succ k =>
        rw [Nat.succ_mul] at hhigh
        omega

/-- A page that ends inside a group splits it. -/
theorem not_unsplit {x y : α} (hlen : (front ++ [x]).length = limit) (hy : y ∈ back)
    (hfront : ∀ a ∈ front, key x ≤ key a) (hback : ∀ b ∈ back, key b ≤ key x)
    (hsame : key y = key x) : ¬ Unsplit key limit (front ++ [x] ++ back) := by
  intro h
  apply h (key x) 1
  have hbeyond : back.countP (fun a => key x < key a) = 0 := by
    rw [List.countP_eq_zero]
    intro b hb
    simpa using hback b hb
  have hall : (front ++ [x]).countP (fun a => key x ≤ key a) = (front ++ [x]).length := by
    rw [List.countP_eq_length]
    intro a ha
    rcases List.mem_append.1 ha with ha | ha
    · exact decide_eq_true (hfront a ha)
    · rw [List.mem_singleton.1 ha]
      exact decide_eq_true le_rfl
  have hone : 0 < back.countP (fun a => key x ≤ key a) :=
    List.countP_pos_iff.2 ⟨y, hy, decide_eq_true hsame.ge⟩
  have hle := front.countP_le_length (p := fun a => decide (key x < key a))
  rw [List.length_append, List.length_singleton] at hlen
  constructor
  · rw [List.countP_append, List.countP_append, hbeyond, List.countP_singleton]
    simp only [lt_irrefl, decide_false, Bool.false_eq_true, if_false]
    omega
  · rw [List.countP_append, hall, List.length_append, List.length_singleton]
    omega

end Groups

section Client
variable {key} {limit : ℕ} {rows : List α} {fetch : Option κ → List α × Option κ}

theorem below_of_lt {cursor : Option κ} {a b : α} (hb : below key cursor b = true)
    (hlt : key a < key b) : below key cursor a = true := by
  cases cursor with
  | none => rfl
  | some c => exact decide_eq_true (hlt.trans (of_decide_eq_true hb))

theorem Answers.below_of_mem {cursor : Option κ} {out : List α} (h : Answers key rows cursor out)
    {a : α} (ha : a ∈ out) : below key cursor a = true :=
  (List.mem_filter.1 (h.perm.mem_iff.1 ha)).2

/-- A page after which there are more rows ends with its smallest key; the rest is not above it. -/
theorem page_of_lt (hpos : 0 < limit) {out : List α} (hlt : limit < out.length)
    (hsorted : out.Pairwise (fun a b => key b ≤ key a)) :
    ∃ front x y back, out = front ++ [x] ++ y :: back ∧ (front ++ [x]).length = limit ∧
      page key limit out = (front ++ [x], some (key x)) ∧ (∀ a ∈ front, key x ≤ key a) ∧
      ∀ b ∈ y :: back, key b ≤ key x := by
  have hne : out.take limit ≠ [] := by
    intro hnil
    rw [List.take_eq_nil_iff] at hnil
    rcases hnil with hzero | hnil
    · omega
    · rw [hnil] at hlt
      exact absurd hlt (Nat.not_lt_zero _)
  obtain ⟨front, x, hfront⟩ := (List.eq_nil_or_concat' (out.take limit)).resolve_left hne
  obtain ⟨y, back, hback⟩ : ∃ y back, out.drop limit = y :: back := by
    cases hdrop : out.drop limit with
    | nil =>
      rw [List.drop_eq_nil_iff] at hdrop
      omega
    | cons y back => exact ⟨y, back, rfl⟩
  have hout : out = front ++ [x] ++ y :: back := by
    rw [← hback, ← hfront, List.take_append_drop]
  have hlen : (front ++ [x]).length = limit := by
    rw [← hfront, List.length_take, Nat.min_eq_left hlt.le]
  refine ⟨front, x, y, back, hout, hlen, ?_, ?_, ?_⟩
  · rw [page, if_pos hlt, hfront, List.getLast?_concat]
    rfl
  · intro a ha
    rw [hout, List.append_assoc, List.pairwise_append] at hsorted
    exact hsorted.2.2 a ha x (List.mem_append_left _ List.mem_cons_self)
  · intro b hb
    rw [hout, List.pairwise_append] at hsorted
    exact hsorted.2.2 x (List.mem_append_right _ List.mem_cons_self) b hb

/-- Below the key of the last row of a page is what the rest of the answer has below it. -/
theorem rest_perm {cursor : Option κ} {out front rest : List α} {x : α}
    (hanswers : Answers key rows cursor out) (hout : out = front ++ [x] ++ rest)
    (hfront : ∀ a ∈ front, key x ≤ key a) :
    (rows.filter (below key (some (key x)))).Perm (rest.filter (below key (some (key x)))) := by
  have hx : below key cursor x = true := by
    apply hanswers.below_of_mem
    rw [hout]
    exact List.mem_append_left _ (List.mem_append_right _ List.mem_cons_self)
  have hrows : rows.filter (below key (some (key x))) =
      (rows.filter (below key cursor)).filter (below key (some (key x))) := by
    rw [List.filter_filter]
    apply List.filter_congr
    intro a _
    rw [Bool.eq_iff_iff, Bool.and_eq_true, iff_self_and]
    exact fun ha => below_of_lt hx (of_decide_eq_true ha)
  have hnil : (front ++ [x]).filter (below key (some (key x))) = [] := by
    rw [List.filter_eq_nil_iff]
    intro a ha
    rcases List.mem_append.1 ha with ha | ha
    · simpa [below] using hfront a ha
    · simp [below, List.mem_singleton.1 ha]
  have hfilter := hanswers.perm.symm.filter (below key (some (key x)))
  rw [hout, List.filter_append, hnil, List.nil_append] at hfilter
  rw [hrows]
  exact hfilter

/-- A page in front of what the client then reads: complete if the page ends with its group,
and incomplete for good if it does not. -/
theorem perm_append_iff {front rest items : List α} {x y : α}
    (hlen : (front ++ [x]).length = limit) (hfront : ∀ a ∈ front, key x ≤ key a)
    (hrest : ∀ b ∈ y :: rest, key b ≤ key x) (hsorted : ∀ b ∈ rest, key b ≤ key y)
    (hitems : ∀ a ∈ items, key a < key x)
    (hiff : items.Perm ((y :: rest).filter (below key (some (key x)))) ↔
      Unsplit key limit ((y :: rest).filter (below key (some (key x))))) :
    (front ++ [x] ++ items).Perm (front ++ [x] ++ y :: rest) ↔
      Unsplit key limit (front ++ [x] ++ y :: rest) := by
  have hpage : ∀ a ∈ front ++ [x], key x ≤ key a := by
    intro a ha
    rcases List.mem_append.1 ha with ha | ha
    · exact hfront a ha
    · rw [List.mem_singleton.1 ha]
  by_cases hsame : key y = key x
  · apply iff_of_false
    · intro hperm
      -- the client has all keys from that of `x` on within the page
      have hcount := (List.perm_append_left_iff _).1 hperm
      have hy := hcount.mem_iff.2 (List.mem_cons_self : y ∈ y :: rest)
      exact absurd (hitems y hy) (by rw [hsame]; exact lt_irrefl _)
    · exact not_unsplit hlen List.mem_cons_self hfront hrest hsame
  · have hlt : key y < key x := lt_of_le_of_ne (hrest y List.mem_cons_self) hsame
    have hbelow : ∀ b ∈ y :: rest, key b < key x := by
      intro b hb
      rcases List.mem_cons.1 hb with rfl | hb
      · exact hlt
      · exact (hsorted b hb).trans_lt hlt
    have hall : (y :: rest).filter (below key (some (key x))) = y :: rest :=
      List.filter_eq_self.2 (fun b hb => decide_eq_true (hbelow b hb))
    rw [hall] at hiff
    rw [List.perm_append_left_iff, hiff, unsplit_append_iff hlen]
    intro a ha b hb
    exact (hbelow b hb).trans_le (hpage a ha)

/-- From every cursor the client comes to an end, with rows below it in descending order; it
has them all exactly if no page boundary splits them. -/
theorem follow_from (hpos : 0 < limit)
    (hfetch : ∀ cursor, ∃ out, Answers key rows cursor out ∧ fetch cursor = page key limit out)
    (cursor : Option κ) : ∃ n items, follow fetch n cursor = some items ∧
      items.Pairwise (fun a b => key b ≤ key a) ∧ (∀ a ∈ items, below key cursor a = true) ∧
      (items.Perm (rows.filter (below key cursor)) ↔
        Unsplit key limit (rows.filter (below key cursor))) := by
  induction hm : (rows.filter (below key cursor)).length using Nat.strongRecOn
    generalizing cursor with
  | ind m ih =>
    obtain ⟨out, hanswers, hpage⟩ := hfetch cursor
    by_cases hlt : limit < out.length
    · obtain ⟨front, x, y, back, hout, hlen, hx, hfront, hback⟩ :=
        page_of_lt hpos hlt hanswers.sorted
      have hrestperm := rest_perm hanswers hout hfront
      have hpagebelow : ∀ a ∈ front ++ [x], below key cursor a = true := by
        intro a ha
        apply hanswers.below_of_mem
        rw [hout]
        exact List.mem_append_left _ ha
      have hsmaller : (rows.filter (below key (some (key x)))).length < m := by
        have hle := List.length_filter_le (below key (some (key x))) (y :: back)
        rw [← hm, ← hanswers.perm.length_eq, hrestperm.length_eq, hout, List.length_append, hlen]
        omega
      obtain ⟨n, items, hitems, hdesc, hbelow, hiff⟩ := ih _ hsmaller (some (key x)) rfl
      have hitemslt : ∀ a ∈ items, key a < key x := fun a ha => of_decide_eq_true (hbelow a ha)
      have hsorted := hanswers.sorted
      rw [hout, List.pairwise_append] at hsorted
      obtain ⟨hpage', hrest, hcross⟩ := hsorted
      rw [List.pairwise_cons] at hrest
      refine ⟨n + 1, front ++ [x] ++ items, ?_, ?_, ?_, ?_⟩
      · rw [follow, hpage, hx]
        simp only [hitems, Option.map_some]
      · rw [List.pairwise_append]
        refine ⟨hpage', hdesc, fun a ha b hb => ?_⟩
        rcases List.mem_append.1 ha with ha | ha
        · exact (hitemslt b hb).le.trans (hfront a ha)
        · rw [List.mem_singleton.1 ha]
          exact (hitemslt b hb).le
      · intro a ha
        rcases List.mem_append.1 ha with ha | ha
        · exact hpagebelow a ha
        · have hx := hpagebelow x (List.mem_append_right _ List.mem_cons_self)
          exact below_of_lt hx (hitemslt a ha)
      · rw [hrestperm.congr_right, unsplit_perm hrestperm] at hiff
        rw [← hanswers.perm.congr_right, ← unsplit_perm hanswers.perm, hout]
        exact perm_append_iff hlen hfront hback hrest.1 hitemslt hiff
    · have hwhole : fetch cursor = (out, none) := by
        rw [hpage, page, if_neg hlt, List.take_of_length_le (not_lt.1 hlt)]
      refine ⟨1, out, ?_, hanswers.sorted, ?_, ?_⟩
      · simp only [follow, hwhole]
      · intro a ha
        exact hanswers.below_of_mem ha
      · apply iff_of_true hanswers.perm
        rw [← unsplit_perm hanswers.perm]
        exact unsplit_of_length_le (not_lt.1 hlt)

/-- The client always comes to an end, in descending order; it has read every row exactly once
if and only if no page boundary falls inside a group of rows with one key. -/
theorem follow_complete_iff (hpos : 0 < limit)
    (hfetch : ∀ cursor, ∃ out, Answers key rows cursor out ∧ fetch cursor = page key limit out) :
    ∃ n items, follow fetch n none = some items ∧ items.Pairwise (fun a b => key b ≤ key a) ∧
      (items.Perm rows ↔ Unsplit key limit rows) := by
  obtain ⟨n, items, hitems, hsorted, _, hiff⟩ := follow_from hpos hfetch none
  have hall : rows.filter (below key none) = rows := List.filter_eq_self.2 (fun _ _ => rfl)
  rw [hall] at hiff
  exact ⟨n, items, hitems, hsorted, hiff⟩

end Client

end KeysetPaging
