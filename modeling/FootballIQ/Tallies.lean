import Mathlib.Tactic

/-!
# Tallies by key

A dictionary of cells that are created when their key is first used. After a loop that adds every
item to the cell of its key, the keys are those of the items, each once, and a cell holds exactly
the items of its key.
-/

namespace FootballIQ
namespace Tallies

variable {α κ γ : Type*} [DecidableEq κ]

/-- Add to the cell of the key, which starts from `zero` where there is none. -/
def bump (zero : γ) (f : γ → γ) (k : κ) : List (κ × γ) → List (κ × γ)
  | [] => [(k, f zero)]
  | (k', c) :: d => if k' = k then (k', f c) :: d else (k', c) :: bump zero f k d

variable (zero : γ) (add : α → γ → γ) (key : α → κ)

def tally (d : List (κ × γ)) (a : α) : List (κ × γ) := bump zero (add a) (key a) d

/-- The cells of `d` hold the items `l`, each in the cell of its key. -/
structure Holds (l : List α) (d : List (κ × γ)) : Prop where
  nodup_keys : (d.map Prod.fst).Nodup
  mem_keys : ∀ k, k ∈ d.map Prod.fst ↔ k ∈ l.map key
  cell_eq : ∀ kc ∈ d, kc.2 = (l.filter (fun a => key a = kc.1)).foldl (fun c a => add a c) zero

theorem keys_bump (f : γ → γ) (k : κ) (d : List (κ × γ)) : (bump zero f k d).map Prod.fst =
    if k ∈ d.map Prod.fst then d.map Prod.fst else d.map Prod.fst ++ [k] := by
  induction d with
  | nil => simp [bump]
  | cons kc d ih =>
    obtain ⟨k', c⟩ := kc
    by_cases hk : k' = k
    · simp [bump, hk]
    · rw [bump, if_neg hk, List.map_cons, ih]
      have hk' : ¬ k = k' := fun h => hk h.symm
      simp only [List.map_cons, List.mem_cons, hk', false_or]
      split_ifs <;> rfl

/-- The cells of other keys stay, and that of the key is added to. -/
theorem mem_bump {f : γ → γ} {k : κ} {d : List (κ × γ)} (hnd : (d.map Prod.fst).Nodup)
    {kc : κ × γ} (h : kc ∈ bump zero f k d) :
    (kc.1 ≠ k ∧ kc ∈ d) ∨ (kc.1 = k ∧ ((∃ c, (k, c) ∈ d ∧ kc.2 = f c) ∨
      (k ∉ d.map Prod.fst ∧ kc.2 = f zero))) := by
  induction d with
  | nil =>
    rw [bump, List.mem_singleton] at h
    rw [h]
    exact Or.inr ⟨rfl, Or.inr ⟨by simp, rfl⟩⟩
  | cons kc' d ih =>
    obtain ⟨k', c'⟩ := kc'
    rw [List.map_cons, List.nodup_cons] at hnd
    by_cases hk : k' = k
    · rw [bump, if_pos hk] at h
      rcases List.mem_cons.1 h with rfl | h
      · exact Or.inr ⟨hk, Or.inl ⟨c', by simp [hk], rfl⟩⟩
      · refine Or.inl ⟨fun heq => hnd.1 ?_, List.mem_cons_of_mem _ h⟩
        have hkey : k' = kc.1 := hk.trans heq.symm
        have hmem := List.mem_map_of_mem (f := Prod.fst) h
        rw [hkey]
        exact hmem
    · rw [bump, if_neg hk] at h
      rcases List.mem_cons.1 h with rfl | h
      · exact Or.inl ⟨hk, List.mem_cons_self⟩
      · rcases ih hnd.2 h with ⟨hne, hmem⟩ | ⟨heq, ⟨c, hc, hval⟩ | ⟨hnot, hval⟩⟩
        · exact Or.inl ⟨hne, List.mem_cons_of_mem _ hmem⟩
        · exact Or.inr ⟨heq, Or.inl ⟨c, List.mem_cons_of_mem _ hc, hval⟩⟩
        · refine Or.inr ⟨heq, Or.inr ⟨?_, hval⟩⟩
          rw [List.map_cons, List.mem_cons, not_or]
          exact ⟨fun h => hk h.symm, hnot⟩

/-- The cell of a key that is there is added to in its place. -/
theorem bump_of_mem (f : γ → γ) {k : κ} {d : List (κ × γ)} (hnd : (d.map Prod.fst).Nodup)
    (hk : k ∈ d.map Prod.fst) :
    bump zero f k d = d.map (fun kc => if kc.1 = k then (kc.1, f kc.2) else kc) := by
  induction d with
  | nil => cases hk
  | cons kc d ih =>
    obtain ⟨k', c⟩ := kc
    rw [List.map_cons, List.nodup_cons] at hnd
    by_cases heq : k' = k
    · subst heq
      have hrest : d.map (fun kc => if kc.1 = k' then (kc.1, f kc.2) else kc) = d.map id := by
        apply List.map_congr_left
        intro kc hkc
        have hne : kc.1 ≠ k' := by
          rintro rfl
          exact hnd.1 (List.mem_map.2 ⟨kc, hkc, rfl⟩)
        exact if_neg hne
      rw [bump, if_pos rfl, List.map_cons, hrest, if_pos rfl, List.map_id]
    · have hrest : k ∈ d.map Prod.fst := by
        rcases List.mem_cons.1 hk with h | h
        · exact absurd h.symm heq
        · exact h
      rw [bump, if_neg heq, List.map_cons, if_neg heq, ih hnd.2 hrest]

/-- A key that is not there opens its cell at the end. -/
theorem bump_of_not_mem (f : γ → γ) {k : κ} {d : List (κ × γ)} (hk : k ∉ d.map Prod.fst) :
    bump zero f k d = d ++ [(k, f zero)] := by
  induction d with
  | nil => rfl
  | cons kc d ih =>
    obtain ⟨k', c⟩ := kc
    rw [List.map_cons, List.mem_cons, not_or] at hk
    rw [bump, if_neg (fun h => hk.1 h.symm), ih hk.2]
    rfl

theorem Holds.tally {l : List α} {d : List (κ × γ)} (h : Holds zero add key l d) (a : α) :
    Holds zero add key (l ++ [a]) (tally zero add key d a) where
  nodup_keys := by
    rw [Tallies.tally, keys_bump]
    split_ifs with hk
    · exact h.nodup_keys
    · rw [List.nodup_append]
      refine ⟨h.nodup_keys, List.nodup_singleton _, ?_⟩
      intro k hmem k' hmem' heq
      rw [List.mem_singleton.1 hmem'] at heq
      exact hk (heq ▸ hmem)
  mem_keys := by
    intro k
    rw [Tallies.tally, keys_bump, List.map_append, List.mem_append, ← h.mem_keys k]
    split_ifs with hk
    · simp only [List.map_cons, List.map_nil, List.mem_singleton]
      constructor
      · exact Or.inl
      · rintro (hmem | rfl)
        · exact hmem
        · exact hk
    · rw [List.mem_append]
      rfl
  cell_eq := by
    intro kc hkc
    rw [List.filter_append, List.foldl_append]
    rcases mem_bump zero h.nodup_keys hkc with ⟨hne, hmem⟩ | ⟨heq, hcell⟩
    · have hnil : [a].filter (fun a => key a = kc.1) = [] := by simp [Ne.symm hne]
      rw [hnil, List.foldl_nil]
      exact h.cell_eq kc hmem
    · have hone : [a].filter (fun a => key a = kc.1) = [a] := by simp [heq]
      rw [hone, List.foldl_cons, List.foldl_nil]
      rcases hcell with ⟨c, hc, hval⟩ | ⟨hnot, hval⟩
      · rw [hval, heq, ← h.cell_eq (key a, c) hc]
      · have hempty : l.filter (fun b => key b = kc.1) = [] := by
          rw [List.filter_eq_nil_iff]
          intro b hb hkey
          rw [h.mem_keys] at hnot
          apply hnot
          rw [← heq, ← of_decide_eq_true hkey]
          exact List.mem_map_of_mem hb
        rw [hval, hempty, List.foldl_nil]

/-- The loop puts every item in the cell of its key. -/
theorem holds_foldl (l : List α) : Holds zero add key l (l.foldl (tally zero add key) []) := by
  induction l using List.reverseRecOn with
  | nil => exact ⟨List.nodup_nil, by simp, by simp⟩
  | append_singleton l a ih =>
    rw [List.foldl_append, List.foldl_cons, List.foldl_nil]
    exact ih.tally zero add key a

/-- What every item adds to a cell adds up over all cells. -/
theorem sum_foldl (g : γ → ℕ) (w : α → ℕ) (hzero : g zero = 0)
    (hadd : ∀ a c, g (add a c) = g c + w a) (l : List α) :
    ((l.foldl (tally zero add key) []).map (fun kc => g kc.2)).sum = (l.map w).sum := by
  have hbump : ∀ (a : α) (d : List (κ × γ)),
      ((tally zero add key d a).map (fun kc => g kc.2)).sum =
        (d.map (fun kc => g kc.2)).sum + w a := by
    intro a d
    unfold tally
    induction d with
    | nil => simp [bump, hadd, hzero]
    | cons kc d ih =>
      rw [bump]
      split_ifs with hk
      · simp only [List.map_cons, List.sum_cons, hadd]
        omega
      · simp only [List.map_cons, List.sum_cons, ih]
        omega
  induction l using List.reverseRecOn with
  | nil => simp
  | append_singleton l a ih =>
    rw [List.foldl_append, List.foldl_cons, List.foldl_nil, hbump, ih, List.map_append,
      List.sum_append]
    simp

end Tallies
end FootballIQ
