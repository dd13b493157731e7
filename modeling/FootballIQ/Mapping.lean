import FootballIQ.Table

/-!
# Rows behind outside references

A table whose rows are known to the outside by references. A reference is looked up
first, and if nothing is found a row is inserted together with it; the key on references
refuses the second of two inserts. A reference that is there names the same row for good.
-/

namespace Relational

structure Mapping (κ ρ : Type*) [Row ρ] where
  rows : Table ρ
  refs : List (κ × ℕ)
  nodup_keys : (refs.map Prod.fst).Nodup
  targets : ∀ ref ∈ refs, rows.find ref.2 ≠ none

namespace Mapping
variable {κ ρ : Type*} [Row ρ] {m m' m'' : Mapping κ ρ} {k : κ} {id : ℕ}

theorem ext_refs (hrows : m.rows = m'.rows) (hrefs : m.refs = m'.refs) : m = m' := by
  cases m
  cases m'
  cases hrows
  cases hrefs
  rfl

instance [DecidableEq κ] [DecidableEq ρ] : DecidableEq (Mapping κ ρ) := fun m m' =>
  decidable_of_iff (m.rows = m'.rows ∧ m.refs = m'.refs)
    ⟨fun h => ext_refs h.1 h.2, fun h => h ▸ ⟨rfl, rfl⟩⟩

/-- Rows and references have been added, as many of the one as of the other. -/
def Grows (m m' : Mapping κ ρ) : Prop :=
  ∃ rs refs, m'.rows.rows = m.rows.rows ++ rs ∧ m'.refs = m.refs ++ refs ∧ rs.length = refs.length

theorem Grows.refl (m : Mapping κ ρ) : Grows m m := ⟨[], [], by simp⟩

theorem Grows.trans (h : Grows m m') (h' : Grows m' m'') : Grows m m'' := by
  obtain ⟨rs, refs, hrows, hrefs, hlen⟩ := h
  obtain ⟨rs', refs', hrows', hrefs', hlen'⟩ := h'
  refine ⟨rs ++ rs', refs ++ refs', ?_, ?_, ?_⟩
  · rw [hrows', hrows, List.append_assoc]
  · rw [hrefs', hrefs, List.append_assoc]
  · rw [List.length_append, List.length_append, hlen, hlen']

/-- A row keeps its columns. -/
theorem Grows.find (h : Grows m m') {r : ρ} (hr : m.rows.find id = some r) :
    m'.rows.find id = some r := by
  obtain ⟨rs, _, hrows, _, _⟩ := h
  exact m.rows.find_of_append hrows hr

/-- Where nothing was added the mapping is the same. -/
theorem Grows.eq_of_length (h : Grows m m') (hlen : m'.refs.length = m.refs.length) : m' = m := by
  obtain ⟨rs, refs, hrows, hrefs, hsame⟩ := h
  rw [hrefs, List.length_append] at hlen
  have hnone : refs = [] := List.eq_nil_of_length_eq_zero (by omega)
  have hrs : rs = [] := List.eq_nil_of_length_eq_zero (by rw [hsame, hnone]; rfl)
  rw [hrs, List.append_nil] at hrows
  rw [hnone, List.append_nil] at hrefs
  exact ext_refs (Table.ext_rows hrows) hrefs

def empty : Mapping κ ρ := ⟨Table.empty, [], List.nodup_nil, by simp⟩

variable [DecidableEq κ]

def lookup (m : Mapping κ ρ) (k : κ) : Option ℕ := (m.refs.find? (fun r => r.1 = k)).map Prod.snd

theorem lookup_eq_some_iff : m.lookup k = some id ↔ (k, id) ∈ m.refs := by
  rw [lookup, Option.map_eq_some_iff]
  constructor
  · rintro ⟨⟨k', id'⟩, hfind, rfl⟩
    have hkey : k' = k := by simpa using List.find?_some hfind
    exact hkey ▸ List.mem_of_find?_eq_some hfind
  · intro hmem
    exact ⟨(k, id), find?_of_nodup m.nodup_keys hmem, rfl⟩

theorem lookup_eq_none_iff : m.lookup k = none ↔ k ∉ m.refs.map Prod.fst := by
  rw [lookup, Option.map_eq_none_iff, List.find?_eq_none, List.mem_map]
  constructor
  · rintro h ⟨ref, hmem, rfl⟩
    exact h ref hmem (by simp)
  · intro h ref hmem hkey
    exact h ⟨ref, hmem, by simpa using hkey⟩

/-- The insert of a row with its reference. -/
def create (m : Mapping κ ρ) (k : κ) (mk : ℕ → ρ) (hmk : ∀ id, Row.id (mk id) = id)
    (h : m.lookup k = none) : Mapping κ ρ where
  rows := m.rows.insert mk hmk
  refs := m.refs ++ [(k, m.rows.fresh)]
  nodup_keys := by
    rw [List.map_append, List.map_singleton]
    exact List.Nodup.append m.nodup_keys (List.nodup_singleton k)
      (by simpa using lookup_eq_none_iff.1 h)
  targets := by
    intro ref href
    rcases List.mem_append.1 href with href | href
    · obtain ⟨r, hr⟩ := Option.ne_none_iff_exists'.1 (m.targets ref href)
      rw [Table.find_insert_of_some _ _ hmk hr]
      simp
    · rw [List.mem_singleton.1 href, Table.find_insert_fresh]
      simp

/-- The insert under the key on references: none where the reference is there already. -/
def tryCreate (m : Mapping κ ρ) (k : κ) (mk : ℕ → ρ) (hmk : ∀ id, Row.id (mk id) = id) :
    Option (ℕ × Mapping κ ρ) :=
  if h : m.lookup k = none then some (m.rows.fresh, m.create k mk hmk h) else none

/-- A reference keeps its row. -/
theorem Grows.lookup (h : Grows m m') (hk : m.lookup k = some id) : m'.lookup k = some id := by
  obtain ⟨_, refs, _, hrefs, _⟩ := h
  rw [lookup_eq_some_iff] at hk ⊢
  exact hrefs ▸ List.mem_append_left refs hk

theorem grows_tryCreate {mk : ℕ → ρ} {hmk : ∀ id, Row.id (mk id) = id}
    (h : m.tryCreate k mk hmk = some (id, m')) : Grows m m' ∧ m'.lookup k = some id := by
  unfold tryCreate at h
  split_ifs at h with hnone
  cases h
  exact ⟨⟨[mk m.rows.fresh], [(k, m.rows.fresh)], Table.rows_insert _ _ hmk, rfl, rfl⟩,
    lookup_eq_some_iff.2 (List.mem_append_right _ List.mem_cons_self)⟩

end Mapping
end Relational
