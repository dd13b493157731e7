import FootballIQ.ContestTerms

/-!
# Contest capacity

`submitSlip` counts the active entries in its read. Its transaction does not count
again, so a contest fills beyond its maximum exactly when a prepared submission
reaches the end of its transaction after the last place has been taken.
-/

namespace FootballIQ
namespace Capacity

open Transaction Relational Interleaving Contests Entries Platform

/-- No contest has more active entries than its maximum. -/
def WithinCapacity (db : Db) : Prop :=
  ∀ c ∈ db.contests.rows, ∀ m, c.maxEntries = some m → (activeEntries db c.id).length ≤ m

/-- A place is left in the contest, if it has a maximum. -/
def HasRoom (db : Db) (contestId : ℕ) : Prop :=
  ∀ c, db.contests.find contestId = some c → ∀ m, c.maxEntries = some m →
    (activeEntries db contestId).length < m

/-- A submission finds a place at its transaction, or nothing comes of it. -/
def RoomLeft (_tick : Tick) (t : Task) (db : Db) : Prop :=
  match t with
  | .submitTx slip => HasRoom db slip.contest.id ∨ EntryGate.Stops db slip
  | _ => True

/-- The foreign key of an entry, for those that count. -/
def EntriesBelong (db : Db) : Prop :=
  ∀ e ∈ db.entries.rows, e.status = .active → db.contests.find e.contestId ≠ none

/-- A prepared submission is for a contest of the table. -/
def KnowsContest (db : Db) : Task → Prop
  | .submitTx slip => db.contests.find slip.contest.id ≠ none
  | _ => True

section Counting
variable {db db' : Db}

theorem count_active (db : Db) (contestId : ℕ) :
    (activeEntries db contestId).length = db.entries.count (IsActive contestId) := rfl

theorem find_of_closes (h : Closes db db') {contestId : ℕ}
    (hc : db.contests.find contestId ≠ none) : db'.contests.find contestId ≠ none := by
  obtain ⟨c, hc⟩ := Option.ne_none_iff_exists'.1 hc
  obtain ⟨c', hc', _⟩ := h.contests.find hc
  rw [hc']
  exact Option.some_ne_none c'

theorem entriesBelong_of_closes (h : Closes db db') (hb : EntriesBelong db) :
    EntriesBelong db' := by
  intro e he hactive
  obtain ⟨x, hx, hcontest, hxactive⟩ := (h.entries e.contestId).mem he ⟨rfl, hactive⟩
  exact find_of_closes h (hcontest ▸ hb x hx hxactive)

/-- What only closes entries keeps every contest within its capacity; a new contest is empty. -/
theorem withinCapacity_of_closes (h : Closes db db') (hb : EntriesBelong db)
    (hw : WithinCapacity db) : WithinCapacity db' := by
  intro c' hc' m hm
  have hle := (h.entries c'.id).count_le
  rw [count_active]
  cases hc : db.contests.find c'.id with
  | none =>
    have hnone : db.entries.count (IsActive c'.id) = 0 := by
      rw [Table.count_eq_zero_iff]
      rintro e hmem ⟨hcontest, hactive⟩
      exact hb e hmem hactive (hcontest ▸ hc)
    omega
  | some c =>
    obtain ⟨hmem, hid⟩ := (Table.find_eq_some_iff _ _ c).1 hc
    obtain ⟨x, hx, hterms⟩ := h.contests.find hc
    have hxc : x = c' := Option.some.inj (hx.symm.trans (db'.contests.find_id hc'))
    have hmax : c.maxEntries = some m := by
      rw [← hm, ← hxc]
      exact (congrArg Contest.maxEntries hterms).symm
    have hcap := hw c hmem m hmax
    rw [count_active, show c.id = c'.id from hid] at hcap
    omega

theorem count_entered (now : DateTime) (slip : PreparedSlip) (journalId : ℕ) (l : Ledger)
    (contestId : ℕ) :
    (activeEntries (entered db now slip journalId l) contestId).length =
      (activeEntries db contestId).length + if slip.contest.id = contestId then 1 else 0 := by
  have hpaid : IsActive contestId (paidEntry slip now journalId db.entries.fresh) ↔
      slip.contest.id = contestId := and_iff_left rfl
  rw [count_active, count_active]
  exact (Table.count_insert _ _ _ (id_paidEntry slip now journalId)).trans (by simp only [hpaid])

end Counting

section Steps
variable (drawHash : ℕ → ℕ → String) {tick : Tick} {t : Task} {db : Db}

theorem knowsContest_step (tick : Tick) (t : Task) {u : Task} (h : KnowsContest db u) :
    KnowsContest (step drawHash tick t db).1 u := by
  cases u with
  | submitTx slip =>
    obtain ⟨c, hc⟩ := Option.ne_none_iff_exists'.1 h
    obtain ⟨c', hc', _⟩ := (keeps_terms_step drawHash tick t).find hc
    exact Option.ne_none_iff_exists'.2 ⟨c', hc'⟩
  | _ => trivial

theorem knowsContest_next {t' : Task} (h : (step drawHash tick t db).2 = some t') :
    KnowsContest (step drawHash tick t db).1 t' := by
  rcases step_next drawHash h with ⟨call, rfl, hdb, hprep⟩ | ⟨job, job', rfl, rfl⟩ | ⟨job, rfl, rfl⟩
  · rw [hdb]
    cases hprep with
    | submitTx slip userId dto hread =>
      exact Option.ne_none_iff_exists'.2 ⟨slip.contest, (submitRead_ok hread).2.2.1⟩
    | _ => trivial
  · trivial
  · trivial

theorem entriesBelong_step (hb : EntriesBelong db) (hk : KnowsContest db t) :
    EntriesBelong (step drawHash tick t db).1 := by
  by_cases hsubmit : ∃ slip, t = .submitTx slip
  · obtain ⟨slip, rfl⟩ := hsubmit
    rw [step_of_action drawHash (submitTx tick.now slip) rfl rfl]
    rcases commit_cases (submitTx tick.now slip) db with ⟨res, db', hok, hc⟩ | ⟨_, _, hc⟩
    · obtain ⟨_, _, _, _, _, _, _, _, rfl, _⟩ := (submitTx_ok_iff tick.now slip db db' res).1 hok
      rw [hc]
      intro e he hactive
      rcases (mem_entered _ _ _ _ _ e).1 he with he | rfl
      · exact hb e he hactive
      · exact hk
    · rwa [hc]
  · exact entriesBelong_of_closes (closes_step drawHash (fun slip ht => hsubmit ⟨slip, ht⟩)) hb

theorem capacity_inductive :
    (protocol drawHash).Inductive (fun _ _ _ => True)
      (fun db => Ledger.NonNegative db.ledger ∧ EntriesBelong db) KnowsContest where
  init _ _ _ := trivial
  shared _ _ _ hI hk _ :=
    ⟨EntryGate.nonNegative_step drawHash hI.1, entriesBelong_step drawHash hI.2 hk⟩
  cont _ _ _ _ _ _ _ ht' := knowsContest_next drawHash ht'
  stable tick t _ _ _ _ _ hu := knowsContest_step drawHash tick t hu

/-- One step keeps every contest within its capacity exactly when its submission finds a
place or stops. -/
theorem step_withinCapacity_iff (tick : Tick) (t : Task) (hn : Ledger.NonNegative db.ledger)
    (hb : EntriesBelong db) (hk : KnowsContest db t) (hw : WithinCapacity db) :
    WithinCapacity (step drawHash tick t db).1 ↔ RoomLeft tick t db := by
  by_cases hsubmit : ∃ slip, t = .submitTx slip
  · obtain ⟨slip, rfl⟩ := hsubmit
    rw [step_of_action drawHash (submitTx tick.now slip) rfl rfl]
    rcases commit_cases (submitTx tick.now slip) db with ⟨res, db', hok, hc⟩ | ⟨e, herr, hc⟩
    · have hgo := (EntryGate.submit_commits_iff tick.now slip db hn).1 ⟨_, hok⟩
      obtain ⟨_, _, _, _, _, _, _, _, rfl, _⟩ := (submitTx_ok_iff tick.now slip db db' res).1 hok
      rw [hc]
      constructor
      · intro hafter
        refine Or.inl (fun c hfind m hm => ?_)
        obtain ⟨hmem, hid⟩ := (Table.find_eq_some_iff _ _ c).1 hfind
        have hle := hafter c hmem m hm
        rw [count_entered, if_pos (show slip.contest.id = c.id from hid.symm),
          show c.id = slip.contest.id from hid] at hle
        omega
      · rintro (hroom | hstop)
        · intro c hmem m hm
          rw [count_entered]
          by_cases hid : slip.contest.id = c.id
          · have hlt := hroom c (hid ▸ db.contests.find_id hmem) m hm
            rw [if_pos hid, ← hid]
            omega
          · rw [if_neg hid]
            exact hw c hmem m hm
        · exact absurd hstop hgo
    · have hstop : EntryGate.Stops db slip := by
        by_contra hgo
        obtain ⟨r, hr⟩ := (EntryGate.submit_commits_iff tick.now slip db hn).2 hgo
        rw [herr] at hr
        cases hr
      rw [hc]
      exact iff_of_true hw (Or.inr hstop)
  · have hclose : Closes db (step drawHash tick t db).1 :=
      closes_step drawHash (fun slip ht => hsubmit ⟨slip, ht⟩)
    refine iff_of_true (withinCapacity_of_closes hclose hb hw) ?_
    cases t with
    | submitTx slip => exact absurd ⟨slip, rfl⟩ hsubmit
    | _ => trivial

end Steps

/-- Along every interleaving no contest ever holds more active entries than its maximum
exactly when every submission finds a place left at its transaction or stops there. -/
theorem withinCapacity_iff (drawHash : ℕ → ℕ → String) (db : Db)
    (hn : Ledger.NonNegative db.ledger) (hb : EntriesBelong db) (hw : WithinCapacity db)
    (as : List (Act Call Tick)) :
    (protocol drawHash).Throughout WithinCapacity ⟨db, []⟩ as ↔
      (protocol drawHash).Along RoomLeft ⟨db, []⟩ as :=
  ((capacity_inductive drawHash).guarded (fun _ _ _ _ => trivial)).throughout_iff
    (fun tick t _ hI hk => step_withinCapacity_iff drawHash tick t hI.1 hI.2 hk)
    ⟨⟨hn, hb⟩, by intro t ht; cases ht⟩ hw as

section Overfull

/-- One place, and two users with money. -/
def onePlaceDb : Db :=
  { openDb with contests := ⟨[{ openContest 1 with maxEntries := some 1 }, openContest 2],
      by decide⟩ }

/-- Both users read the empty contest before either of them enters it. -/
def bothRead : List (Act Call Tick) :=
  [.start (.submitSlip 7 (sampleSlip 1 "9a0e")), .start (.submitSlip 8 (sampleSlip 1 "77c2")),
    .resume 0 ⟨99, false, false⟩, .resume 1 ⟨99, false, false⟩, .resume 0 ⟨99, false, false⟩,
    .resume 0 ⟨99, false, false⟩]

theorem withinCapacity_iff_bothRead :
    (protocol (fun _ _ => "")).Throughout WithinCapacity ⟨onePlaceDb, []⟩ bothRead ↔
      (protocol (fun _ _ => "")).Along RoomLeft ⟨onePlaceDb, []⟩ bothRead :=
  withinCapacity_iff _ onePlaceDb (by unfold Ledger.NonNegative; decide)
    (by unfold EntriesBelong; decide)
    (by
      intro c hc m hm
      exact Nat.zero_le m) bothRead

/-- The contest with one place ends with two active entries. -/
theorem bothRead_overfull :
    ¬ (protocol (fun _ _ => "")).Throughout WithinCapacity ⟨onePlaceDb, []⟩ bothRead := by
  intro h
  have hlast := ((protocol (fun _ _ => "")).throughout_iff_prefixes _ _ bothRead).1 h bothRead
    List.prefix_rfl
  have hcount : ∃ c ∈
      ((protocol (fun _ _ => "")).run ⟨onePlaceDb, []⟩ bothRead).shared.contests.rows,
      c.maxEntries = some 1 ∧ 1 < (activeEntries
        ((protocol (fun _ _ => "")).run ⟨onePlaceDb, []⟩ bothRead).shared c.id).length := by
    decide +kernel
  obtain ⟨c, hc, hm, hover⟩ := hcount
  exact absurd (hlast c hc 1 hm) (not_le.2 hover)

end Overfull

end Capacity
end FootballIQ
