import FootballIQ.LedgerPosting

/-!
# The order of the lines

The loop of `post` checks each account right after its own line. Where no account is listed
twice that check sees the balance before the posting and the one amount, whatever the lines
before it did, so that neither the outcome nor the balances depend on the order.
-/

namespace FootballIQ
namespace Ledger

open Transaction Relational

section Order
variable {accounts : Table LedgerAccount} {lines lines' : List JournalLine}

/-- Every listed account of a non-negative type can take its own line. -/
def Affordable (accounts : Table LedgerAccount) (lines : List JournalLine) : Prop :=
  ∀ line ∈ lines, ∀ a, accounts.find line.accountId = some a →
    a.type ∈ nonNegativeAccountTypes → 0 ≤ a.balanceMinor + line.amountMinor

theorem covers_iff_affordable (hnd : (lines.map (·.accountId)).Nodup) :
    Covers accounts lines ↔ Affordable accounts lines := by
  constructor
  · intro hcov line hl a ha ht
    have hle := hcov line hl a ha ht
    rwa [amountOn_of_nodup hnd hl] at hle
  · intro hafford line hl a ha ht
    rw [amountOn_of_nodup hnd hl]
    exact hafford line hl a ha ht

theorem affordable_perm (hperm : lines.Perm lines') :
    Affordable accounts lines ↔ Affordable accounts lines' := by
  constructor
  · intro h line hl
    exact h line (hperm.mem_iff.2 hl)
  · intro h line hl
    exact h line (hperm.mem_iff.1 hl)

theorem lineTotal_perm (hperm : lines.Perm lines') : lineTotal lines = lineTotal lines' :=
  (hperm.map _).sum_eq

theorem validateLines_perm (hperm : lines.Perm lines') (hv : validateLines lines = .ok ()) :
    validateLines lines' = .ok () := by
  rw [validateLines_ok_iff] at hv ⊢
  obtain ⟨hlen, hne, hsum⟩ := hv
  refine ⟨?_, ?_, ?_⟩
  · rwa [← hperm.length_eq]
  · intro line hl
    exact hne line (hperm.mem_iff.2 hl)
  · rwa [← lineTotal_perm hperm]

/-- Each account moves by its own lines, whatever their order. -/
theorem creditAll_perm (hperm : lines.Perm lines') :
    creditAll accounts lines = creditAll accounts lines' := by
  apply Table.ext_rows
  rw [rows_creditAll, rows_creditAll]
  apply List.map_congr_left
  intro a _
  rw [amountOn, amountOn, lineTotal_perm (hperm.filter _)]

end Order

section Outcome
variable {l : Ledger} {input : PostJournalInput}

/-- Lines on distinct existing accounts under an unused key. -/
structure Postable (l : Ledger) (input : PostJournalInput) : Prop where
  valid : validateLines input.lines = .ok ()
  unused : l.entryByKey input.idempotencyKey = none
  distinct : (input.lines.map (·.accountId)).Nodup
  exist : ∀ line ∈ input.lines, l.accounts.find line.accountId ≠ none

theorem Postable.perm (h : Postable l input) {lines' : List JournalLine}
    (hperm : input.lines.Perm lines') : Postable l { input with lines := lines' } where
  valid := validateLines_perm hperm h.valid
  unused := h.unused
  distinct := (hperm.map _).nodup_iff.1 h.distinct
  exist line hl := h.exist line (hperm.mem_iff.2 hl)

theorem Postable.ok_iff (h : Postable l input) (r : ℕ × Ledger) :
    post input l = .ok r ↔
      Affordable l.accounts input.lines ∧ r = (l.journal.fresh, posted l input) := by
  obtain ⟨id, l'⟩ := r
  constructor
  · intro hok
    obtain ⟨_, ⟨j, hj, _⟩ | ⟨_, rfl, rfl, _, hcov⟩⟩ := post_ok_cases hok
    · rw [h.unused] at hj
      cases hj
    · exact ⟨(covers_iff_affordable h.distinct).1 hcov, rfl⟩
  · rintro ⟨hafford, hr⟩
    rw [hr]
    exact post_of_nodup h.valid h.unused h.distinct h.exist
      ((covers_iff_affordable h.distinct).2 hafford)

theorem Postable.commit_cases (h : Postable l input) :
    Affordable l.accounts input.lines ∧ commit (post input) l = posted l input ∨
      ¬ Affordable l.accounts input.lines ∧ commit (post input) l = l := by
  rcases Transaction.commit_cases (post input) l with ⟨id, l', hok, hc⟩ | ⟨e, herr, hc⟩
  · obtain ⟨hafford, hr⟩ := (h.ok_iff (id, l')).1 hok
    exact Or.inl ⟨hafford, hc.trans (congrArg Prod.snd hr)⟩
  · refine Or.inr ⟨fun hafford => ?_, hc⟩
    have hok := (h.ok_iff _).2 ⟨hafford, rfl⟩
    rw [herr] at hok
    cases hok

/-- A posting on distinct accounts goes through exactly if each of them can take its line; it
moves each by its line and no other account, a failed one changes nothing, and every order of
the lines succeeds alike and leaves the same balances. -/
theorem post_any_order (l : Ledger) (input : PostJournalInput)
    (hv : validateLines input.lines = .ok ()) (hk : l.entryByKey input.idempotencyKey = none)
    (hnd : (input.lines.map (·.accountId)).Nodup)
    (hex : ∀ line ∈ input.lines, l.accounts.find line.accountId ≠ none) :
    ((∃ r, post input l = .ok r) ↔ ∀ line ∈ input.lines, ∀ a,
        l.accounts.find line.accountId = some a → a.type ∈ nonNegativeAccountTypes →
          0 ≤ a.balanceMinor + line.amountMinor) ∧
      (∀ id l', post input l = .ok (id, l') →
        (∀ line ∈ input.lines, ∀ a, l.accounts.find line.accountId = some a →
          l'.accounts.find line.accountId =
            some { a with balanceMinor := a.balanceMinor + line.amountMinor }) ∧
        ∀ k, k ∉ input.lines.map (·.accountId) → l'.accounts.find k = l.accounts.find k) ∧
      (∀ e, post input l = .error e → commit (post input) l = l) ∧
      ∀ lines', input.lines.Perm lines' →
        ((∃ r, post { input with lines := lines' } l = .ok r) ↔ ∃ r, post input l = .ok r) ∧
          (commit (post { input with lines := lines' }) l).accounts =
            (commit (post input) l).accounts := by
  have h : Postable l input := ⟨hv, hk, hnd, hex⟩
  have hiff : ∀ {input' : PostJournalInput}, Postable l input' →
      ((∃ r, post input' l = .ok r) ↔ Affordable l.accounts input'.lines) := by
    intro input' h'
    constructor
    · rintro ⟨r, hok⟩
      exact ((h'.ok_iff r).1 hok).1
    · intro hafford
      exact ⟨_, (h'.ok_iff _).2 ⟨hafford, rfl⟩⟩
  refine ⟨hiff h, ?_, ?_, ?_⟩
  · intro id l' hok
    obtain ⟨_, hr⟩ := (h.ok_iff (id, l')).1 hok
    obtain rfl : l' = posted l input := congrArg Prod.snd hr
    constructor
    · intro line hl a ha
      rw [posted, find_creditAll, ha, amountOn_of_nodup hnd hl]
      rfl
    · intro k hout
      have hzero : amountOn k input.lines = 0 :=
        amountOn_of_not_mem (fun line hl heq => hout (List.mem_map.2 ⟨line, hl, heq⟩))
      rw [posted, find_creditAll, hzero]
      cases l.accounts.find k with
      | none => rfl
      | some a => rw [Option.map_some, add_zero]
  · intro e herr
    exact commit_of_error herr
  · intro lines' hperm
    have h' := h.perm hperm
    refine ⟨?_, ?_⟩
    · rw [hiff h', hiff h]
      exact (affordable_perm hperm).symm
    · have haff : Affordable l.accounts input.lines ↔ Affordable l.accounts lines' :=
        affordable_perm hperm
      rcases h.commit_cases with ⟨hyes, hc⟩ | ⟨hno, hc⟩
      · rcases h'.commit_cases with ⟨_, hc'⟩ | ⟨hno', _⟩
        · rw [hc, hc']
          exact (creditAll_perm hperm).symm
        · exact absurd (haff.1 hyes) hno'
      · rcases h'.commit_cases with ⟨hyes', _⟩ | ⟨_, hc'⟩
        · exact absurd (haff.2 hyes') hno
        · rw [hc, hc']

/-- A prize of 80 out of an escrow of 100, with the commission, in two orders. -/
theorem post_any_order_payout :
    let l : Ledger := ⟨⟨[⟨1, .contestEscrow, none, some 1, "NGN", 100⟩,
      ⟨2, .userAvailable, some 7, none, "NGN", 0⟩, ⟨3, .platformRevenue, none, none, "NGN", 5⟩],
      by decide⟩, Table.empty⟩
    let input : PostJournalInput := ⟨.prizePayout, "settlement:1", "", [⟨1, -100⟩, ⟨2, 80⟩, ⟨3, 20⟩],
      []⟩
    (commit (post { input with lines := [⟨3, 20⟩, ⟨1, -100⟩, ⟨2, 80⟩] }) l).accounts =
        (commit (post input) l).accounts ∧
      (commit (post input) l).accounts.rows.map (·.balanceMinor) = [0, 80, 25] :=
  ⟨((post_any_order _ _ (by decide) (by decide) (by decide) (by decide)).2.2.2 _
    (by decide)).2, by decide⟩

end Outcome

end Ledger
end FootballIQ
