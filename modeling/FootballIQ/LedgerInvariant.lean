import FootballIQ.LedgerPosting

/-!
# The ledger invariant

Every journal entry is a balanced list of at least two non-zero lines, every
balance is the sum of the lines on its account, the balances sum to zero, user
and escrow accounts are never negative, and no idempotency key is used twice.
One posting keeps all five, whether it commits, replays or is rolled back.
-/

namespace FootballIQ
namespace Ledger

open Transaction Relational

/-- All journal lines, in posting order. -/
def allLines (l : Ledger) : List JournalLine := l.journal.rows.flatMap (·.lines)

/-- No balance that must never go negative is negative. -/
def NonNegative (l : Ledger) : Prop :=
  ∀ a ∈ l.accounts.rows, a.type ∈ nonNegativeAccountTypes → 0 ≤ a.balanceMinor

structure Sound (l : Ledger) : Prop where
  lines_valid : ∀ j ∈ l.journal.rows, 2 ≤ j.lines.length ∧
    (∀ line ∈ j.lines, line.amountMinor ≠ 0) ∧ lineTotal j.lines = 0
  balance_eq : ∀ a ∈ l.accounts.rows, a.balanceMinor = amountOn a.id l.allLines
  balances_sum : (l.accounts.rows.map (·.balanceMinor)).sum = 0
  non_negative : NonNegative l
  keys_nodup : (l.journal.rows.map (·.idempotencyKey)).Nodup

/-- One call of `post` in its own transaction. -/
def attempt (l : Ledger) (input : PostJournalInput) : Ledger := commit (post input) l

def run (l : Ledger) (inputs : List PostJournalInput) : Ledger := inputs.foldl attempt l

theorem attempt_cases (l : Ledger) (input : PostJournalInput) :
    attempt l input = l ∨ (validateLines input.lines = .ok () ∧
      l.entryByKey input.idempotencyKey = none ∧ attempt l input = posted l input ∧
      (∀ line ∈ input.lines, l.accounts.find line.accountId ≠ none) ∧
      Covers l.accounts input.lines) := by
  rcases commit_cases (post input) l with ⟨id, l', hok, hc⟩ | ⟨e, _, hc⟩
  · obtain ⟨hv, ⟨j, _, _, rfl⟩ | ⟨hk, _, rfl, hex, hcov⟩⟩ := post_ok_cases hok
    · exact Or.inl hc
    · exact Or.inr ⟨hv, hk, hc, hex, hcov⟩
  · exact Or.inl hc

theorem allLines_posted (l : Ledger) (input : PostJournalInput) :
    (posted l input).allLines = l.allLines ++ input.lines := by
  unfold allLines posted
  rw [Table.rows_insert, List.flatMap_append, List.flatMap_singleton]
  rfl

theorem entryByKey_eq_none_iff (l : Ledger) (key : String) :
    l.entryByKey key = none ↔ ∀ j ∈ l.journal.rows, j.idempotencyKey ≠ key := by
  unfold entryByKey
  exact Table.findFirst_eq_none_iff l.journal _

/-- An account after crediting is an account from before with its own lines added. -/
theorem mem_creditAll {accounts : Table LedgerAccount} {lines : List JournalLine}
    {b : LedgerAccount} (hb : b ∈ (creditAll accounts lines).rows) :
    ∃ a ∈ accounts.rows, b = { a with balanceMinor := a.balanceMinor + amountOn a.id lines } := by
  have hfind := Table.find_id _ hb
  rw [find_creditAll] at hfind
  obtain ⟨a, ha, hab⟩ := Option.map_eq_some_iff.1 hfind
  obtain ⟨hmem, hid⟩ := (Table.find_eq_some_iff _ _ _).1 ha
  refine ⟨a, hmem, ?_⟩
  rw [← hab]
  congr 2
  exact congrArg (fun k => amountOn k lines) hid.symm

theorem posted_nonNegative {l : Ledger} {input : PostJournalInput} (hl : NonNegative l)
    (hcov : Covers l.accounts input.lines) : NonNegative (posted l input) := by
  intro b hb ht
  obtain ⟨a, ha, rfl⟩ := mem_creditAll hb
  change 0 ≤ a.balanceMinor + amountOn a.id input.lines
  by_cases hin : ∃ line ∈ input.lines, line.accountId = a.id
  · obtain ⟨line, hline, hid⟩ := hin
    have hle := hcov line hline a (hid ▸ Table.find_id _ ha) ht
    rwa [hid] at hle
  · rw [amountOn_of_not_mem (fun line hline heq => hin ⟨line, hline, heq⟩), add_zero]
    exact hl a ha ht

theorem posted_sound {l : Ledger} {input : PostJournalInput} (hl : Sound l)
    (hv : validateLines input.lines = .ok ()) (hk : l.entryByKey input.idempotencyKey = none)
    (hex : ∀ line ∈ input.lines, l.accounts.find line.accountId ≠ none)
    (hcov : Covers l.accounts input.lines) : Sound (posted l input) where
  lines_valid := by
    intro j hj
    rcases (mem_posted_journal l input j).1 hj with hj | rfl
    · exact hl.lines_valid j hj
    · exact (validateLines_ok_iff input.lines ()).1 hv
  balance_eq := by
    intro b hb
    obtain ⟨a, ha, rfl⟩ := mem_creditAll hb
    rw [allLines_posted, amountOn_append]
    change a.balanceMinor + _ = _
    rw [hl.balance_eq a ha]
  balances_sum := by
    obtain ⟨_, _, hsum⟩ := (validateLines_ok_iff input.lines ()).1 hv
    change ((creditAll l.accounts input.lines).rows.map (·.balanceMinor)).sum = 0
    rw [sum_creditAll _ _ hex, hl.balances_sum, hsum, add_zero]
  non_negative := posted_nonNegative hl.non_negative hcov
  keys_nodup := by
    change ((l.journal.insert (entryOf input) (id_entryOf input)).rows.map
      (·.idempotencyKey)).Nodup
    rw [Table.rows_insert, List.map_append, List.map_singleton, List.nodup_append]
    refine ⟨hl.keys_nodup, List.nodup_singleton _, ?_⟩
    intro key hkey key' hkey' heq
    obtain ⟨j, hj, rfl⟩ := List.mem_map.1 hkey
    rw [List.mem_singleton] at hkey'
    exact (entryByKey_eq_none_iff l _).1 hk j hj (heq.trans hkey')

theorem attempt_sound {l : Ledger} (hl : Sound l) (input : PostJournalInput) :
    Sound (attempt l input) := by
  rcases attempt_cases l input with h | ⟨hv, hk, h, hex, hcov⟩
  · rwa [h]
  · rw [h]
    exact posted_sound hl hv hk hex hcov

theorem run_sound_of_sound {l : Ledger} (hl : Sound l) (inputs : List PostJournalInput) :
    Sound (run l inputs) := by
  induction inputs generalizing l with
  | nil => exact hl
  | cons input inputs ih => exact ih (attempt_sound hl input)

theorem opening_sound {l : Ledger} (hjournal : l.journal.rows = [])
    (hzero : ∀ a ∈ l.accounts.rows, a.balanceMinor = 0) : Sound l where
  lines_valid := by simp [hjournal]
  balance_eq := by
    intro a ha
    rw [hzero a ha, allLines, hjournal]
    rfl
  balances_sum := by
    rw [List.map_congr_left hzero]
    simp
  non_negative := fun a ha _ => (hzero a ha).ge
  keys_nodup := by simp [hjournal]

/-- Every sequence of postings from an empty journal over zero balances, whatever
its lines and keys, reaches a sound ledger. -/
theorem run_sound {l : Ledger} (hjournal : l.journal.rows = [])
    (hzero : ∀ a ∈ l.accounts.rows, a.balanceMinor = 0) (inputs : List PostJournalInput) :
    Sound (run l inputs) :=
  run_sound_of_sound (opening_sound hjournal hzero) inputs

/-- A clearing account, a wallet and an escrow before the first posting. -/
def openingLedger : Ledger where
  accounts := ⟨[⟨0, .gatewayClearing, none, none, "NGN", 0⟩,
    ⟨1, .userAvailable, some 7, none, "NGN", 0⟩,
    ⟨2, .contestEscrow, none, some 3, "NGN", 0⟩], by decide⟩
  journal := Table.empty

/-- A deposit, a fee that repeats the wallet in its lines, an overdraft and a replay. -/
def samplePostings : List PostJournalInput :=
  [⟨.deposit, "deposit:1", "", [⟨0, -100⟩, ⟨1, 100⟩], []⟩,
    ⟨.entryFee, "entry:a", "", [⟨1, -30⟩, ⟨1, -20⟩, ⟨2, 50⟩], []⟩,
    ⟨.entryFee, "entry:b", "", [⟨1, -51⟩, ⟨2, 51⟩], []⟩,
    ⟨.entryFee, "entry:a", "", [⟨1, -1⟩, ⟨2, 1⟩], []⟩]

theorem run_sound_sample :
    Sound (run openingLedger samplePostings) ∧
      (run openingLedger samplePostings).accounts.rows.map (·.balanceMinor) = [-100, 50, 50] ∧
      (run openingLedger samplePostings).journal.rows.length = 2 :=
  ⟨run_sound rfl (by decide) samplePostings, by decide, by decide⟩

end Ledger
end FootballIQ
