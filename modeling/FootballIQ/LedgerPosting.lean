import FootballIQ.Ledger

/-!
# What a posting does

`creditAll` is the pure effect of a list of lines on the balances: each account
moves by the total of its own lines. A successful `post` either replays an entry
and changes nothing, or appends one entry with exactly the given lines, credits
them all and leaves every touched account of a non-negative type covered.
-/

namespace FootballIQ
namespace Ledger

open Transaction Relational

def creditAll (accounts : Table LedgerAccount) (lines : List JournalLine) : Table LedgerAccount :=
  lines.foldl credit accounts

/-- The total of the lines on account `k`. -/
def amountOn (k : ℕ) (lines : List JournalLine) : ℤ :=
  lineTotal (lines.filter (fun line => line.accountId = k))

/-- Every listed account of a non-negative type stays non-negative under the lines. -/
def Covers (accounts : Table LedgerAccount) (lines : List JournalLine) : Prop :=
  ∀ line ∈ lines, ∀ a, accounts.find line.accountId = some a →
    a.type ∈ nonNegativeAccountTypes → 0 ≤ a.balanceMinor + amountOn line.accountId lines

section Keys

/-- Keys built from one prefix and a number determine the number. -/
theorem key_inj {p : String} {m n : ℕ} (h : p ++ toString m = p ++ toString n) : m = n := by
  have hdigits := congrArg String.toList ((String.append_right_inj p).1 h)
  rw [Nat.toString_eq_repr, Nat.toString_eq_repr, Nat.toList_repr, Nat.toList_repr] at hdigits
  have hm : Nat.ofDigitChars 10 (Nat.toDigits 10 m) 0 = m := Nat.ofDigitChars_ten_toDigits
  rw [← hm, hdigits, Nat.ofDigitChars_ten_toDigits]

/-- Keys whose prefixes start with different letters are different. -/
theorem key_ne {p q : String} {c d : Char} (hp : p.toList.head? = some c)
    (hq : q.toList.head? = some d) (hcd : c ≠ d) (a b : String) : p ++ a ≠ q ++ b := by
  intro h
  have hhead := congrArg (fun s : String => s.toList.head?) h
  simp only [String.toList_append, List.head?_append, hp, hq, Option.some_or,
    Option.some.injEq] at hhead
  exact hcd hhead

end Keys

section Lines

theorem validateLines_ok_iff (lines : List JournalLine) (u : Unit) :
    validateLines lines = .ok u ↔
      2 ≤ lines.length ∧ (∀ line ∈ lines, line.amountMinor ≠ 0) ∧ lineTotal lines = 0 := by
  unfold validateLines
  by_cases hlen : lines.length < 2
  · simp only [hlen, if_true, reduceCtorEq, false_iff]
    omega
  · by_cases hzero : ∃ line ∈ lines, line.amountMinor = 0
    · simp only [hlen, hzero, if_true, if_false, reduceCtorEq, false_iff]
      rintro ⟨_, hne, _⟩
      obtain ⟨line, hl, h0⟩ := hzero
      exact hne line hl h0
    · by_cases hsum : lineTotal lines = 0
      · simp only [hlen, hzero, hsum, if_false, ne_eq, not_true_eq_false, and_true, true_iff]
        exact ⟨by omega, fun line hl h0 => hzero ⟨line, hl, h0⟩⟩
      · simp [hlen, hzero, hsum]

@[simp] theorem amountOn_nil (k : ℕ) : amountOn k [] = 0 := rfl

@[simp] theorem amountOn_cons (k : ℕ) (line : JournalLine) (lines : List JournalLine) :
    amountOn k (line :: lines) =
      (if line.accountId = k then line.amountMinor else 0) + amountOn k lines := by
  unfold amountOn lineTotal
  by_cases h : line.accountId = k
  · simp [h]
  · simp [h]

theorem amountOn_eq_sum (k : ℕ) (lines : List JournalLine) : amountOn k lines =
    (lines.map (fun line => if line.accountId = k then line.amountMinor else 0)).sum := by
  induction lines with
  | nil => rfl
  | cons line lines ih => rw [amountOn_cons, ih, List.map_cons, List.sum_cons]

theorem amountOn_append (k : ℕ) (lines lines' : List JournalLine) :
    amountOn k (lines ++ lines') = amountOn k lines + amountOn k lines' := by
  simp [amountOn, lineTotal]

theorem amountOn_of_not_mem {k : ℕ} {lines : List JournalLine}
    (h : ∀ line ∈ lines, line.accountId ≠ k) : amountOn k lines = 0 := by
  induction lines with
  | nil => rfl
  | cons line lines ih =>
    rw [amountOn_cons, if_neg (h line List.mem_cons_self),
      ih (fun m hm => h m (List.mem_cons_of_mem _ hm)), add_zero]

theorem amountOn_of_nodup {lines : List JournalLine} (hnd : (lines.map (·.accountId)).Nodup)
    {line : JournalLine} (hl : line ∈ lines) :
    amountOn line.accountId lines = line.amountMinor := by
  induction lines with
  | nil => cases hl
  | cons m lines ih =>
    rw [List.map_cons, List.nodup_cons] at hnd
    have hout : ∀ n ∈ lines, n.accountId ≠ m.accountId := fun n hn heq =>
      hnd.1 (List.mem_map.2 ⟨n, hn, heq⟩)
    rcases List.mem_cons.1 hl with rfl | hl
    · rw [amountOn_cons, if_pos rfl, amountOn_of_not_mem hout, add_zero]
    · rw [amountOn_cons, if_neg (hout line hl).symm, ih hnd.2 hl, zero_add]

end Lines

section Balances

theorem find_credit (accounts : Table LedgerAccount) (line : JournalLine) (k : ℕ) :
    (credit accounts line).find k = (accounts.find k).map (fun a =>
      { a with balanceMinor := a.balanceMinor + if line.accountId = k then line.amountMinor else 0 })
      := by
  unfold credit
  rw [Table.find_update]
  congr 1
  funext a
  by_cases h : k = line.accountId
  · simp [h]
  · simp [h, Ne.symm h]

theorem find_creditAll (accounts : Table LedgerAccount) (lines : List JournalLine) (k : ℕ) :
    (creditAll accounts lines).find k = (accounts.find k).map (fun a =>
      { a with balanceMinor := a.balanceMinor + amountOn k lines }) := by
  induction lines generalizing accounts with
  | nil =>
    cases h : accounts.find k with
    | none => simp [creditAll, h]
    | some a => simp [creditAll, h]
  | cons line lines ih =>
    change (creditAll (credit accounts line) lines).find k = _
    rw [ih, find_credit, Option.map_map]
    congr 1
    funext a
    simp only [Function.comp_apply, amountOn_cons, add_assoc]

/-- The rows after crediting: each account moves by its own lines. -/
theorem rows_creditAll (accounts : Table LedgerAccount) (lines : List JournalLine) :
    (creditAll accounts lines).rows = accounts.rows.map (fun a =>
      { a with balanceMinor := a.balanceMinor + amountOn a.id lines }) := by
  induction lines generalizing accounts with
  | nil => simp [creditAll]
  | cons line lines ih =>
    change (creditAll (credit accounts line) lines).rows = _
    rw [ih, credit, Table.update, Table.rows_updateWhere, List.map_map]
    apply List.map_congr_left
    intro a _
    simp only [Function.comp_apply, amountOn_cons]
    by_cases h : Row.id a = line.accountId
    · rw [if_pos h, if_pos (show line.accountId = a.id from h.symm)]
      simp only [add_assoc]
    · rw [if_neg h, if_neg (show line.accountId ≠ a.id from fun heq => h heq.symm), zero_add]

theorem keeps_creditAll {γ : Type*} (g : LedgerAccount → γ)
    (hg : ∀ (a : LedgerAccount) (b : ℤ), g { a with balanceMinor := b } = g a)
    (accounts : Table LedgerAccount) (lines : List JournalLine) :
    Table.Keeps g accounts (creditAll accounts lines) := by
  induction lines generalizing accounts with
  | nil => exact Table.Keeps.refl g accounts
  | cons line lines ih =>
    refine Table.Keeps.trans ?_ (ih (credit accounts line))
    exact Table.keeps_updateWhere g accounts (fun a => Row.id a = line.accountId)
      (fun a => { a with balanceMinor := a.balanceMinor + line.amountMinor }) (fun _ => rfl)
      (fun a => hg a _)

/-- Crediting lines moves the sum of all balances by the total of the lines. -/
theorem sum_creditAll (accounts : Table LedgerAccount) (lines : List JournalLine)
    (hex : ∀ line ∈ lines, accounts.find line.accountId ≠ none) :
    ((creditAll accounts lines).rows.map (·.balanceMinor)).sum =
      (accounts.rows.map (·.balanceMinor)).sum + lineTotal lines := by
  induction lines generalizing accounts with
  | nil => simp [creditAll, lineTotal]
  | cons line lines ih =>
    obtain ⟨a, ha⟩ := Option.ne_none_iff_exists'.1 (hex line List.mem_cons_self)
    have hex' : ∀ m ∈ lines, (credit accounts line).find m.accountId ≠ none := by
      intro m hm
      rw [find_credit, ne_eq, Option.map_eq_none_iff]
      exact hex m (List.mem_cons_of_mem _ hm)
    change ((creditAll (credit accounts line) lines).rows.map (·.balanceMinor)).sum = _
    rw [ih _ hex', credit, Table.sum_update accounts _ _ (·.balanceMinor) ha]
    simp only [lineTotal, List.map_cons, List.sum_cons]
    ring

end Balances

section Posting

theorem applyLine_ok_iff (line : JournalLine) (l l' : Ledger) (u : PUnit) :
    applyLine line l = .ok (u, l') ↔ ∃ a, l.accounts.find line.accountId = some a ∧
      (a.type ∈ nonNegativeAccountTypes → 0 ≤ a.balanceMinor + line.amountMinor) ∧
      l' = { l with accounts := credit l.accounts line } := by
  unfold applyLine
  simp only [bind_ok_iff, get_ok_iff]
  cases h : l.accounts.find line.accountId with
  | none => simp [h]
  | some a =>
    simp only [Option.some.injEq, exists_eq_left']
    constructor
    · rintro ⟨_, _, ⟨rfl, rfl⟩, hrun⟩
      simp only [h, bind_ok_iff, set_ok_iff, throwIf_ok_iff] at hrun
      obtain ⟨_, _, rfl, hno, rfl⟩ := hrun
      refine ⟨?_, rfl⟩
      intro ht
      by_contra hneg
      exact hno ⟨ht, by omega⟩
    · rintro ⟨hcov, rfl⟩
      refine ⟨l, l, ⟨rfl, rfl⟩, ?_⟩
      simp only [h, bind_ok_iff, set_ok_iff, throwIf_ok_iff]
      refine ⟨⟨⟩, _, rfl, ?_, rfl⟩
      rintro ⟨ht, hneg⟩
      have := hcov ht
      omega

/-- The loop of `post`: when no line fails, the lines are credited in order and
every listed account of a non-negative type ends covered, because its own last
line checked the balance that the later lines no longer touch. -/
theorem applyLines_ok (lines : List JournalLine) (l l' : Ledger) (u : PUnit)
    (h : (forM lines applyLine : Tx Failure Ledger PUnit) l = .ok (u, l')) :
    l' = { l with accounts := creditAll l.accounts lines } ∧ Covers l.accounts lines := by
  induction lines generalizing l with
  | nil =>
    rw [forM_nil_ok_iff] at h
    exact ⟨h.symm, fun line hl => by cases hl⟩
  | cons line lines ih =>
    obtain ⟨l₁, hline, hrest⟩ := (forM_cons_ok_iff _ _ _ _ _).1 h
    obtain ⟨a, ha, hcov, rfl⟩ := (applyLine_ok_iff line l l₁ _).1 hline
    obtain ⟨rfl, htail⟩ := ih _ hrest
    refine ⟨rfl, ?_⟩
    intro m hm b hb ht
    by_cases hin : ∃ n ∈ lines, n.accountId = m.accountId
    · obtain ⟨n, hn, hnm⟩ := hin
      have hb' : (credit l.accounts line).find n.accountId = some { b with
          balanceMinor := b.balanceMinor +
            if line.accountId = n.accountId then line.amountMinor else 0 } := by
        rw [find_credit, hnm, hb]
        rfl
      have hle := htail n hn _ hb' ht
      rw [hnm] at hle
      rw [amountOn_cons]
      simpa only [add_assoc] using hle
    · have hlast : amountOn m.accountId lines = 0 :=
        amountOn_of_not_mem (fun n hn heq => hin ⟨n, hn, heq⟩)
      rcases List.mem_cons.1 hm with rfl | hm
      · rw [ha] at hb
        cases hb
        rw [amountOn_cons, if_pos rfl, hlast, add_zero]
        exact hcov ht
      · exact absurd ⟨m, hm, rfl⟩ hin

/-- Lines on pairwise distinct existing accounts go through whenever they are covered. -/
theorem applyLines_of_nodup (lines : List JournalLine) (l : Ledger)
    (hnd : (lines.map (·.accountId)).Nodup)
    (hex : ∀ line ∈ lines, l.accounts.find line.accountId ≠ none)
    (hcov : Covers l.accounts lines) :
    (forM lines applyLine : Tx Failure Ledger PUnit) l =
      .ok (⟨⟩, { l with accounts := creditAll l.accounts lines }) := by
  induction lines generalizing l with
  | nil => rfl
  | cons line lines ih =>
    obtain ⟨a, ha⟩ := Option.ne_none_iff_exists'.1 (hex line List.mem_cons_self)
    have hnd' := hnd
    rw [List.map_cons, List.nodup_cons] at hnd'
    have hout : ∀ m ∈ lines, m.accountId ≠ line.accountId := fun m hm heq =>
      hnd'.1 (List.mem_map.2 ⟨m, hm, heq⟩)
    have hkeep : ∀ m ∈ lines, (credit l.accounts line).find m.accountId =
        l.accounts.find m.accountId := fun m hm => Table.find_update_of_ne _ _ _ (hout m hm)
    rw [forM_cons_ok_iff]
    refine ⟨{ l with accounts := credit l.accounts line }, ?_, ?_⟩
    · refine (applyLine_ok_iff line l _ _).2 ⟨a, ha, fun ht => ?_, rfl⟩
      have hle := hcov line List.mem_cons_self a ha ht
      rwa [amountOn_of_nodup hnd List.mem_cons_self] at hle
    · refine ih { l with accounts := credit l.accounts line } hnd'.2 ?_ ?_
      · intro m hm
        rw [hkeep m hm]
        exact hex m (List.mem_cons_of_mem _ hm)
      · intro m hm b hb ht
        rw [hkeep m hm] at hb
        have hle := hcov m (List.mem_cons_of_mem _ hm) b hb ht
        rwa [amountOn_cons, if_neg (hout m hm).symm, zero_add] at hle

/-- The entry that a first posting of `input` writes. -/
def entryOf (input : PostJournalInput) (id : ℕ) : JournalEntry :=
  ⟨id, input.type, input.idempotencyKey, input.description, input.metadata, input.lines⟩

theorem id_entryOf (input : PostJournalInput) (id : ℕ) : Row.id (entryOf input id) = id := rfl

/-- The ledger after a first posting of `input`. -/
def posted (l : Ledger) (input : PostJournalInput) : Ledger where
  accounts := creditAll l.accounts input.lines
  journal := l.journal.insert (entryOf input) (id_entryOf input)

theorem createEntry_ok_iff (input : PostJournalInput) (l l' : Ledger) (id : ℕ) :
    createEntry input l = .ok (id, l') ↔
      (∀ line ∈ input.lines, l.accounts.find line.accountId ≠ none) ∧ id = l.journal.fresh ∧
        l' = { l with journal := l.journal.insert (entryOf input) (id_entryOf input) } := by
  unfold createEntry
  simp only [bind_ok_iff, get_ok_iff, throwIf_ok_iff, set_ok_iff, pure_ok_iff]
  constructor
  · rintro ⟨_, _, ⟨rfl, rfl⟩, _, _, ⟨hex, rfl⟩, _, _, rfl, rfl, rfl⟩
    exact ⟨fun line hl hnone => hex ⟨line, hl, hnone⟩, rfl, rfl⟩
  · rintro ⟨hex, rfl, rfl⟩
    refine ⟨l, l, ⟨rfl, rfl⟩, ⟨⟩, l, ⟨?_, rfl⟩, ⟨⟩, _, rfl, rfl, rfl⟩
    rintro ⟨line, hl, hnone⟩
    exact hex line hl hnone

/-- What a successful posting did. -/
theorem post_ok_cases {input : PostJournalInput} {l l' : Ledger} {id : ℕ}
    (h : post input l = .ok (id, l')) :
    validateLines input.lines = .ok () ∧
      ((∃ j, l.entryByKey input.idempotencyKey = some j ∧ id = j.id ∧ l' = l) ∨
        (l.entryByKey input.idempotencyKey = none ∧ id = l.journal.fresh ∧ l' = posted l input ∧
          (∀ line ∈ input.lines, l.accounts.find line.accountId ≠ none) ∧
          Covers l.accounts input.lines)) := by
  unfold post at h
  simp only [bind_ok_iff, check_ok_iff, get_ok_iff] at h
  obtain ⟨⟨⟩, _, ⟨hv, rfl⟩, _, _, ⟨rfl, rfl⟩, hrun⟩ := h
  refine ⟨hv, ?_⟩
  cases hk : l.entryByKey input.idempotencyKey with
  | some j =>
    simp only [hk, pure_ok_iff] at hrun
    exact Or.inl ⟨j, rfl, hrun.1.symm, hrun.2.symm⟩
  | none =>
    simp only [hk, bind_ok_iff, pure_ok_iff] at hrun
    obtain ⟨_, l₁, hcreate, _, l₂, hloop, rfl, rfl⟩ := hrun
    obtain ⟨hex, rfl, rfl⟩ := (createEntry_ok_iff input l l₁ _).1 hcreate
    obtain ⟨rfl, hcov⟩ := applyLines_ok _ _ _ _ hloop
    exact Or.inr ⟨rfl, rfl, rfl, hex, hcov⟩

theorem applyLine_debit_iff {accounts : Table LedgerAccount} {journal : Table JournalEntry}
    {source : LedgerAccount} {amount : ℤ} (hfs : accounts.find source.id = some source)
    (htype : source.type ∈ nonNegativeAccountTypes) (r : PUnit × Ledger) :
    applyLine ⟨source.id, -amount⟩ ⟨accounts, journal⟩ = .ok r ↔
      amount ≤ source.balanceMinor ∧ r.2 = ⟨credit accounts ⟨source.id, -amount⟩, journal⟩ := by
  rw [show r = (r.1, r.2) from rfl, applyLine_ok_iff]
  simp only [hfs, Option.some.injEq, exists_eq_left']
  have hiff : (source.type ∈ nonNegativeAccountTypes → 0 ≤ source.balanceMinor + -amount) ↔
      amount ≤ source.balanceMinor := by
    constructor
    · intro h
      have := h htype
      omega
    · intro h _
      omega
  rw [hiff]

/-- A transfer under a fresh key goes through exactly when its source can pay it. -/
theorem post_transfer_ok_iff {input : PostJournalInput} {l : Ledger} {source target : LedgerAccount}
    {amount : ℤ} (hlines : input.lines = [⟨source.id, -amount⟩, ⟨target.id, amount⟩])
    (hpos : 0 < amount) (hsource : source ∈ l.accounts.rows) (htarget : target ∈ l.accounts.rows)
    (htype : source.type ∈ nonNegativeAccountTypes)
    (hbal : target.type ∈ nonNegativeAccountTypes → 0 ≤ target.balanceMinor)
    (hk : l.entryByKey input.idempotencyKey = none) :
    (∃ r, post input l = .ok r) ↔ amount ≤ source.balanceMinor := by
  have hfs : l.accounts.find source.id = some source := l.accounts.find_id hsource
  have hft : l.accounts.find target.id = some target := l.accounts.find_id htarget
  have hvalid : validateLines input.lines = .ok () := by
    rw [validateLines_ok_iff, hlines]
    refine ⟨le_refl 2, ?_, by simp [lineTotal]⟩
    intro line hline
    simp only [List.mem_cons, List.not_mem_nil, or_false] at hline
    rcases hline with rfl | rfl
    · exact neg_ne_zero.2 hpos.ne'
    · exact hpos.ne'
  have hcreate := (createEntry_ok_iff input l _ _).2 ⟨by simp [hlines, hfs, hft], rfl, rfl⟩
  unfold post
  simp only [bind_ok_iff, check_ok_iff, get_ok_iff]
  constructor
  · rintro ⟨r, ⟨⟩, _, ⟨_, rfl⟩, _, _, ⟨rfl, rfl⟩, hrun⟩
    simp only [hk, bind_ok_iff, hlines, forM_cons_ok_iff] at hrun
    obtain ⟨_, l₁, hcr, _, _, ⟨l₂, hone, _⟩, _⟩ := hrun
    obtain ⟨_, _, rfl⟩ := (createEntry_ok_iff input _ l₁ _).1 hcr
    exact ((applyLine_debit_iff hfs htype _).1 hone).1
  · intro hle
    have hsecond : ∃ l₂ : Ledger, applyLine ⟨target.id, amount⟩ { l with
        accounts := credit l.accounts ⟨source.id, -amount⟩
        journal := l.journal.insert (entryOf input) (id_entryOf input) } = .ok (⟨⟩, l₂) := by
      refine ⟨_, (applyLine_ok_iff _ _ _ _).2 ⟨_, by
        change (credit l.accounts _).find target.id = _
        rw [find_credit, hft, Option.map_some], ?_, rfl⟩⟩
      intro ht
      have htb := hbal ht
      change 0 ≤ target.balanceMinor + (if source.id = target.id then -amount else 0) + amount
      split_ifs <;> omega
    obtain ⟨l₂, hsecond⟩ := hsecond
    refine ⟨(l.journal.fresh, l₂), ⟨⟩, l, ⟨hvalid, rfl⟩, l, l, ⟨rfl, rfl⟩, ?_⟩
    simp only [hk, bind_ok_iff, pure_ok_iff, hlines, forM_cons_ok_iff, forM_nil_ok_iff]
    exact ⟨_, _, hcreate, ⟨⟩, l₂, ⟨_, (applyLine_debit_iff hfs htype _).2 ⟨hle, rfl⟩, l₂, hsecond, rfl⟩,
      rfl, rfl⟩

theorem post_eq_or {input : PostJournalInput} {l l' : Ledger} {id : ℕ}
    (h : post input l = .ok (id, l')) : l' = l ∨ l' = posted l input := by
  obtain ⟨_, ⟨_, _, _, rfl⟩ | ⟨_, _, rfl, _⟩⟩ := post_ok_cases h
  · exact Or.inl rfl
  · exact Or.inr rfl

theorem post_replay {input : PostJournalInput} {l : Ledger} {j : JournalEntry}
    (hv : validateLines input.lines = .ok ()) (hk : l.entryByKey input.idempotencyKey = some j) :
    post input l = .ok (j.id, l) := by
  unfold post
  simp only [bind_ok_iff, check_ok_iff, get_ok_iff]
  refine ⟨⟨⟩, l, ⟨hv, rfl⟩, l, l, ⟨rfl, rfl⟩, ?_⟩
  simp only [hk, pure_ok_iff, and_self]

theorem post_of_nodup {input : PostJournalInput} {l : Ledger}
    (hv : validateLines input.lines = .ok ()) (hk : l.entryByKey input.idempotencyKey = none)
    (hnd : (input.lines.map (·.accountId)).Nodup)
    (hex : ∀ line ∈ input.lines, l.accounts.find line.accountId ≠ none)
    (hcov : Covers l.accounts input.lines) :
    post input l = .ok (l.journal.fresh, posted l input) := by
  unfold post
  simp only [bind_ok_iff, check_ok_iff, get_ok_iff]
  refine ⟨⟨⟩, l, ⟨hv, rfl⟩, l, l, ⟨rfl, rfl⟩, ?_⟩
  simp only [hk, bind_ok_iff, pure_ok_iff]
  exact ⟨_, _, (createEntry_ok_iff input l _ _).2 ⟨hex, rfl, rfl⟩, ⟨⟩, _,
    applyLines_of_nodup input.lines _ hnd hex hcov, rfl, rfl⟩

theorem mem_posted_journal (l : Ledger) (input : PostJournalInput) (j : JournalEntry) :
    j ∈ (posted l input).journal.rows ↔ j ∈ l.journal.rows ∨ j = entryOf input l.journal.fresh :=
  Table.mem_insert _ _ (id_entryOf input) _

theorem mem_journal_of_post {input : PostJournalInput} {l l' : Ledger} {id : ℕ}
    (h : post input l = .ok (id, l')) {j : JournalEntry} (hj : j ∈ l'.journal.rows) :
    j ∈ l.journal.rows ∨ j = entryOf input l.journal.fresh := by
  rcases post_eq_or h with rfl | rfl
  · exact Or.inl hj
  · exact (mem_posted_journal l input j).1 hj

theorem entryByKey_posted (l : Ledger) (input : PostJournalInput) (key : String) :
    (posted l input).entryByKey key =
      (l.entryByKey key).or
        (if input.idempotencyKey = key then some (entryOf input l.journal.fresh) else none) := by
  unfold entryByKey Table.findFirst posted
  rw [Table.rows_insert, List.find?_append, List.find?_singleton]
  by_cases h : input.idempotencyKey = key
  · simp [entryOf, h]
  · simp [entryOf, h]

end Posting

end Ledger
end FootballIQ
