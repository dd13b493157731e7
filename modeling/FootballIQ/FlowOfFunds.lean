import FootballIQ.LedgerInvariant

/-!
# Where money comes from and goes to

Each type of entry takes its money from one account of one type and gives it to
accounts of the types meant for it. Where all entries are routed so, what the accounts of
a type hold is what the entries have brought there less what they have taken.
-/

namespace FootballIQ
namespace Ledger

open Relational

/-- The type of account that the money of an entry comes from. -/
def source : JournalType → Option LedgerAccountType
  | .deposit => some .gatewayClearing
  | .entryFee | .withdrawalHold => some .userAvailable
  | .entryRefund | .prizePayout => some .contestEscrow
  | .withdrawalSettle | .withdrawalReversal => some .userWithdrawalPending
  | .commission | .adjustment => none

/-- The types of account that it may go to. -/
def targets : JournalType → List LedgerAccountType
  | .deposit | .entryRefund | .withdrawalReversal => [.userAvailable]
  | .entryFee => [.contestEscrow]
  | .prizePayout => [.platformRevenue, .userAvailable]
  | .withdrawalHold => [.userWithdrawalPending]
  | .withdrawalSettle => [.external]
  | .commission | .adjustment => []

def typeOf (accounts : Table LedgerAccount) (k : ℕ) : Option LedgerAccountType :=
  (accounts.find k).map LedgerAccount.type

/-- The first line takes money from the source, and the others give to the targets. -/
def Routed (accounts : Table LedgerAccount) (type : JournalType) (lines : List JournalLine) : Prop :=
  ∃ line rest from_, lines = line :: rest ∧ source type = some from_ ∧
    typeOf accounts line.accountId = some from_ ∧ line.amountMinor < 0 ∧
    ∀ l ∈ rest, 0 < l.amountMinor ∧ ∃ to_ ∈ targets type, typeOf accounts l.accountId = some to_

/-- What an entry moves. -/
def moved (lines : List JournalLine) : ℤ := lineTotal lines.tail

/-- What the entries of a type have moved. -/
def turnover (type : JournalType) (js : List JournalEntry) : ℤ :=
  ((js.filter (fun j => j.type = type)).map (fun j => moved j.lines)).sum

/-- What the accounts of a type hold. -/
def held (type : LedgerAccountType) (l : Ledger) : ℤ :=
  ((l.accounts.rows.filter (fun a => a.type = type)).map (·.balanceMinor)).sum

def totalOn (accounts : Table LedgerAccount) (type : LedgerAccountType)
    (lines : List JournalLine) : ℤ :=
  lineTotal (lines.filter (fun line => typeOf accounts line.accountId = some type))

/-- What the accounts of a type have got of the prize payouts. -/
def prizesTo (on : LedgerAccountType) (accounts : Table LedgerAccount) (js : List JournalEntry) : ℤ :=
  ((js.filter (fun j => j.type = .prizePayout)).map (fun j => totalOn accounts on j.lines.tail)).sum

/-- Deposits come from the gateway, payouts go out of it, and all other money stays within
wallets, pending withdrawals, escrows and the revenue of the platform. -/
structure Flows (l : Ledger) : Prop where
  clearing : held .gatewayClearing l = -turnover .deposit l.journal.rows
  escrow : held .contestEscrow l = turnover .entryFee l.journal.rows -
    turnover .entryRefund l.journal.rows - turnover .prizePayout l.journal.rows
  pending : held .userWithdrawalPending l = turnover .withdrawalHold l.journal.rows -
    turnover .withdrawalSettle l.journal.rows - turnover .withdrawalReversal l.journal.rows
  external : held .external l = turnover .withdrawalSettle l.journal.rows
  available : held .userAvailable l = turnover .deposit l.journal.rows +
    turnover .entryRefund l.journal.rows + turnover .withdrawalReversal l.journal.rows +
    prizesTo .userAvailable l.accounts l.journal.rows - turnover .entryFee l.journal.rows -
    turnover .withdrawalHold l.journal.rows
  revenue : held .platformRevenue l = prizesTo .platformRevenue l.accounts l.journal.rows
  prizes : prizesTo .userAvailable l.accounts l.journal.rows +
    prizesTo .platformRevenue l.accounts l.journal.rows = turnover .prizePayout l.journal.rows

section Totals
variable {accounts : Table LedgerAccount} {type : LedgerAccountType}

theorem lineTotal_cons (line : JournalLine) (lines : List JournalLine) :
    lineTotal (line :: lines) = line.amountMinor + lineTotal lines := by
  simp [lineTotal]

@[simp] theorem totalOn_nil : totalOn accounts type [] = 0 := rfl

theorem totalOn_cons (line : JournalLine) (lines : List JournalLine) :
    totalOn accounts type (line :: lines) =
      (if typeOf accounts line.accountId = some type then line.amountMinor else 0) +
        totalOn accounts type lines := by
  unfold totalOn
  by_cases h : typeOf accounts line.accountId = some type
  · rw [List.filter_cons_of_pos (by simpa using h), lineTotal_cons, if_pos h]
  · rw [List.filter_cons_of_neg (by simpa using h), if_neg h, zero_add]

theorem totalOn_append (lines lines' : List JournalLine) :
    totalOn accounts type (lines ++ lines') =
      totalOn accounts type lines + totalOn accounts type lines' := by
  simp [totalOn, lineTotal]

/-- Lines that are all on accounts of one type are its total. -/
theorem totalOn_of_forall {lines : List JournalLine}
    (h : ∀ line ∈ lines, typeOf accounts line.accountId = some type) :
    totalOn accounts type lines = lineTotal lines := by
  unfold totalOn
  rw [List.filter_eq_self.2 (by simpa using h)]

theorem totalOn_of_forall_ne {lines : List JournalLine}
    (h : ∀ line ∈ lines, typeOf accounts line.accountId ≠ some type) :
    totalOn accounts type lines = 0 := by
  unfold totalOn
  rw [List.filter_eq_nil_iff.2 (by simpa using h)]
  rfl

theorem totalOn_add {type' : LedgerAccountType} (hne : type ≠ type') {lines : List JournalLine}
    (h : ∀ line ∈ lines, typeOf accounts line.accountId = some type ∨
      typeOf accounts line.accountId = some type') :
    totalOn accounts type lines + totalOn accounts type' lines = lineTotal lines := by
  induction lines with
  | nil => rfl
  | cons line lines ih =>
    rw [List.forall_mem_cons] at h
    have hrest := ih h.2
    rw [totalOn_cons, totalOn_cons, lineTotal_cons]
    rcases h.1 with h | h
    · have hother : typeOf accounts line.accountId ≠ some type' := by
        rw [h]
        simpa using hne
      rw [if_pos h, if_neg hother]
      omega
    · have hother : typeOf accounts line.accountId ≠ some type := by
        rw [h]
        simpa using hne.symm
      rw [if_neg hother, if_pos h]
      omega

theorem sum_ite_id {rs : List LedgerAccount} (hnd : (rs.map LedgerAccount.id).Nodup) (k : ℕ)
    (x : ℤ) : (rs.map (fun a => if k = a.id then x else 0)).sum =
      if k ∈ rs.map LedgerAccount.id then x else 0 := by
  induction rs with
  | nil => rfl
  | cons a rs ih =>
    rw [List.map_cons, List.nodup_cons] at hnd
    rw [List.map_cons, List.sum_cons, ih hnd.2]
    by_cases hk : k = a.id
    · rw [if_pos hk, if_neg (hk ▸ hnd.1), if_pos (by simp [hk]), add_zero]
    · rw [if_neg hk, zero_add]
      simp [hk]

/-- The accounts of a type. -/
def ofType (type : LedgerAccountType) (accounts : Table LedgerAccount) : List LedgerAccount :=
  accounts.rows.filter (fun a => a.type = type)

theorem nodup_ofType (type : LedgerAccountType) (accounts : Table LedgerAccount) :
    ((ofType type accounts).map LedgerAccount.id).Nodup :=
  (List.filter_sublist.map LedgerAccount.id).nodup accounts.nodup_ids

theorem mem_ids_ofType {type : LedgerAccountType} {accounts : Table LedgerAccount}
    {accountId : ℕ} : accountId ∈ (ofType type accounts).map LedgerAccount.id ↔
      typeOf accounts accountId = some type := by
  rw [List.mem_map, typeOf, Option.map_eq_some_iff]
  constructor
  · rintro ⟨a, ha, hid⟩
    obtain ⟨hrow, htype⟩ := List.mem_filter.1 ha
    exact ⟨a, (Table.find_eq_some_iff _ _ _).2 ⟨hrow, hid⟩, by simpa using htype⟩
  · rintro ⟨a, ha, htype⟩
    obtain ⟨hrow, hid⟩ := (Table.find_eq_some_iff _ _ _).1 ha
    exact ⟨a, List.mem_filter.2 ⟨hrow, by simpa using htype⟩, hid⟩

/-- The lines on the accounts of a type are what the accounts hold. -/
theorem held_eq_totalOn {l : Ledger} (hl : Sound l) (type : LedgerAccountType) :
    held type l = totalOn l.accounts type l.allLines := by
  have hsum : ∀ lines : List JournalLine, ((ofType type l.accounts).map
      (fun a => amountOn a.id lines)).sum = totalOn l.accounts type lines := by
    intro lines
    induction lines with
    | nil => simp
    | cons line lines ih =>
      simp only [amountOn_cons, List.sum_map_add, ih, sum_ite_id (nodup_ofType _ _),
        mem_ids_ofType, totalOn_cons]
  rw [← hsum, held]
  congr 1
  apply List.map_congr_left
  intro a ha
  exact hl.balance_eq a (List.mem_filter.1 ha).1

end Totals

section Entries
variable {accounts : Table LedgerAccount}

theorem sum_filter_cons (type : JournalType) (f : JournalEntry → ℤ) (j : JournalEntry)
    (js : List JournalEntry) : (((j :: js).filter (fun j => j.type = type)).map f).sum =
      (if j.type = type then f j else 0) + ((js.filter (fun j => j.type = type)).map f).sum := by
  by_cases h : j.type = type
  · rw [List.filter_cons_of_pos (by simpa using h), List.map_cons, List.sum_cons, if_pos h]
  · rw [List.filter_cons_of_neg (by simpa using h), if_neg h, zero_add]

theorem turnover_cons (type : JournalType) (j : JournalEntry) (js : List JournalEntry) :
    turnover type (j :: js) = (if j.type = type then moved j.lines else 0) + turnover type js :=
  sum_filter_cons type (fun j => moved j.lines) j js

theorem prizesTo_cons (on : LedgerAccountType) (j : JournalEntry) (js : List JournalEntry) :
    prizesTo on accounts (j :: js) =
      (if j.type = .prizePayout then totalOn accounts on j.lines.tail else 0) +
        prizesTo on accounts js :=
  sum_filter_cons .prizePayout (fun j => totalOn accounts on j.lines.tail) j js

/-- A routed entry changes the source by what it moves, and nothing but source and targets. -/
theorem Routed.totalOn_eq {type : JournalType} {lines : List JournalLine}
    (h : Routed accounts type lines) (hsum : lineTotal lines = 0) (on : LedgerAccountType) :
    totalOn accounts on lines = totalOn accounts on lines.tail -
      if source type = some on then moved lines else 0 := by
  obtain ⟨line, rest, from_, rfl, hsource, hline, _, _⟩ := h
  rw [totalOn_cons, hline, hsource, List.tail_cons, moved, List.tail_cons]
  rw [lineTotal_cons] at hsum
  split_ifs <;> omega

theorem Routed.tail_of_not_mem {type : JournalType} {lines : List JournalLine}
    (h : Routed accounts type lines) {on : LedgerAccountType} (hon : on ∉ targets type) :
    totalOn accounts on lines.tail = 0 := by
  obtain ⟨line, rest, from_, rfl, _, _, _, hrest⟩ := h
  apply totalOn_of_forall_ne
  intro l hl heq
  obtain ⟨_, to_, hto, htype⟩ := hrest l hl
  rw [heq, Option.some.injEq] at htype
  exact hon (htype ▸ hto)

theorem Routed.tail_of_single {type : JournalType} {lines : List JournalLine}
    (h : Routed accounts type lines) {on : LedgerAccountType} (hon : targets type = [on]) :
    totalOn accounts on lines.tail = moved lines := by
  obtain ⟨line, rest, from_, rfl, _, _, _, hrest⟩ := h
  apply totalOn_of_forall
  intro l hl
  obtain ⟨_, to_, hto, htype⟩ := hrest l hl
  rw [hon, List.mem_singleton] at hto
  rw [htype, hto]

theorem Routed.tail_prizes {lines : List JournalLine} (h : Routed accounts .prizePayout lines) :
    totalOn accounts .userAvailable lines.tail + totalOn accounts .platformRevenue lines.tail =
      moved lines := by
  obtain ⟨line, rest, from_, rfl, _, _, _, hrest⟩ := h
  apply totalOn_add (by decide)
  intro l hl
  obtain ⟨_, to_, hto, htype⟩ := hrest l hl
  simp only [targets, List.mem_cons, List.not_mem_nil, or_false] at hto
  rcases hto with rfl | rfl
  · exact Or.inr htype
  · exact Or.inl htype

/-- What an entry changes on the accounts of one type: only the prizes go to two types. -/
theorem Routed.net {type : JournalType} {lines : List JournalLine} (h : Routed accounts type lines)
    (hsum : lineTotal lines = 0) (on : LedgerAccountType) :
    totalOn accounts on lines = (if targets type = [on] then moved lines else 0) +
      (if type = .prizePayout then totalOn accounts on lines.tail else 0) -
        if source type = some on then moved lines else 0 := by
  rw [h.totalOn_eq hsum on]
  by_cases hprize : type = .prizePayout
  · have htargets : targets type ≠ [on] := by
      rw [hprize]
      simp [targets]
    rw [if_neg htargets, if_pos hprize, zero_add]
  · rw [if_neg hprize, add_zero]
    by_cases hon : targets type = [on]
    · rw [h.tail_of_single hon, if_pos hon]
    · have hout : on ∉ targets type := by
        intro hmem
        cases type <;> simp_all [targets]
      rw [h.tail_of_not_mem hout, if_neg hon]

/-- The totals of routed entries, type by type. -/
theorem totalOn_entries {js : List JournalEntry}
    (hrouted : ∀ j ∈ js, Routed accounts j.type j.lines) (hsum : ∀ j ∈ js, lineTotal j.lines = 0) :
    totalOn accounts .gatewayClearing (js.flatMap (·.lines)) = -turnover .deposit js ∧
    totalOn accounts .contestEscrow (js.flatMap (·.lines)) =
      turnover .entryFee js - turnover .entryRefund js - turnover .prizePayout js ∧
    totalOn accounts .userWithdrawalPending (js.flatMap (·.lines)) =
      turnover .withdrawalHold js - turnover .withdrawalSettle js -
        turnover .withdrawalReversal js ∧
    totalOn accounts .external (js.flatMap (·.lines)) = turnover .withdrawalSettle js ∧
    totalOn accounts .userAvailable (js.flatMap (·.lines)) =
      turnover .deposit js + turnover .entryRefund js + turnover .withdrawalReversal js +
        prizesTo .userAvailable accounts js - turnover .entryFee js - turnover .withdrawalHold js ∧
    totalOn accounts .platformRevenue (js.flatMap (·.lines)) =
      prizesTo .platformRevenue accounts js ∧
    prizesTo .userAvailable accounts js + prizesTo .platformRevenue accounts js =
      turnover .prizePayout js := by
  induction js with
  | nil => simp [turnover, prizesTo]
  | cons j js ih =>
    rw [List.forall_mem_cons] at hrouted hsum
    obtain ⟨hclearing, hescrow, hpending, hexternal, havailable, hrevenue, hprizes⟩ :=
      ih hrouted.2 hsum.2
    have hnet := hrouted.1.net hsum.1
    simp only [List.flatMap_cons, totalOn_append, turnover_cons, prizesTo_cons, hnet]
    cases hty : j.type with
    | prizePayout =>
      rw [hty] at hrouted
      have hshares := hrouted.1.tail_prizes
      have hothers : ∀ on, on ∉ targets .prizePayout → totalOn accounts on j.lines.tail = 0 :=
        fun _ hon => hrouted.1.tail_of_not_mem hon
      rw [hothers .gatewayClearing (by decide), hothers .contestEscrow (by decide),
        hothers .userWithdrawalPending (by decide), hothers .external (by decide)]
      simp [targets, source]
      omega
    | _ =>
      simp [targets, source]
      omega

end Entries

section Books
variable {l : Ledger} {accounts accounts' : Table LedgerAccount}

/-- The accounts of contests are escrows. -/
def Escrowed (accounts : Table LedgerAccount) : Prop :=
  ∀ a ∈ accounts.rows, a.contestId ≠ none → a.type = .contestEscrow

/-- Every entry of the journal has gone its way. -/
structure Charted (l : Ledger) : Prop where
  escrows : Escrowed l.accounts
  routed : ∀ j ∈ l.journal.rows, Routed l.accounts j.type j.lines

theorem typeOf_keeps (hk : Table.Keeps LedgerAccount.type accounts accounts') {k : ℕ}
    {type : LedgerAccountType} (h : typeOf accounts k = some type) : typeOf accounts' k = some type := by
  obtain ⟨a, ha, rfl⟩ := Option.map_eq_some_iff.1 h
  obtain ⟨a', ha', htype⟩ := hk.find ha
  exact Option.map_eq_some_iff.2 ⟨a', ha', htype⟩

theorem typeOf_mem {a : LedgerAccount} (ha : a ∈ accounts.rows) :
    typeOf accounts a.id = some a.type := by
  rw [typeOf, show accounts.find a.id = some a from accounts.find_id ha, Option.map_some]

/-- A line that takes and a line that gives are routed. -/
theorem routed_transfer {type : JournalType} {k k' : ℕ} {x : ℤ} {from_ to_ : LedgerAccountType}
    (hsource : source type = some from_) (hto : to_ ∈ targets type)
    (hk : typeOf accounts k = some from_) (hk' : typeOf accounts k' = some to_) (hx : 0 < x) :
    Routed accounts type [⟨k, -x⟩, ⟨k', x⟩] := by
  refine ⟨⟨k, -x⟩, [⟨k', x⟩], from_, rfl, hsource, hk, neg_neg_of_pos hx, ?_⟩
  intro line hline
  rw [List.mem_singleton.1 hline]
  exact ⟨hx, to_, hto, hk'⟩

theorem Routed.keeps {type : JournalType} {lines : List JournalLine} (h : Routed accounts type lines)
    (hk : Table.Keeps LedgerAccount.type accounts accounts') : Routed accounts' type lines := by
  obtain ⟨line, rest, from_, hlines, hsource, hline, htakes, hrest⟩ := h
  refine ⟨line, rest, from_, hlines, hsource, typeOf_keeps hk hline, htakes, ?_⟩
  intro other hother
  obtain ⟨hgives, to_, hto, htype⟩ := hrest other hother
  exact ⟨hgives, to_, hto, typeOf_keeps hk htype⟩

/-- Over sound books the accounts hold what the routed entries have brought them. -/
theorem Charted.flows (h : Charted l) (hl : Sound l) : Flows l := by
  obtain ⟨hclearing, hescrow, hpending, hexternal, havailable, hrevenue, hprizes⟩ :=
    totalOn_entries h.routed (fun j hj => (hl.lines_valid j hj).2.2)
  have hheld := held_eq_totalOn hl
  exact ⟨(hheld _).trans hclearing, (hheld _).trans hescrow, (hheld _).trans hpending,
    (hheld _).trans hexternal, (hheld _).trans havailable, (hheld _).trans hrevenue, hprizes⟩

theorem held_nonneg (h : NonNegative l) {type : LedgerAccountType}
    (htype : type ∈ nonNegativeAccountTypes) : 0 ≤ held type l := by
  apply List.sum_nonneg
  intro x hx
  obtain ⟨a, ha, rfl⟩ := List.mem_map.1 hx
  obtain ⟨hrow, hty⟩ := List.mem_filter.1 ha
  rw [decide_eq_true_iff] at hty
  exact h a hrow (hty ▸ htype)

/-- What was paid out and the revenue of the platform are covered by deposits. -/
def Solvent (l : Ledger) : Prop :=
  turnover .withdrawalSettle l.journal.rows + held .platformRevenue l ≤
    turnover .deposit l.journal.rows

theorem Flows.solvent (h : Flows l) (hn : NonNegative l) : Solvent l := by
  unfold Solvent
  have hwallets : 0 ≤ held .userAvailable l := held_nonneg hn (by decide)
  have hpending : 0 ≤ held .userWithdrawalPending l := held_nonneg hn (by decide)
  have hescrows : 0 ≤ held .contestEscrow l := held_nonneg hn (by decide)
  have := h.available
  have := h.revenue
  have := h.prizes
  have := h.escrow
  have := h.pending
  omega

end Books

end Ledger
end FootballIQ
