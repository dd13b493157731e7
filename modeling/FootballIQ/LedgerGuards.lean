import FootballIQ.Interleaving

/-!
# The ledger guards of the database

Triggers forbid updates and deletes on the journal tables, and a deferred trigger sums
the lines of an entry when a transaction commits that has added lines to it. The sum
sees the rows committed so far and the rows of the transaction itself, so other
transactions may commit between the sum and the commit that follows it.
-/

namespace FootballIQ
namespace LedgerGuards

open Interleaving

/-- A row of `journal_lines`. -/
structure LineRow where
  entryId : ℕ
  accountId : ℕ
  amountMinor : ℤ
  deriving DecidableEq

/-- The ids of `journal_entries` and the rows of `journal_lines`. -/
structure Tables where
  entries : List ℕ
  lines : List LineRow
  deriving DecidableEq

/-- An INSERT, UPDATE or DELETE on one of the tables; `p` is a WHERE clause. -/
inductive Statement where
  | insertEntry (id : ℕ)
  | insertLine (row : LineRow)
  | updateEntries (p : ℕ → Bool)
  | deleteEntries (p : ℕ → Bool)
  | updateLines (p : LineRow → Bool)
  | deleteLines (p : LineRow → Bool)

inductive Command where
  | statement (st : Statement)
  | commit
  | rollback

/-- An open transaction with the rows that it has added, before and after its deferred triggers. -/
inductive Task where
  | working (own : Tables)
  | checked (own : Tables)
  deriving DecidableEq

namespace Tables

instance : Append Tables := ⟨fun t t' => ⟨t.entries ++ t'.entries, t.lines ++ t'.lines⟩⟩

@[simp] theorem entries_append (t t' : Tables) : (t ++ t').entries = t.entries ++ t'.entries := rfl

@[simp] theorem lines_append (t t' : Tables) : (t ++ t').lines = t.lines ++ t'.lines := rfl

def empty : Tables := ⟨[], []⟩

@[simp] theorem append_empty (t : Tables) : t ++ empty = t := by
  cases t
  exact congrArg₂ Tables.mk (List.append_nil _) (List.append_nil _)

theorem append_assoc (t t' t'' : Tables) : t ++ t' ++ t'' = t ++ (t' ++ t'') :=
  congrArg₂ Tables.mk (List.append_assoc _ _ _) (List.append_assoc _ _ _)

/-- The sum of the amounts on the lines of an entry. -/
def sumOf (t : Tables) (entryId : ℕ) : ℤ :=
  ((t.lines.filter (fun row => row.entryId = entryId)).map LineRow.amountMinor).sum

theorem sumOf_append (t t' : Tables) (entryId : ℕ) :
    (t ++ t').sumOf entryId = t.sumOf entryId + t'.sumOf entryId := by
  simp [sumOf]

theorem sumOf_eq_zero {t : Tables} {entryId : ℕ} (h : ∀ row ∈ t.lines, row.entryId ≠ entryId) :
    t.sumOf entryId = 0 := by
  unfold sumOf
  rw [List.filter_eq_nil_iff.2 (by simpa using h)]
  rfl

/-- The lines of every entry sum to zero. -/
def Balanced (t : Tables) : Prop := ∀ entryId, t.sumOf entryId = 0

/-- Rows are only added, behind those that are there. -/
def Extends (t t' : Tables) : Prop := t.entries <+: t'.entries ∧ t.lines <+: t'.lines

theorem Extends.refl (t : Tables) : Extends t t := ⟨List.prefix_refl _, List.prefix_refl _⟩

theorem Extends.trans {t t' t'' : Tables} (h : Extends t t') (h' : Extends t' t'') :
    Extends t t'' := ⟨h.1.trans h'.1, h.2.trans h'.2⟩

theorem extends_append (t t' : Tables) : Extends t (t ++ t') :=
  ⟨List.prefix_append _ _, List.prefix_append _ _⟩

end Tables

section Model

def forbidJournalMutation (op table : String) : Except String Tables :=
  .error s!"ledger is append-only: {op} on {table} is forbidden"

/-- The trigger keeps the sum in a BIGINT. -/
def checkJournalBalance (entryId : ℕ) (visible : Tables) : Except String Unit :=
  if visible.sumOf entryId < -2 ^ 63 ∨ 2 ^ 63 ≤ visible.sumOf entryId then
    .error "bigint out of range"
  else if visible.sumOf entryId ≠ 0 then
    .error s!"journal entry {entryId} is unbalanced (sum = {visible.sumOf entryId})"
  else .ok ()

/-- The rows of the transaction after a statement; a row trigger fires when a row matches. -/
def execute (committed own : Tables) : Statement → Except String Tables
  | .insertEntry id =>
    if id ∈ (committed ++ own).entries then
      .error "duplicate key value violates unique constraint journal_entries_pkey"
    else .ok { own with entries := own.entries ++ [id] }
  | .insertLine row =>
    if row.entryId ∉ (committed ++ own).entries then
      .error "insert on journal_lines violates foreign key constraint journal_lines_entryId_fkey"
    else .ok { own with lines := own.lines ++ [row] }
  | .updateEntries p =>
    if (committed ++ own).entries.any p then forbidJournalMutation "UPDATE" "journal_entries"
    else .ok own
  | .deleteEntries p =>
    if (committed ++ own).entries.any p then forbidJournalMutation "DELETE" "journal_entries"
    else .ok own
  | .updateLines p =>
    if (committed ++ own).lines.any p then forbidJournalMutation "UPDATE" "journal_lines"
    else .ok own
  | .deleteLines p =>
    if (committed ++ own).lines.any p then forbidJournalMutation "DELETE" "journal_lines"
    else .ok own

/-- The deferred trigger, once for each inserted line. -/
def runDeferred (visible : Tables) : List LineRow → Except String Unit
  | [] => .ok ()
  | row :: rows =>
    match checkJournalBalance row.entryId visible with
    | .ok _ => runDeferred visible rows
    | .error e => .error e

/-- An error ends the transaction without effect. A transaction that waits for the key
of another one fails when that one has committed. -/
def step (command : Command) (t : Task) (committed : Tables) : Tables × Option Task :=
  match t with
  | .working own =>
    match command with
    | .statement st =>
      match execute committed own st with
      | .ok own' => (committed, some (.working own'))
      | .error _ => (committed, none)
    | .commit =>
      match runDeferred (committed ++ own) own.lines with
      | .ok _ => (committed, some (.checked own))
      | .error _ => (committed, none)
    | .rollback => (committed, none)
  | .checked own =>
    if ∃ id ∈ own.entries, id ∈ committed.entries then (committed, none)
    else (committed ++ own, none)

/-- Sessions with any statements, in any interleaving. -/
def protocol : Protocol Tables Unit Task Command := ⟨fun _ => .working Tables.empty, step⟩

def executeAll (committed : Tables) : List Statement → Tables → Except String Tables
  | [], own => .ok own
  | st :: sts, own =>
    match execute committed own st with
    | .ok own' => executeAll committed sts own'
    | .error e => .error e

/-- A transaction that runs alone. -/
def transact (sts : List Statement) (committed : Tables) : Except String Tables :=
  match executeAll committed sts Tables.empty with
  | .ok own =>
    match runDeferred (committed ++ own) own.lines with
    | .ok _ => .ok (committed ++ own)
    | .error e => .error e
  | .error e => .error e

end Model

section Guards
variable {committed own visible : Tables}

theorem checkJournalBalance_ok_iff {entryId : ℕ} {u : Unit} :
    checkJournalBalance entryId visible = .ok u ↔ visible.sumOf entryId = 0 := by
  unfold checkJournalBalance
  split_ifs with hrange hzero
  · simp only [false_iff]
    omega
  · simp only [false_iff]
    exact hzero
  · simp only [true_iff]
    exact not_not.1 hzero

theorem runDeferred_ok_iff {rows : List LineRow} {u : Unit} :
    runDeferred visible rows = .ok u ↔ ∀ row ∈ rows, visible.sumOf row.entryId = 0 := by
  induction rows with
  | nil => simp [runDeferred]
  | cons row rows ih =>
    rw [List.forall_mem_cons, ← ih, ← checkJournalBalance_ok_iff (u := ()), runDeferred]
    cases checkJournalBalance row.entryId visible with
    | ok _ => simp
    | error e => simp

/-- Where the committed rows balance, a transaction that passes its triggers has added
nothing to the sum of any entry. -/
theorem balanced_of_runDeferred {u : Unit} (hs : committed.Balanced)
    (h : runDeferred (committed ++ own) own.lines = .ok u) : own.Balanced := by
  intro entryId
  by_cases hadded : ∃ row ∈ own.lines, row.entryId = entryId
  · obtain ⟨row, hrow, rfl⟩ := hadded
    have hsum := runDeferred_ok_iff.1 h row hrow
    rw [Tables.sumOf_append, hs, zero_add] at hsum
    exact hsum
  · exact Tables.sumOf_eq_zero (fun row hrow heq => hadded ⟨row, hrow, heq⟩)

/-- What a transaction that has passed its triggers knows. -/
def Knows (_ : Tables) : Task → Prop
  | .working _ => True
  | .checked own => own.Balanced

theorem step_cases (command : Command) (t : Task) (committed : Tables) :
    ((step command t committed).1 = committed ∨ ∃ own, t = .checked own ∧
      (step command t committed).1 = committed ++ own) := by
  cases t with
  | working own =>
    left
    cases command with
    | statement st =>
      simp only [step]
      split <;> rfl
    | commit =>
      simp only [step]
      split <;> rfl
    | rollback => rfl
  | checked own =>
    simp only [step]
    split_ifs
    · exact Or.inl rfl
    · exact Or.inr ⟨own, rfl, rfl⟩

theorem extends_step (command : Command) (t : Task) (committed : Tables) :
    committed.Extends (step command t committed).1 := by
  obtain h | ⟨own, _, h⟩ := step_cases command t committed
  · rw [h]
    exact Tables.Extends.refl committed
  · rw [h]
    exact Tables.extends_append committed own

theorem balanced_step {command : Command} {t : Task} (hs : committed.Balanced)
    (ht : Knows committed t) : (step command t committed).1.Balanced := by
  obtain h | ⟨own, rfl, h⟩ := step_cases command t committed
  · rwa [h]
  · rw [h]
    intro entryId
    rw [Tables.sumOf_append, hs, ht, zero_add]

theorem knows_step {command : Command} {t t' : Task} (hs : committed.Balanced)
    (h : (step command t committed).2 = some t') : Knows (step command t committed).1 t' := by
  cases t with
  | working own =>
    cases command with
    | statement st =>
      simp only [step] at h ⊢
      split at h
      · cases h
        trivial
      · cases h
    | commit =>
      simp only [step] at h ⊢
      split at h
      · rename_i u hok
        cases h
        exact balanced_of_runDeferred hs hok
      · cases h
    | rollback => cases h
  | checked own =>
    simp only [step] at h
    split_ifs at h

theorem balanced_inductive : protocol.Inductive (fun _ _ _ => True) Tables.Balanced Knows where
  init _ _ _ := trivial
  shared _ _ _ hs ht _ := balanced_step hs ht
  cont _ _ _ _ hs _ _ h := knows_step hs h
  stable _ _ _ u _ _ _ hu := by
    cases u with
    | working own => trivial
    | checked own => exact hu

end Guards

section Runs

/-- Whatever statements any sessions send, and however their transactions interleave,
the committed journal only grows and each of its entries is balanced. -/
theorem balanced_and_appendOnly {t : Tables} (h : t.Balanced) (as bs : List (Act Unit Command)) :
    (protocol.run ⟨t, []⟩ as).shared.Balanced ∧
      (protocol.run ⟨t, []⟩ as).shared.Extends (protocol.run ⟨t, []⟩ (as ++ bs)).shared := by
  constructor
  · have hstart : Protocol.Holds Tables.Balanced Knows (⟨t, []⟩ : Config Tables Task) :=
      ⟨h, by simp⟩
    exact (balanced_inductive.run hstart (protocol.along_of_forall (fun _ _ _ => trivial) _ as)).1
  · rw [Protocol.run_append]
    apply Protocol.Along.run_rel protocol Tables.Extends.refl
      (fun _ _ _ hx hy => Tables.Extends.trans hx hy)
    exact protocol.along_of_forall extends_step _ bs

/-- Two sessions add a line each to the entry that is there; the two lines would balance. -/
def splitRefund : List (Act Unit Command) :=
  [.start (), .start (), .resume 0 (.statement (.insertLine ⟨1, 0, -5⟩)),
    .resume 1 (.statement (.insertLine ⟨1, 1, 5⟩)), .resume 0 .commit, .resume 0 .commit]

/-- One session adds a balanced entry, while two others try to rewrite the one that is there. -/
def rewrites : List (Act Unit Command) :=
  [.start (), .resume 0 (.statement (.insertEntry 2)),
    .resume 0 (.statement (.insertLine ⟨2, 0, -40⟩)), .start (),
    .resume 1 (.statement (.updateLines (fun row => row.entryId = 1))),
    .resume 0 (.statement (.insertLine ⟨2, 1, 40⟩)), .start (),
    .resume 1 (.statement (.deleteEntries (fun id => id = 1))), .resume 0 .commit,
    .resume 0 .commit]

/-- An entry of 100. -/
def oneEntry : Tables := ⟨[1], [⟨1, 0, -100⟩, ⟨1, 1, 100⟩]⟩

theorem balanced_and_appendOnly_rewrites :
    (protocol.run ⟨oneEntry, []⟩ rewrites).shared.Balanced ∧
      (protocol.run ⟨oneEntry, []⟩ rewrites).shared.Extends
        (protocol.run ⟨oneEntry, []⟩ (rewrites ++ splitRefund)).shared := by
  have hopening : oneEntry.Balanced := by
    intro entryId
    by_cases h : 1 = entryId
    · simp [oneEntry, Tables.sumOf, h]
    · simp [oneEntry, Tables.sumOf, h]
  exact balanced_and_appendOnly hopening rewrites splitRefund

example : (protocol.run ⟨oneEntry, []⟩ (rewrites ++ splitRefund)).shared =
    ⟨[1, 2], [⟨1, 0, -100⟩, ⟨1, 1, 100⟩, ⟨2, 0, -40⟩, ⟨2, 1, 40⟩]⟩ := by decide

end Runs

section Alone
variable {committed : Tables}

/-- The keys that a transaction adds are new. -/
theorem executeAll_fresh {sts : List Statement} {own own' : Tables}
    (h : executeAll committed sts own = .ok own') (hown : ∀ id ∈ own.entries, id ∉ committed.entries) :
    ∀ id ∈ own'.entries, id ∉ committed.entries := by
  induction sts generalizing own with
  | nil =>
    cases h
    exact hown
  | cons st sts ih =>
    rw [executeAll] at h
    split at h
    · rename_i own₁ hone
      apply ih h
      cases st with
      | insertEntry id =>
        simp only [execute, Tables.entries_append, List.mem_append] at hone
        split_ifs at hone with hmem
        cases hone
        intro k hk
        rcases List.mem_append.1 hk with hk | hk
        · exact hown k hk
        · rw [List.mem_singleton.1 hk]
          exact fun hin => hmem (Or.inl hin)
      | _ =>
        simp only [execute, forbidJournalMutation] at hone
        split_ifs at hone
        cases hone
        exact hown
    · cases h

theorem run_executeAll (sts : List Statement) (own : Tables) :
    protocol.run ⟨committed, [.working own]⟩ (sts.map (fun st => .resume 0 (.statement st))) =
      ⟨committed, match executeAll committed sts own with
        | .ok own' => [.working own']
        | .error _ => []⟩ := by
  induction sts generalizing own with
  | nil => rfl
  | cons st sts ih =>
    rw [List.map_cons, Protocol.run_cons, executeAll]
    cases h : execute committed own st with
    | ok own' =>
      rw [← ih own']
      simp [Protocol.next, protocol, step, h]
    | error e =>
      have hnone : protocol.next ⟨committed, [.working own]⟩ (.resume 0 (.statement st)) =
          ⟨committed, []⟩ := by
        simp [Protocol.next, protocol, step, h]
      rw [hnone]
      clear ih hnone h
      induction sts with
      | nil => rfl
      | cons st' sts ih => exact ih

/-- A transaction that runs alone amounts to `transact`. -/
theorem run_transact (sts : List Statement) (committed : Tables) :
    protocol.run ⟨committed, []⟩ (.start () :: (sts.map (fun st => .resume 0 (.statement st)) ++
      [.resume 0 .commit, .resume 0 .commit])) =
      ⟨match transact sts committed with
        | .ok t => t
        | .error _ => committed, []⟩ := by
  have hstart : protocol.next ⟨committed, []⟩ (.start ()) =
      ⟨committed, [.working Tables.empty]⟩ := rfl
  rw [Protocol.run_cons, hstart, Protocol.run_append, run_executeAll, transact]
  cases h : executeAll committed sts Tables.empty with
  | error e => rfl
  | ok own =>
    have hfresh : ¬ ∃ id ∈ own.entries, id ∈ committed.entries := by
      rintro ⟨id, hid, hmem⟩
      exact executeAll_fresh h (by simp [Tables.empty]) id hid hmem
    cases hd : runDeferred (committed ++ own) own.lines with
    | ok _ => simp [Protocol.run, Protocol.next, protocol, step, hd, hfresh]
    | error e => simp [Protocol.run, Protocol.next, protocol, step, hd]

end Alone

end LedgerGuards
end FootballIQ
