import FootballIQ.Limbo

/-!
# Final statuses of withdrawals

Webhooks settle withdrawals beside the calls that submit them. A paid or failed
status stays as long as no write that ignores the status comes after it: the
APPROVED and PROCESSING updates never look at the row again, and of two
settlements under way the later one overwrites the earlier.
-/

namespace FootballIQ
namespace PayoutFinality

open Transaction Relational Interleaving WalletAccounts Withdrawals HoldAccounting Limbo
open Payouts (TransferEvent)
open PayoutRace (World Tick)

section Model

inductive Call where
  | decision (call : PayoutRace.Call)
  | webhook (event : TransferEvent) (reference : ℕ)
  deriving DecidableEq

/-- A call in flight; a webhook ends in the tasks of a payout. -/
inductive Task where
  | payout (task : PayoutRace.Task)
  | webhook (event : TransferEvent) (reference : ℕ)
  deriving DecidableEq

def init : Call → Task
  | .decision call => .payout (.ready call)
  | .webhook event reference => .webhook event reference

/-- What `settle` does with the withdrawal that it has read. -/
def afterRead (event : TransferEvent) (w : Withdrawal) : PayoutRace.Task :=
  match event with
  | .success => .settleTx w
  | .failed | .reversed => .reverseRead w.id .failed event.name none

def step (inp : Tick) (t : Task) (s : World) : World × Option Task :=
  match t with
  | .payout task =>
    ((PayoutRace.step inp task s).1, (PayoutRace.step inp task s).2.map .payout)
  | .webhook event reference =>
    (s, (settleRead reference s.db).map (fun w => .payout (afterRead event w)))

def protocol : Protocol World Call Task Tick := ⟨init, step⟩

end Model

section Property

def final : List WithdrawalStatus := [.paid, .failed]

/-- Withdrawals that are paid or failed stay so. -/
def KeepsFinal (db db' : Db) : Prop :=
  ∀ k w, db.withdrawals.find k = some w → w.status ∈ final →
    ∃ w', db'.withdrawals.find k = some w' ∧ w'.status = w.status

/-- The hold of the withdrawal can be paid out: it has been, or the pending account covers it. -/
def Settleable (db : Db) (w : Withdrawal) : Prop :=
  ofSystem db.ledger.accounts .external ≠ none ∧
    (db.ledger.entryByKey (settleKey w.id) ≠ none ∨
      w.amountMinor ≤ pendingBalance db.ledger.accounts w.userId)

/-- The APPROVED and PROCESSING updates find a withdrawal that is not final; a
settlement that can be booked does not find it failed, a reversal that can be
booked finds it failed only to fail it again, and never paid. -/
def FreshWrite (_inp : Tick) (t : Task) (s : World) : Prop :=
  match t with
  | .payout (.approveUpdate _ k _) | .payout (.payoutUpdate k _) =>
    ∀ w, s.db.withdrawals.find k = some w → w.status ∉ final
  | .payout (.settleTx snap) => Settleable s.db snap →
    ∀ w, s.db.withdrawals.find snap.id = some w → w.status ≠ .failed
  | .payout (.reverseTx snap status _ _) => Returnable s.db snap →
    ∀ w, s.db.withdrawals.find snap.id = some w → w.status ≠ .paid ∧
      (w.status = .failed → status = .failed)
  | _ => True

theorem KeepsFinal.refl (db : Db) : KeepsFinal db db := fun _ w hw _ => ⟨w, hw, rfl⟩

theorem KeepsFinal.trans {db db' db'' : Db} (h : KeepsFinal db db') (h' : KeepsFinal db' db'') :
    KeepsFinal db db'' := by
  intro k w hw hs
  obtain ⟨w', hw', hs'⟩ := h k w hw hs
  obtain ⟨w'', hw'', hs''⟩ := h' k w' hw' (hs' ▸ hs)
  exact ⟨w'', hw'', hs''.trans hs'⟩

theorem KeepsFinal.of_eq {db db' : Db} (h : db'.withdrawals = db.withdrawals) :
    KeepsFinal db db' := fun _ w hw _ => ⟨w, h ▸ hw, rfl⟩

/-- Writing one status over one row keeps what is final exactly when the row is not,
or has that status already. -/
theorem keepsFinal_update_iff {db db' : Db} {k : ℕ} {f : Withdrawal → Withdrawal}
    (status : WithdrawalStatus) (hf : ∀ w, Row.id (f w) = Row.id w)
    (hstatus : ∀ w, (f w).status = status)
    (hdb : db'.withdrawals = db.withdrawals.update k f hf) :
    KeepsFinal db db' ↔
      ∀ w, db.withdrawals.find k = some w → w.status ∈ final → w.status = status := by
  constructor
  · intro h w hw hs
    obtain ⟨w', hw', hs'⟩ := h k w hw hs
    rw [hdb, Table.find_update_self _ _ hf hw] at hw'
    cases hw'
    rw [← hs', hstatus]
  · intro h j w hw hs
    refine ⟨if j = k then f w else w, ?_, ?_⟩
    · rw [hdb, Table.find_update, hw, Option.map_some]
    · split_ifs with hj
      · rw [hstatus, h w (hj ▸ hw) hs]
      · rfl

end Property

section Settling
variable {db : Db}

/-- A system account is not a user's pending account. -/
theorem ofSystem_getOrCreatePendingAccount {userId : ℕ} {db' : Db} {pending : LedgerAccount}
    (h : getOrCreatePendingAccount userId db = .ok (pending, db')) (type : LedgerAccountType) :
    ofSystem db'.ledger.accounts type = ofSystem db.ledger.accounts type := by
  obtain ⟨_, rfl⟩ | ⟨_, _, rfl⟩ := (getOrCreatePendingAccount_ok_iff userId db db' pending).1 h
  · rfl
  · unfold ofSystem
    rw [Table.findFirst_insert _ _ (id_pendingAccount userId)]
    rintro ⟨_, huser, _⟩
    cases huser

/-- A settlement commits exactly when its hold can be paid out. -/
theorem settleTx_commits_iff (now : DateTime) {w : Withdrawal} (hpos : 0 < w.amountMinor)
    (hrow : db.withdrawals.find w.id ≠ none) :
    (∃ r, settleTx now w db = .ok r) ↔ Settleable db w := by
  obtain ⟨pending, db₁, hacc⟩ := getOrCreatePendingAccount_commits w.userId db
  have hsystem := ofSystem_getOrCreatePendingAccount hacc .external
  obtain ⟨accounts, rfl, hpending, hsame, _⟩ := getOrCreatePendingAccount_spec hacc
  have hpost : (∃ r, settleTx now w db = .ok r) ↔ ∃ external,
      ofSystem db.ledger.accounts .external = some external ∧
      ∃ r, Ledger.post (settleInput w pending external)
        { db.ledger with accounts := accounts } = .ok r := by
    rw [← hsystem]
    simp only [settleTx, bind_ok_iff, system_ok_iff, Db.post_ok_iff, Db.updateWithdrawal_ok_iff,
      Db.notify_ok_iff, Db.emit_ok_iff]
    constructor
    · rintro ⟨_, pending', _, hacc', external, _, ⟨hext, rfl⟩, id, _, ⟨l, hl, _⟩, _⟩
      cases hacc.symm.trans hacc'
      exact ⟨external, hext, (id, l), hl⟩
    · rintro ⟨external, hext, ⟨id, l⟩, hl⟩
      exact ⟨(⟨⟩, _), pending, _, hacc, external, _, ⟨hext, rfl⟩, id, _, ⟨l, hl, rfl⟩, ⟨⟩, _,
        ⟨hrow, rfl⟩, ⟨⟩, _, rfl, rfl⟩
  rw [hpost, Settleable]
  cases hext : ofSystem db.ledger.accounts .external with
  | none => simp
  | some external =>
    obtain ⟨hmem, htype, _⟩ := ofSystem_some (hsystem.trans hext)
    simp only [Option.some.injEq, exists_eq_left', ne_eq, reduceCtorEq, not_false_eq_true, true_and]
    exact release_ok_iff hpos hpending (hsame w.userId) hmem
      (fun ht => absurd (htype ▸ ht) (by decide)) rfl

theorem commit_updateWithdrawal (k : ℕ) (f : Withdrawal → Withdrawal)
    (hf : ∀ w, Row.id (f w) = Row.id w) (db : Db) :
    commit (Db.updateWithdrawal k f hf) db =
      { db with withdrawals := db.withdrawals.update k f hf } := by
  rcases commit_cases (Db.updateWithdrawal k f hf) db with ⟨u, db', hok, hc⟩ | ⟨e, herr, hc⟩
  · rw [hc]
    exact ((Db.updateWithdrawal_ok_iff _ _ _ _ _).1 hok).2.symm
  · have hnone : db.withdrawals.find k = none := by
      by_contra hrow
      cases herr.symm.trans ((Db.updateWithdrawal_ok_iff db k f hf (⟨⟩, _)).2 ⟨hrow, rfl⟩)
    rw [hc, Table.update_of_none _ _ hf hnone]

end Settling

/-- Covered accounts, and a positive amount and a wallet behind every withdrawal. -/
structure Stocked (db : Db) : Prop where
  nonNegative : Ledger.NonNegative db.ledger
  amounts : ∀ w ∈ db.withdrawals.rows, 0 < w.amountMinor
  wallets : ∀ w ∈ db.withdrawals.rows,
    ofUser db.ledger.accounts w.userId .userAvailable "NGN" ≠ none

/-- What is known of a withdrawal that was read from the table. -/
structure Backed (db : Db) (w : Withdrawal) : Prop where
  row : db.withdrawals.find w.id ≠ none
  amount : 0 < w.amountMinor
  wallet : ofUser db.ledger.accounts w.userId .userAvailable "NGN" ≠ none

/-- What a pending task knows of the withdrawal that it carries. -/
def Known (s : World) (t : Task) : Prop :=
  match t with
  | .payout (.settleTx w) | .payout (.reverseTx w _ _ _) => Backed s.db w
  | _ => True

def identity (w : Withdrawal) : ℕ × ℕ × ℤ := (w.id, w.userId, w.amountMinor)

/-- What every step keeps. -/
structure Tidy (db db' : Db) : Prop where
  nonNegative : Ledger.NonNegative db.ledger → Ledger.NonNegative db'.ledger
  wallets : ∀ u, ofUser db.ledger.accounts u .userAvailable "NGN" ≠ none →
    ofUser db'.ledger.accounts u .userAvailable "NGN" ≠ none
  rows : Table.Same identity db.withdrawals db'.withdrawals

section Tidying
variable {db db' : Db}

theorem Tidy.refl (db : Db) : Tidy db db := ⟨id, fun _ h => h, Table.Same.refl _ _⟩

theorem Tidy.stocked (h : Tidy db db') (hdb : Stocked db) : Stocked db' := by
  have hrow : ∀ w' ∈ db'.withdrawals.rows, ∃ w ∈ db.withdrawals.rows,
      w.userId = w'.userId ∧ w.amountMinor = w'.amountMinor := by
    intro w' hw'
    obtain ⟨w, hw, hid⟩ := h.rows.mem hw'
    simp only [identity, Prod.mk.injEq] at hid
    exact ⟨w, hw, hid.2⟩
  refine ⟨h.nonNegative hdb.nonNegative, ?_, ?_⟩
  · intro w' hw'
    obtain ⟨w, hw, _, hamount⟩ := hrow w' hw'
    rw [← hamount]
    exact hdb.amounts w hw
  · intro w' hw'
    obtain ⟨w, hw, huser, _⟩ := hrow w' hw'
    rw [← huser]
    exact h.wallets w.userId (hdb.wallets w hw)

theorem Tidy.backed (h : Tidy db db') {w : Withdrawal} (hw : Backed db w) : Backed db' w := by
  refine ⟨fun hnone => hw.row ?_, hw.amount, h.wallets w.userId hw.wallet⟩
  have hsame := h.rows.find (fun r r' heq => congrArg Prod.fst heq) w.id
  rw [hnone, Option.map_none, eq_comm, Option.map_eq_none_iff] at hsame
  exact hsame

theorem Stocked.backed (h : Stocked db) {k : ℕ} {w : Withdrawal}
    (hw : db.withdrawals.find k = some w) : Backed db w := by
  obtain ⟨hmem, rfl⟩ := (Table.find_eq_some_iff _ _ _).1 hw
  refine ⟨?_, h.amounts w hmem, h.wallets w hmem⟩
  change db.withdrawals.find w.id = some w at hw
  rw [hw]
  rintro ⟨⟩

theorem tidy_update (k : ℕ) {f : Withdrawal → Withdrawal} (hf : ∀ w, Row.id (f w) = Row.id w)
    (hsame : ∀ w, identity (f w) = identity w) : Within Tidy (Db.updateWithdrawal k f hf) := by
  intro db u db' h
  obtain ⟨_, rfl⟩ := (Db.updateWithdrawal_ok_iff _ _ _ _ _).1 h
  exact ⟨id, fun _ hu => hu, Table.same_update hf (fun w _ _ => hsame w)⟩

theorem tidy_record (a : AuditRecord) : Within Tidy (Db.record a) := by
  intro db u db' h
  obtain rfl := (Db.record_ok_iff _ _ _).1 h
  exact ⟨id, fun _ hu => hu, Table.Same.refl _ _⟩

theorem thenDo_db {α : Type} (x : Tx Failure Db α) (s : World) (next : α → Option PayoutRace.Task) :
    (PayoutRace.thenDo x s next).1.db = commit x s.db := by
  unfold PayoutRace.thenDo commit
  cases x s.db with
  | ok r => rfl
  | error e => rfl

/-- A reflexive relation that every transaction of a payout stays within is kept by its step. -/
theorem payout_within {R : Db → Db → Prop} {task : PayoutRace.Task} (hrefl : ∀ db, R db db)
    (happrove : ∀ adminId k, Within R (approveUpdate adminId k))
    (hprocess : ∀ k result, Within R (payoutUpdate k result))
    (hrecord : ∀ a, Within R (Db.record a))
    (hsettle : ∀ now w, task = .settleTx w → Within R (settleTx now w))
    (hreverse : ∀ now w status reason auditor, task = .reverseTx w status reason auditor →
      Within R (reverseTx now w status reason))
    (inp : Tick) (s : World) : R s.db (PayoutRace.step inp task s).1.db := by
  have hthen : ∀ {α : Type} {x : Tx Failure Db α} (_ : Within R x)
      (next : α → Option PayoutRace.Task), R s.db (PayoutRace.thenDo x s next).1.db := by
    intro α x hx next
    rw [thenDo_db]
    exact hx.commit hrefl s.db
  cases task with
  | ready call =>
    cases call with
    | approve adminId k =>
      apply hthen
      intro db before db' h
      obtain ⟨_, _, _, _, ⟨_, rfl⟩⟩ := (approveRead_ok_iff adminId k db (before, db')).1 h
      exact hrefl db
    | reject adminId k reason =>
      apply hthen
      intro db u db' h
      obtain ⟨_, _, _, ⟨_, rfl⟩⟩ := (PayoutRace.rejectRead_ok_iff k db (u, db')).1 h
      exact hrefl db
  | approveUpdate adminId k before => exact hthen (happrove adminId k) _
  | approveAudit adminId k before => exact hthen (hrecord _) _
  | payoutRead k =>
    apply hthen
    intro db input db' h
    obtain ⟨_, rfl⟩ := payoutRead_ok h
    exact hrefl db'
  | payoutCall input => exact hrefl s.db
  | payoutUpdate k result => exact hthen (hprocess k result) _
  | settleRead k => exact hrefl s.db
  | settleTx w => exact hthen (hsettle inp.now w rfl) _
  | reverseRead k status reason auditor => exact hrefl s.db
  | reverseTx w status reason auditor => exact hthen (hreverse inp.now w status reason auditor rfl) _
  | rejectAudit adminId k reason => exact hthen (hrecord _) _

theorem tidy_reverseTx (now : DateTime) (w : Withdrawal) (status : ReversalStatus)
    (reason : String) : Within Tidy (reverseTx now w status reason) := by
  intro db u db' hok
  obtain ⟨hn, hwallets, hdb⟩ := reverseTx_effect hok
  refine ⟨hn, hwallets, ?_⟩
  rw [hdb]
  exact Table.same_update (id_returned now status reason) (fun _ _ _ => rfl)

theorem tidy_settleTx (now : DateTime) (w : Withdrawal) : Within Tidy (settleTx now w) := by
  intro db u db' hok
  obtain ⟨hn, hwallets, hdb⟩ := settleTx_effect hok
  refine ⟨hn, hwallets, ?_⟩
  rw [hdb]
  exact Table.same_update (id_paid now) (fun _ _ _ => rfl)

/-- Every step of a payout keeps the tables tidy. -/
theorem tidy_payout (inp : Tick) (task : PayoutRace.Task) (s : World) :
    Tidy s.db (PayoutRace.step inp task s).1.db :=
  payout_within Tidy.refl (fun adminId k => tidy_update k (id_approved adminId) (fun _ => rfl))
    (fun k result => tidy_update k (id_processing result) (fun _ => rfl)) tidy_record
    (fun now w _ => tidy_settleTx now w) (fun now w status reason _ _ => tidy_reverseTx now w status reason)
    inp s

theorem tidy_step (inp : Tick) (t : Task) (s : World) : Tidy s.db (step inp t s).1.db := by
  cases t with
  | payout task => exact tidy_payout inp task s
  | webhook event reference => exact Tidy.refl s.db

end Tidying

section Invariant

/-- The withdrawal that a pending task carries is a row of the table. -/
def Fetched (db : Db) (t : Task) : Prop :=
  match t with
  | .payout (.settleTx w) | .payout (.reverseTx w _ _ _) => db.withdrawals.find w.id = some w
  | _ => True

theorem fetched_of_find {db : Db} {k : ℕ} {w : Withdrawal} (h : db.withdrawals.find k = some w) :
    db.withdrawals.find w.id = some w :=
  db.withdrawals.find_id ((Table.find_eq_some_iff _ _ _).1 h).1

/-- The continuation of a payout step carries a row that the step has read. -/
theorem fetched_payout {inp : Tick} {task task' : PayoutRace.Task} {s : World}
    (h : (PayoutRace.step inp task s).2 = some task') : Fetched s.db (.payout task') := by
  have hthen : ∀ {α : Type} (x : Tx Failure Db α) (next : α → Option PayoutRace.Task),
      (PayoutRace.thenDo x s next).2 = some task' → ∃ a, next a = some task' := by
    intro α x next hnext
    unfold PayoutRace.thenDo at hnext
    cases hx : x s.db with
    | ok r =>
      rw [hx] at hnext
      exact ⟨r.1, hnext⟩
    | error e =>
      rw [hx] at hnext
      cases hnext
  cases task with
  | ready call =>
    cases call with
    | approve adminId k =>
      obtain ⟨_, ⟨⟩⟩ := hthen _ _ h
      trivial
    | reject adminId k reason =>
      obtain ⟨_, ⟨⟩⟩ := hthen _ _ h
      trivial
  | approveUpdate adminId k before | approveAudit adminId k before | payoutRead k =>
    obtain ⟨_, heq⟩ := hthen _ _ h
    cases heq
    trivial
  | payoutCall input =>
    cases h
    unfold PayoutRace.afterAnswer
    split_ifs <;> trivial
  | payoutUpdate k result =>
    obtain ⟨_, heq⟩ := hthen _ _ h
    split_ifs at heq
    cases heq
    trivial
  | settleRead k =>
    obtain ⟨w, hw, rfl⟩ := Option.map_eq_some_iff.1 h
    exact fetched_of_find (Option.filter_eq_some_iff.1 hw).1
  | settleTx w =>
    obtain ⟨_, heq⟩ := hthen _ _ h
    cases heq
  | reverseRead k status reason auditor =>
    obtain ⟨w, hw, rfl⟩ := Option.map_eq_some_iff.1 h
    exact fetched_of_find hw
  | reverseTx w status reason auditor =>
    obtain ⟨_, heq⟩ := hthen _ _ h
    obtain ⟨_, _, rfl⟩ := Option.map_eq_some_iff.1 heq
    trivial
  | rejectAudit adminId k reason =>
    obtain ⟨_, heq⟩ := hthen _ _ h
    cases heq

theorem fetched_step {inp : Tick} {t t' : Task} {s : World} (h : (step inp t s).2 = some t') :
    Fetched s.db t' := by
  cases t with
  | payout task =>
    obtain ⟨task', htask, rfl⟩ := Option.map_eq_some_iff.1 h
    exact fetched_payout htask
  | webhook event reference =>
    obtain ⟨w, hw, rfl⟩ := Option.map_eq_some_iff.1 h
    cases event with
    | success => exact fetched_of_find (Option.filter_eq_some_iff.1 hw).1
    | failed | reversed => trivial

theorem Known.tidy {s s' : World} {t : Task} (h : Known s t) (htidy : Tidy s.db s'.db) :
    Known s' t := by
  cases t with
  | webhook event reference => trivial
  | payout task =>
    cases task with
    | settleTx w | reverseTx w status reason auditor => exact htidy.backed h
    | _ => trivial

theorem Stocked.known {s : World} (hs : Stocked s.db) {t : Task} (h : Fetched s.db t) :
    Known s t := by
  cases t with
  | webhook event reference => trivial
  | payout task =>
    cases task with
    | settleTx w | reverseTx w status reason auditor => exact hs.backed h
    | _ => trivial

theorem stocked_inductive :
    protocol.Inductive (fun _ _ _ => True) (fun s => Stocked s.db) Known where
  init s call _ := by
    cases call <;> trivial
  shared inp t s hs _ _ := (tidy_step inp t s).stocked hs
  cont inp t s _ hs _ _ h := (hs.known (fetched_step h)).tidy (tidy_step inp t s)
  stable inp t s _ _ _ _ hu := hu.tidy (tidy_step inp t s)

end Invariant

section Steps
variable {s : World}

/-- A write of one status is a step of the relation unless it overwrites a final one. -/
theorem update_keepsFinal_iff {f : Withdrawal → Withdrawal} {status : WithdrawalStatus} (k : ℕ)
    (hf : ∀ w, Row.id (f w) = Row.id w) (hstatus : ∀ w, (f w).status = status)
    (hopen : status ∉ final) (next : PUnit → Option PayoutRace.Task) :
    KeepsFinal s.db (PayoutRace.thenDo (Db.updateWithdrawal k f hf) s next).1.db ↔
      ∀ w, s.db.withdrawals.find k = some w → w.status ∉ final := by
  rw [thenDo_db, commit_updateWithdrawal, keepsFinal_update_iff status hf hstatus rfl]
  constructor
  · intro h w hw hs
    exact hopen (h w hw hs ▸ hs)
  · intro h w hw hs
    exact absurd hs (h w hw)

theorem settleTx_keepsFinal_iff (now : DateTime) {w : Withdrawal} (hw : Backed s.db w)
    (next : PUnit → Option PayoutRace.Task) :
    KeepsFinal s.db (PayoutRace.thenDo (settleTx now w) s next).1.db ↔
      (Settleable s.db w → ∀ x, s.db.withdrawals.find w.id = some x → x.status ≠ .failed) := by
  have hcommits := settleTx_commits_iff now hw.amount hw.row
  rw [thenDo_db]
  rcases commit_cases (settleTx now w) s.db with ⟨u, db', hok, hc⟩ | ⟨e, herr, hc⟩
  · obtain ⟨_, _, hdb⟩ := settleTx_effect hok
    rw [hc, keepsFinal_update_iff .paid (id_paid now) (fun _ => rfl) hdb,
      forall_prop_of_true (hcommits.1 ⟨_, hok⟩)]
    refine forall₂_congr (fun x _ => ?_)
    cases x.status <;> decide
  · rw [hc]
    refine iff_of_true (KeepsFinal.refl s.db) (fun hset => ?_)
    obtain ⟨r, hr⟩ := hcommits.2 hset
    cases herr.symm.trans hr

theorem reverseTx_keepsFinal_iff (hs : Stocked s.db) (now : DateTime) {w : Withdrawal}
    (hw : Backed s.db w) (status : ReversalStatus) (reason : String)
    (next : PUnit → Option PayoutRace.Task) :
    KeepsFinal s.db (PayoutRace.thenDo (reverseTx now w status reason) s next).1.db ↔
      (Returnable s.db w → ∀ x, s.db.withdrawals.find w.id = some x → x.status ≠ .paid ∧
        (x.status = .failed → status = .failed)) := by
  have hcommits := reverseTx_commits_iff now status reason hs.nonNegative hw.amount hw.wallet hw.row
  rw [thenDo_db]
  rcases commit_cases (reverseTx now w status reason) s.db with ⟨u, db', hok, hc⟩ | ⟨e, herr, hc⟩
  · obtain ⟨_, _, hdb⟩ := reverseTx_effect hok
    rw [hc, keepsFinal_update_iff status.toStatus (id_returned now status reason)
      (fun _ => rfl) hdb, forall_prop_of_true (hcommits.1 ⟨_, hok⟩)]
    refine forall₂_congr (fun x _ => ?_)
    cases x.status <;> cases status <;> decide
  · rw [hc]
    refine iff_of_true (KeepsFinal.refl s.db) (fun hret => ?_)
    obtain ⟨r, hr⟩ := hcommits.2 hret
    cases herr.symm.trans hr

/-- A step keeps what is final exactly when its write is fresh. -/
theorem step_keepsFinal_iff (inp : Tick) {t : Task} (hs : Stocked s.db) (ht : Known s t) :
    KeepsFinal s.db (step inp t s).1.db ↔ FreshWrite inp t s := by
  have haside : ∀ {db' : Db}, db'.withdrawals = s.db.withdrawals → (KeepsFinal s.db db' ↔ True) :=
    fun h => iff_of_true (KeepsFinal.of_eq h) trivial
  have hread : ∀ {α : Type} (x : Tx Failure Db α) (next : α → Option PayoutRace.Task),
      (∀ db a db', x db = .ok (a, db') → db'.withdrawals = db.withdrawals) →
      (KeepsFinal s.db (PayoutRace.thenDo x s next).1.db ↔ True) := by
    intro α x next hx
    apply haside
    rw [thenDo_db]
    rcases commit_cases x s.db with ⟨a, db', hok, hc⟩ | ⟨e, _, hc⟩
    · rw [hc]
      exact hx s.db a db' hok
    · rw [hc]
  cases t with
  | webhook event reference => exact haside rfl
  | payout task =>
    cases task with
    | ready call =>
      cases call with
      | approve adminId k =>
        apply hread
        intro db before db' h
        obtain ⟨_, _, _, _, ⟨_, rfl⟩⟩ := (approveRead_ok_iff adminId k db (before, db')).1 h
        rfl
      | reject adminId k reason =>
        apply hread
        intro db u db' h
        obtain ⟨_, _, _, ⟨_, rfl⟩⟩ := (PayoutRace.rejectRead_ok_iff k db (u, db')).1 h
        rfl
    | approveUpdate adminId k before =>
      exact update_keepsFinal_iff k (id_approved adminId) (fun _ => rfl) (by decide) _
    | payoutUpdate k result =>
      exact update_keepsFinal_iff k (id_processing result) (fun _ => rfl) (by decide) _
    | settleTx w => exact settleTx_keepsFinal_iff inp.now ht _
    | reverseTx w status reason auditor =>
      exact reverseTx_keepsFinal_iff hs inp.now ht status reason _
    | payoutRead k =>
      apply hread
      intro db input db' h
      obtain ⟨_, rfl⟩ := payoutRead_ok h
      rfl
    | approveAudit adminId k before | rejectAudit adminId k reason =>
      apply hread
      intro db u db' h
      obtain rfl := (Db.record_ok_iff _ _ _).1 h
      rfl
    | payoutCall input | settleRead k | reverseRead k status reason auditor => exact haside rfl

end Steps

/-- Every earlier final status of a run is the status in every later state exactly
when every write of the run is fresh. -/
theorem final_iff {s : World} (hs : Stocked s.db) (as : List (Act Call Tick)) :
    (∀ bs cs ds, as = bs ++ cs ++ ds → KeepsFinal (protocol.run ⟨s, []⟩ bs).shared.db
      (protocol.run ⟨s, []⟩ (bs ++ cs)).shared.db) ↔ protocol.Along FreshWrite ⟨s, []⟩ as := by
  have hrel := protocol.along_iff_earlier_later (R := fun s s' => KeepsFinal s.db s'.db)
    (fun s => KeepsFinal.refl s.db) (fun _ _ _ => KeepsFinal.trans) ⟨s, []⟩ as
  rw [← hrel]
  exact stocked_inductive.along_congr (fun inp t s hs ht => step_keepsFinal_iff inp hs ht)
    ⟨hs, by simp⟩ as

section Races
open PayoutRace (heldWorld processingTick approval)

/-- The held withdrawal, with the account that settlements go to. -/
def payableWorld : World :=
  { heldWorld with db := { heldWorld.db with ledger := { heldWorld.db.ledger with
      accounts := ⟨[⟨1, .userAvailable, some 7, none, "NGN", 0⟩,
        ⟨2, .userWithdrawalPending, some 7, none, "NGN", 50⟩,
        ⟨3, .external, none, none, "NGN", 0⟩], by decide⟩ } } }

/-- The approval is over when the confirmation comes. -/
def confirmedAfter : List (Act Call Tick) :=
  [.start (.decision (.approve 100 1)), .resume 0 processingTick, .resume 0 processingTick,
    .resume 0 processingTick, .resume 0 processingTick, .resume 0 processingTick,
    .resume 0 processingTick, .start (.webhook .success 1), .resume 0 processingTick,
    .resume 0 processingTick]

theorem payableWorld_stocked : Stocked payableWorld.db := by
  refine ⟨?_, by decide, by decide⟩
  unfold Ledger.NonNegative
  decide

theorem final_iff_confirmedAfter :
    (∀ bs cs ds, confirmedAfter = bs ++ cs ++ ds →
      KeepsFinal (protocol.run ⟨payableWorld, []⟩ bs).shared.db
        (protocol.run ⟨payableWorld, []⟩ (bs ++ cs)).shared.db) ↔
      protocol.Along FreshWrite ⟨payableWorld, []⟩ confirmedAfter :=
  final_iff payableWorld_stocked confirmedAfter

/-- The gateway has accepted the transfer, and its confirmation is settled before the
approval goes on. -/
def confirmedBefore : List (Act Call Tick) :=
  [.start (.decision (.approve 100 1)), .resume 0 processingTick, .resume 0 processingTick,
    .resume 0 processingTick, .resume 0 processingTick, .resume 0 processingTick,
    .start (.webhook .success 1), .resume 1 processingTick, .resume 1 processingTick]

/-- The PROCESSING update then takes a paid withdrawal back. -/
theorem paid_back_to_processing : ¬ ∀ bs cs ds,
    confirmedBefore ++ [.resume 0 processingTick] = bs ++ cs ++ ds →
      KeepsFinal (protocol.run ⟨payableWorld, []⟩ bs).shared.db
        (protocol.run ⟨payableWorld, []⟩ (bs ++ cs)).shared.db := by
  intro h
  have hstep := h confirmedBefore [.resume 0 processingTick] [] rfl
  have hpaid : ((protocol.run ⟨payableWorld, []⟩ confirmedBefore).shared.db.withdrawals.find 1).map
      (·.status) = some .paid := by decide +kernel
  have hback : ((protocol.run ⟨payableWorld, []⟩ (confirmedBefore ++
      [.resume 0 processingTick])).shared.db.withdrawals.find 1).map (·.status) =
      some .processing := by decide +kernel
  obtain ⟨w, hw, hs⟩ := Option.map_eq_some_iff.1 hpaid
  obtain ⟨w', hw', hs'⟩ := hstep 1 w hw (by rw [hs]; decide)
  rw [hw', Option.map_some, hs', hs] at hback
  cases hback

end Races

end PayoutFinality
end FootballIQ
