import FootballIQ.Lifecycle

/-!
# Cancellation is all or nothing

One call of `cancel` with nothing in between: the loop takes a fee for each active entry out
of the escrow and the last check wants it empty, so that the call goes through exactly if the
escrow holds a fee for each of them. Then everyone has the fee back; otherwise nothing stays.
-/

namespace FootballIQ
namespace Cancellation

open Transaction Relational Interleaving WalletAccounts Contests Platform Lifecycle

/-- The whole call: the read and then the transaction. -/
def cancel (now : DateTime) (contestId : ℕ) (reason : String) : Tx Failure Db PUnit := do
  let snap ← cancelRead contestId
  cancelTx now snap reason

def walletBalance (accounts : Table LedgerAccount) (userId : ℕ) (currency : String) : ℤ :=
  ((ofUser accounts userId .userAvailable currency).map (·.balanceMinor)).getD 0

/-- What the contest's escrow holds; nothing where there is none. -/
def escrowBalance (accounts : Table LedgerAccount) (contestId : ℕ) : ℤ :=
  ((ofContest accounts contestId).map (·.balanceMinor)).getD 0

section Turn
variable {snap : CancelSnapshot} {reason : String} {db : Db} {e : Entry}
  {escrow wallet a : LedgerAccount}

theorem amountOn_refund (k : ℕ) (hk : k ≠ escrow.id) :
    Ledger.amountOn k (refundInput snap.contest reason e escrow wallet).lines =
      if wallet.id = k then snap.contest.entryFeeMinor else 0 := by
  simp [refundInput, hk.symm]

/-- A first refund moves one fee from the escrow to its user. -/
theorem walletBalance_posted (ha : db.ledger.accounts.find escrow.id = some a)
    (htype : a.type = .contestEscrow)
    (hw : ofUser db.ledger.accounts e.userId .userAvailable snap.contest.currency = some wallet)
    (u : ℕ) : walletBalance (Ledger.posted db.ledger
        (refundInput snap.contest reason e escrow wallet)).accounts u snap.contest.currency =
      walletBalance db.ledger.accounts u snap.contest.currency +
        if u = e.userId then snap.contest.entryFeeMinor else 0 := by
  obtain ⟨hmem, hid⟩ := (db.ledger.accounts.find_eq_some_iff escrow.id a).1 ha
  refine Ledger.balance_transfer hw hmem (by rw [htype]; decide) (fun k hk => ?_) u
  exact amountOn_refund k (by rwa [← show a.id = escrow.id from hid])

/-- A turn on an unused key posts the refund and nothing else. -/
theorem refundEntry_first (hesc : snap.escrow = some escrow)
    (hk : db.ledger.entryByKey (refundKey e.id) = none) {r : PUnit × Db}
    (h : refundEntry snap reason e db = .ok r) : ∃ wallet,
      ofUser db.ledger.accounts e.userId .userAvailable snap.contest.currency = some wallet ∧
      db.entries.find e.id ≠ none ∧ r.2 = refunded db
        (Ledger.posted db.ledger (refundInput snap.contest reason e escrow wallet)) snap reason e := by
  obtain ⟨wallet, escrow', id, l, hw, hesc', hpost, hex, hr⟩ := (refundEntry_ok_iff e db r).1 h
  obtain rfl : escrow' = escrow := Option.some.inj (hesc'.symm.trans hesc)
  obtain ⟨_, ⟨j, hj, _⟩ | ⟨_, _, rfl, _⟩⟩ := Ledger.post_ok_cases hpost
  · cases hk.symm.trans hj
  · exact ⟨wallet, hw, hex, hr⟩

theorem unused_posted {x : Entry} (hne : x.id ≠ e.id)
    (hk : db.ledger.entryByKey (refundKey x.id) = none) :
    (Ledger.posted db.ledger (refundInput snap.contest reason e escrow wallet)).entryByKey
      (refundKey x.id) = none := by
  have hkey : (refundInput snap.contest reason e escrow wallet).idempotencyKey ≠ refundKey x.id :=
    fun heq => hne (Ledger.key_inj heq).symm
  rw [Ledger.entryByKey_posted, hk, if_neg hkey]
  rfl

end Turn

section Loop
variable {snap : CancelSnapshot} {reason : String} {escrow : LedgerAccount}

/-- What the refunds of the entries `es` have made of `db`. -/
structure Refunds (snap : CancelSnapshot) (reason : String) (escrow : LedgerAccount)
    (es : List Entry) (db db' : Db) : Prop where
  wallets : ∀ u, walletBalance db'.ledger.accounts u snap.contest.currency =
    walletBalance db.ledger.accounts u snap.contest.currency +
      snap.contest.entryFeeMinor * (es.map (·.userId)).count u
  escrow : ∀ a, db.ledger.accounts.find escrow.id = some a → db'.ledger.accounts.find escrow.id =
    some { a with balanceMinor := a.balanceMinor - snap.contest.entryFeeMinor * es.length }
  owners : Table.Same Ledger.owner db.ledger.accounts db'.ledger.accounts
  journal : ∃ js, db'.ledger.journal.rows = db.ledger.journal.rows ++ js ∧
    js.map (·.idempotencyKey) = es.map (fun e => refundKey e.id) ∧ ∀ j ∈ js, j.type = .entryRefund
  entries : ∀ k, db'.entries.find k = (db.entries.find k).map
    (fun x => if k ∈ es.map (·.id) then { x with status := .refunded } else x)
  notifications : db'.notifications = db.notifications ++ es.map (refundNotice snap.contest reason)
  contests : db'.contests = db.contests
  outbox : db'.outbox = db.outbox

theorem Refunds.nil (db : Db) : Refunds snap reason escrow [] db db where
  wallets u := by simp
  escrow a ha := by simp [ha]
  owners := Table.Same.refl _ _
  journal := ⟨[], by simp, rfl, by simp⟩
  entries k := by simp
  notifications := by simp
  contests := rfl
  outbox := rfl

theorem Refunds.cons {e : Entry} {es : List Entry} {db db' : Db} {wallet a : LedgerAccount}
    (ha : db.ledger.accounts.find escrow.id = some a) (htype : a.type = .contestEscrow)
    (hw : ofUser db.ledger.accounts e.userId .userAvailable snap.contest.currency = some wallet)
    (h : Refunds snap reason escrow es (refunded db (Ledger.posted db.ledger
      (refundInput snap.contest reason e escrow wallet)) snap reason e) db') :
    Refunds snap reason escrow (e :: es) db db' where
  wallets u := by
    rw [h.wallets u]
    change walletBalance (Ledger.posted _ _).accounts _ _ + _ = _
    rw [walletBalance_posted ha htype hw, List.map_cons, List.count_cons]
    by_cases hu : u = e.userId
    · rw [if_pos hu, hu]
      simp
      ring
    · rw [if_neg hu]
      simp [Ne.symm hu]
  escrow a' ha' := by
    obtain rfl : a' = a := Option.some.inj (ha'.symm.trans ha)
    rw [h.escrow _ (find_escrow_posted ha htype hw)]
    simp only [List.length_cons, Nat.cast_add, Nat.cast_one, Option.some.injEq]
    ring_nf
  owners := Table.Same.trans (Ledger.same_creditAll _ _) h.owners
  journal := by
    obtain ⟨js, hjs, hkeys, htypes⟩ := h.journal
    refine ⟨Ledger.entryOf (refundInput snap.contest reason e escrow wallet)
      db.ledger.journal.fresh :: js, ?_, ?_, ?_⟩
    · rw [hjs]
      change (db.ledger.journal.rows ++ [_]) ++ js = _
      rw [List.append_assoc]
      rfl
    · rw [List.map_cons, hkeys]
      rfl
    · intro j hj
      rcases List.mem_cons.1 hj with rfl | hj
      · rfl
      · exact htypes j hj
  entries k := by
    rw [h.entries k, refunded, Table.find_update, Option.map_map]
    congr 1
    funext x
    by_cases hk : k = e.id
    · by_cases hin : k ∈ es.map (·.id) <;> simp [hk]
    · simp [hk]
  notifications := by
    rw [h.notifications, refunded, List.map_cons]
    simp
  contests := h.contests
  outbox := h.outbox

/-- A loop over unused keys that goes through has refunded every entry. -/
theorem refunds_of_loop (hesc : snap.escrow = some escrow) (es : List Entry)
    (hids : (es.map (·.id)).Nodup) {db : Db} {a : LedgerAccount}
    (ha : db.ledger.accounts.find escrow.id = some a) (htype : a.type = .contestEscrow)
    (hunused : ∀ e ∈ es, db.ledger.entryByKey (refundKey e.id) = none) {r : PUnit × Db}
    (h : (forM es (refundEntry snap reason) : Tx Failure Db PUnit) db = .ok r) :
    Refunds snap reason escrow es db r.2 := by
  induction es generalizing db a with
  | nil =>
    rw [forM_nil_ok_iff] at h
    exact h ▸ Refunds.nil db
  | cons e es ih =>
    rw [List.map_cons, List.nodup_cons] at hids
    obtain ⟨db₁, hone, hrest⟩ := (forM_cons_ok_iff _ _ _ _ _).1 h
    obtain ⟨wallet, hw, _, hdb₁⟩ := refundEntry_first hesc (hunused e List.mem_cons_self) hone
    obtain rfl : db₁ = _ := hdb₁
    refine Refunds.cons ha htype hw (ih hids.2 (find_escrow_posted ha htype hw) htype ?_ hrest)
    intro x hx
    have hne : x.id ≠ e.id := fun heq => hids.1 (List.mem_map.2 ⟨x, hx, heq⟩)
    exact unused_posted hne (hunused x (List.mem_cons_of_mem _ hx))

/-- Over an escrow that holds a fee for each of them the refunds go through. -/
theorem loop_succeeds (hesc : snap.escrow = some escrow) (es : List Entry)
    (hids : (es.map (·.id)).Nodup) {db : Db} {a : LedgerAccount}
    (ha : db.ledger.accounts.find escrow.id = some a) (htype : a.type = .contestEscrow)
    (hunused : ∀ e ∈ es, db.ledger.entryByKey (refundKey e.id) = none)
    (hpresent : ∀ e ∈ es, Present db snap e)
    (hsolvent : ∀ e ∈ es, 0 ≤ walletBalance db.ledger.accounts e.userId snap.contest.currency)
    (hpays : snap.contest.entryFeeMinor * es.length ≤ a.balanceMinor) :
    ∃ r, (forM es (refundEntry snap reason) : Tx Failure Db PUnit) db = .ok r := by
  induction es generalizing db a with
  | nil => exact ⟨(⟨⟩, db), (forM_nil_ok_iff _ _ _).2 rfl⟩
  | cons e es ih =>
    rw [List.map_cons, List.nodup_cons] at hids
    have hfee := snap.contest.fee_pos
    obtain ⟨hex, hwallet⟩ := hpresent e List.mem_cons_self
    obtain ⟨wallet, hw⟩ := Option.ne_none_iff_exists'.1 hwallet
    have hbal : 0 ≤ wallet.balanceMinor := by
      have hle := hsolvent e List.mem_cons_self
      rwa [walletBalance, hw] at hle
    have hk := hunused e List.mem_cons_self
    rw [List.length_cons, Nat.cast_succ, mul_add, mul_one] at hpays
    have hrest : 0 ≤ snap.contest.entryFeeMinor * (es.length : ℤ) :=
      mul_nonneg hfee.le (Nat.cast_nonneg _)
    have hposts : (∃ r, Ledger.post (refundInput snap.contest reason e escrow wallet) db.ledger =
        .ok r) ↔ _ := refund_posts_iff ha htype (fun _ => hbal) hw hk
    obtain ⟨⟨id, l⟩, hpost⟩ := hposts.2 (by omega)
    have hone : refundEntry snap reason e db = .ok (⟨⟩, refunded db l snap reason e) :=
      (refundEntry_ok_iff e db _).2 ⟨wallet, escrow, id, l, hw, hesc, hpost, hex, rfl⟩
    obtain ⟨wallet', hw', _, hdb⟩ := refundEntry_first hesc hk hone
    obtain rfl : wallet' = wallet := Option.some.inj (hw'.symm.trans hw)
    have hl : l = Ledger.posted db.ledger (refundInput snap.contest reason e escrow wallet') :=
      congrArg Db.ledger hdb
    rw [hl] at hone
    have hsolvent' : ∀ x ∈ es, 0 ≤ walletBalance (Ledger.posted db.ledger
        (refundInput snap.contest reason e escrow wallet')).accounts x.userId
          snap.contest.currency := by
      intro x hx
      have hle := hsolvent x (List.mem_cons_of_mem _ hx)
      rw [walletBalance_posted ha htype hw]
      split_ifs <;> omega
    have hunused' : ∀ x ∈ es, (Ledger.posted db.ledger
        (refundInput snap.contest reason e escrow wallet')).entryByKey (refundKey x.id) = none := by
      intro x hx
      have hne : x.id ≠ e.id := fun heq => hids.1 (List.mem_map.2 ⟨x, hx, heq⟩)
      exact unused_posted hne (hunused x (List.mem_cons_of_mem _ hx))
    have hpays' : snap.contest.entryFeeMinor * (es.length : ℤ) ≤
        a.balanceMinor - snap.contest.entryFeeMinor := by omega
    have hpresent' : ∀ x ∈ es, Present (refunded db (Ledger.posted db.ledger
        (refundInput snap.contest reason e escrow wallet')) snap reason e) snap x := by
      intro x hx
      exact (present_refunded (Ledger.same_creditAll _ _) x).2
        (hpresent x (List.mem_cons_of_mem _ hx))
    obtain ⟨r, hr⟩ := @ih hids.2 _
      { a with balanceMinor := a.balanceMinor - snap.contest.entryFeeMinor }
      (find_escrow_posted ha htype hw) htype hunused' hpresent' hsolvent' hpays'
    exact ⟨r, (forM_cons_ok_iff _ _ _ _ _).2 ⟨_, hone, hr⟩⟩

end Loop

section Call

/-- A contest that may be cancelled: its active entries are of distinct users with wallets, and
none of them was refunded before. Wallets are covered and an escrow is one, as the ledger
keeps them; what the escrow holds is left open. -/
structure Refundees (c : Contest) (db : Db) : Prop where
  found : findContest db c.id = some c
  ngn : c.currency = "NGN"
  status : c.status ∈ cancellable
  users : ((activeEntries db c.id).map (·.userId)).Nodup
  wallets : ∀ e ∈ activeEntries db c.id, ∃ a,
    ofUser db.ledger.accounts e.userId .userAvailable "NGN" = some a ∧ 0 ≤ a.balanceMinor
  unused : ∀ e ∈ activeEntries db c.id, db.ledger.entryByKey (refundKey e.id) = none
  escrow_type : ∀ a, ofContest db.ledger.accounts c.id = some a → a.type = .contestEscrow

/-- What a committed cancellation has done. -/
structure Cancelled (now : DateTime) (reason : String) (c : Contest) (db db' : Db) : Prop where
  wallets : ∀ e ∈ activeEntries db c.id, walletBalance db'.ledger.accounts e.userId "NGN" =
    walletBalance db.ledger.accounts e.userId "NGN" + c.entryFeeMinor
  journals : ∀ e ∈ activeEntries db c.id, db'.ledger.journal.count
    (fun j => j.type = .entryRefund ∧ j.idempotencyKey = refundKey e.id) = 1
  entries : ∀ e ∈ activeEntries db c.id,
    db'.entries.find e.id = some { e with status := .refunded }
  escrow : escrowBalance db'.ledger.accounts c.id = 0
  contest : db'.contests.find c.id =
    some { c with status := .cancelled, cancelledAt := some now }
  outbox : db'.outbox = db.outbox ++ [.contestCancelled c.id reason]

variable {db : Db} {c : Contest} {now : DateTime} {reason : String}

/-- What the read of the call returns. -/
def snapOf (db : Db) (c : Contest) : CancelSnapshot :=
  ⟨c, activeEntries db c.id, ofContest db.ledger.accounts c.id⟩

theorem Refundees.cancel_ok_iff (h : Refundees c db) (r : PUnit × Db) :
    cancel now c.id reason db = .ok r ↔ cancelTx now (snapOf db c) reason db = .ok r := by
  have hread : cancelRead c.id db = .ok (snapOf db c, db) := by
    simp only [cancelRead, bind_ok_iff, get_ok_iff, orThrow_ok_iff, throwIf_ok_iff, pure_ok_iff]
    exact ⟨db, db, ⟨rfl, rfl⟩, c, db, ⟨h.found, rfl⟩, ⟨⟩, db, ⟨not_not.2 h.status, rfl⟩, rfl, rfl⟩
  rw [cancel, bind_of_ok hread]

theorem Refundees.present (h : Refundees c db) : ∀ e ∈ activeEntries db c.id,
    Present db (snapOf db c) e ∧ 0 ≤ walletBalance db.ledger.accounts e.userId c.currency := by
  intro e he
  obtain ⟨a, ha, hbal⟩ := h.wallets e he
  rw [← h.ngn] at ha
  refine ⟨⟨?_, ?_⟩, ?_⟩
  · rw [find_of_active he]
    exact Option.some_ne_none e
  · rw [show (snapOf db c).contest.currency = c.currency from rfl, ha]
    exact Option.some_ne_none a
  · rwa [walletBalance, ha]

/-- Unused before and posted once for each entry, the key of a refund is there once. -/
theorem count_refund {es : List Entry} (hids : (es.map (·.id)).Nodup) {t t' : Table JournalEntry}
    {js : List JournalEntry} (hrows : t'.rows = t.rows ++ js)
    (hkeys : js.map (·.idempotencyKey) = es.map (fun e => refundKey e.id))
    (htypes : ∀ j ∈ js, j.type = .entryRefund) {e : Entry} (he : e ∈ es)
    (hunused : t.findFirst (fun j => j.idempotencyKey = refundKey e.id) = none) :
    t'.count (fun j => j.type = .entryRefund ∧ j.idempotencyKey = refundKey e.id) = 1 := by
  have hbefore : t.rows.filter
      (fun j => j.type = .entryRefund ∧ j.idempotencyKey = refundKey e.id) = [] := by
    rw [List.filter_eq_nil_iff]
    intro j hj hboth
    have hnone := List.find?_eq_none.1 hunused j hj
    exact hnone (decide_eq_true (of_decide_eq_true hboth).2)
  have hnew : js.filter (fun j => j.type = .entryRefund ∧ j.idempotencyKey = refundKey e.id) =
      js.filter (fun j => j.idempotencyKey = refundKey e.id) := by
    apply List.filter_congr
    intro j hj
    simp [htypes j hj]
  have hnodup : (es.map (fun e => refundKey e.id)).Nodup := by
    have hmap := hids.map (f := refundKey) (fun _ _ heq => Ledger.key_inj heq)
    rwa [List.map_map] at hmap
  have hcount : (js.map (·.idempotencyKey)).count (refundKey e.id) = 1 := by
    rw [hkeys]
    exact List.count_eq_one_of_mem hnodup (List.mem_map_of_mem he)
  rw [List.count_eq_countP, List.countP_map, List.countP_eq_length_filter] at hcount
  rw [Table.count, Table.findMany, hrows, List.filter_append, hbefore, hnew, List.nil_append]
  exact hcount

/-- The escrow of the contest is found by its owner or by its id. -/
theorem escrowBalance_of_same {accounts accounts' : Table LedgerAccount} {escrow a : LedgerAccount}
    (hesc : ofContest accounts c.id = some escrow)
    (hsame : Table.Same Ledger.owner accounts accounts')
    (ha : accounts'.find escrow.id = some a) : escrowBalance accounts' c.id = a.balanceMinor := by
  obtain ⟨b, hb, _, hfind⟩ := Ledger.ofContest_of_same hsame hesc
  rw [ha, Option.some.injEq] at hfind
  rw [escrowBalance, hb, hfind]
  rfl

/-- The refunds of the active entries, an empty escrow and the marked contest are what the
call is for. -/
theorem Refundees.cancelled (h : Refundees c db) {db₁ : Db} {escrow : LedgerAccount}
    (hrefunds : Refunds (snapOf db c) reason escrow (activeEntries db c.id) db db₁)
    (hzero : escrowBalance db₁.ledger.accounts c.id = 0) :
    Cancelled now reason c db { db₁ with
      contests := db₁.contests.update c.id
        (fun c => { c with status := .cancelled, cancelledAt := some now }) (fun _ => rfl)
      outbox := db₁.outbox ++ [.contestCancelled c.id reason] } where
  wallets e he := by
    have hone : ((activeEntries db c.id).map (·.userId)).count e.userId = 1 :=
      List.count_eq_one_of_mem h.users (List.mem_map_of_mem he)
    have hwallet := hrefunds.wallets e.userId
    rw [hone, Nat.cast_one, mul_one] at hwallet
    rw [← h.ngn]
    exact hwallet
  journals e he := by
    obtain ⟨js, hjs, hkeys, htypes⟩ := hrefunds.journal
    exact count_refund (ids_activeEntries db c.id) hjs hkeys htypes he (h.unused e he)
  entries e he := by
    rw [hrefunds.entries, find_of_active he, Option.map_some, if_pos (List.mem_map_of_mem he)]
  escrow := hzero
  contest := by
    have hfind := (findContest_some h.found).1
    rw [← hrefunds.contests] at hfind
    exact Table.find_update_self db₁.contests
      (fun c => { c with status := .cancelled, cancelledAt := some now }) (fun _ => rfl) hfind
  outbox := by rw [hrefunds.outbox]

/-- A committed call found a fee for each active entry in the escrow, and gave it back. -/
theorem Refundees.of_ok (h : Refundees c db) {r : PUnit × Db}
    (hok : cancelTx now (snapOf db c) reason db = .ok r) :
    escrowBalance db.ledger.accounts c.id = c.entryFeeMinor * (activeEntries db c.id).length ∧
      Cancelled now reason c db r.2 := by
  obtain ⟨db₁, hloop, hempty, hr⟩ := cancelTx_ok hok
  rw [hr]
  cases hesc : ofContest db.ledger.accounts c.id with
  | none =>
    have hnone : activeEntries db c.id = [] := by
      cases hes : activeEntries db c.id with
      | nil => rfl
      | cons e es =>
        rw [show (snapOf db c).entries = e :: es from hes, forM_cons_ok_iff] at hloop
        obtain ⟨_, hone, _⟩ := hloop
        obtain ⟨_, escrow, _, _, _, hsome, _⟩ := (refundEntry_ok_iff e db _).1 hone
        rw [show (snapOf db c).escrow = none from hesc] at hsome
        cases hsome
    rw [show (snapOf db c).entries = [] from hnone, forM_nil_ok_iff] at hloop
    obtain rfl : db = db₁ := hloop
    have hzero : escrowBalance db.ledger.accounts c.id = 0 := by rw [escrowBalance, hesc]; rfl
    have hrefunds : Refunds (snapOf db c) reason ⟨0, .contestEscrow, none, none, "", 0⟩
        (activeEntries db c.id) db db := by
      rw [hnone]
      exact Refunds.nil db
    refine ⟨?_, h.cancelled hrefunds hzero⟩
    rw [hzero, hnone, List.length_nil, Nat.cast_zero, mul_zero]
  | some escrow =>
    have hfind := db.ledger.accounts.find_id (ofContest_some hesc).1
    have hrefunds := refunds_of_loop hesc (activeEntries db c.id) (ids_activeEntries db c.id) hfind
      (h.escrow_type escrow hesc) h.unused hloop
    obtain ⟨a, ha, hbal⟩ := hempty escrow hesc
    have hleft := hrefunds.escrow escrow hfind
    refine ⟨?_, h.cancelled hrefunds ?_⟩
    · rw [ha, Option.some.injEq] at hleft
      have hsub := congrArg LedgerAccount.balanceMinor hleft
      rw [hbal] at hsub
      rw [escrowBalance, hesc]
      exact (sub_eq_zero.1 hsub.symm)
    · rw [escrowBalance_of_same hesc hrefunds.owners ha, hbal]

/-- A fee for each active entry in the escrow is enough. -/
theorem Refundees.ok_of_balance (h : Refundees c db)
    (hbal : escrowBalance db.ledger.accounts c.id =
      c.entryFeeMinor * (activeEntries db c.id).length) :
    ∃ r, cancelTx now (snapOf db c) reason db = .ok r := by
  have hcontest := (findContest_some h.found).1
  simp only [cancelTx, bind_ok_iff, Db.updateContest_ok_iff, Db.emit_ok_iff]
  cases hesc : ofContest db.ledger.accounts c.id with
  | none =>
    have hnone : activeEntries db c.id = [] := by
      rw [escrowBalance, hesc, Option.map_none, Option.getD_none, eq_comm, mul_eq_zero,
        Nat.cast_eq_zero, List.length_eq_zero_iff] at hbal
      exact hbal.resolve_left c.fee_pos.ne'
    have hloop : (forM (snapOf db c).entries (refundEntry (snapOf db c) reason) :
        Tx Failure Db PUnit) db = .ok (⟨⟩, db) := by
      rw [show (snapOf db c).entries = [] from hnone, forM_nil_ok_iff]
    rw [show (snapOf db c).escrow = none from hesc, Option.toList_none]
    exact ⟨(⟨⟩, _), ⟨⟩, db, hloop, ⟨⟩, db, (forM_nil_ok_iff _ _ _).2 rfl, ⟨⟩, _,
      ⟨by rw [show (snapOf db c).contest.id = c.id from rfl, hcontest]; exact Option.some_ne_none c,
        rfl⟩, rfl⟩
  | some escrow =>
    have hfind := db.ledger.accounts.find_id (ofContest_some hesc).1
    have htype := h.escrow_type escrow hesc
    rw [escrowBalance, hesc, Option.map_some, Option.getD_some] at hbal
    obtain ⟨r, hloop⟩ : ∃ r, (forM (snapOf db c).entries (refundEntry (snapOf db c) reason) :
        Tx Failure Db PUnit) db = .ok r :=
      loop_succeeds hesc (activeEntries db c.id) (ids_activeEntries db c.id) hfind htype h.unused
        (fun e he => (h.present e he).1) (fun e he => (h.present e he).2) hbal.ge
    have hrefunds := refunds_of_loop hesc (activeEntries db c.id) (ids_activeEntries db c.id) hfind
      htype h.unused hloop
    have hleft := hrefunds.escrow escrow hfind
    have hzero : ∃ a, r.2.ledger.accounts.find escrow.id = some a ∧ a.balanceMinor = 0 := by
      refine ⟨_, hleft, ?_⟩
      rw [hbal]
      exact sub_self _
    have hempty := (assertEscrowEmpty_ok_iff "cancel" c.id escrow.id r.2 (⟨⟩, r.2)).2 ⟨hzero, rfl⟩
    rw [show (snapOf db c).escrow = some escrow from hesc, Option.toList_some]
    refine ⟨(⟨⟩, _), r.1, r.2, hloop, ⟨⟩, r.2, ?_, ⟨⟩, _, ⟨?_, rfl⟩, rfl⟩
    · rw [forM_cons_ok_iff]
      exact ⟨r.2, hempty, (forM_nil_ok_iff _ _ _).2 rfl⟩
    · rw [hrefunds.contests, show (snapOf db c).contest.id = c.id from rfl, hcontest]
      exact Option.some_ne_none c

/-- A cancellation run alone commits exactly if the escrow holds a fee for each active entry.
Committed it has refunded every one of them, otherwise it has thrown and left everything. -/
theorem cancel_all_or_nothing (now : DateTime) (reason : String) (h : Refundees c db) :
    ((∃ r, cancel now c.id reason db = .ok r) ↔
      escrowBalance db.ledger.accounts c.id = c.entryFeeMinor * (activeEntries db c.id).length) ∧
    (∀ r, cancel now c.id reason db = .ok r →
      commit (cancel now c.id reason) db = r.2 ∧ Cancelled now reason c db r.2) ∧
    (escrowBalance db.ledger.accounts c.id ≠ c.entryFeeMinor * (activeEntries db c.id).length →
      (∃ e, cancel now c.id reason db = .error e) ∧ commit (cancel now c.id reason) db = db) := by
  have hiff : (∃ r, cancel now c.id reason db = .ok r) ↔ escrowBalance db.ledger.accounts c.id =
      c.entryFeeMinor * (activeEntries db c.id).length := by
    constructor
    · rintro ⟨r, hok⟩
      exact (h.of_ok ((h.cancel_ok_iff r).1 hok)).1
    · intro hbal
      obtain ⟨r, hok⟩ : ∃ r, cancelTx now (snapOf db c) reason db = .ok r := h.ok_of_balance hbal
      exact ⟨r, (h.cancel_ok_iff r).2 hok⟩
  refine ⟨hiff, fun r hok => ⟨commit_of_ok hok, (h.of_ok ((h.cancel_ok_iff r).1 hok)).2⟩, ?_⟩
  intro hbal
  cases hrun : cancel now c.id reason db with
  | ok r => exact absurd (hiff.1 ⟨r, hrun⟩) hbal
  | error e => exact ⟨⟨e, rfl⟩, commit_of_error hrun⟩

/-- Run alone on the platform, the call is its read and its transaction. -/
theorem run_cancel_alone (drawHash : ℕ → ℕ → String) (contestId : ℕ) (tick tick' : Tick) (db : Db) :
    ((protocol drawHash).run ⟨db, []⟩
      [.start (.cancel contestId reason), .resume 0 tick, .resume 0 tick']).shared =
      commit (cancel tick'.now contestId reason) db := by
  cases hread : cancelRead contestId db with
  | error e =>
    have hfirst : step drawHash tick (.ready (.cancel contestId reason)) db = (db, none) := by
      unfold step action begin_
      simp only [bind_of_error hread]
      rfl
    have hcall : cancel tick'.now contestId reason db = .error e := bind_of_error hread
    rw [commit_of_error hcall]
    simp [Protocol.run, Protocol.next, protocol, hfirst]
  | ok r =>
    obtain ⟨snap, db'⟩ := r
    obtain ⟨_, _, _, _, _, rfl⟩ := cancelRead_ok hread
    have hfirst : step drawHash tick (.ready (.cancel contestId reason)) db' =
        (db', some (.cancelTx snap reason)) := by
      unfold step action begin_
      simp only [bind_of_ok hread]
      rfl
    have hsecond := step_of_action drawHash (t := .cancelTx snap reason)
      (cancelTx tick'.now snap reason) rfl rfl db'
    have hcommit : commit (cancel tick'.now contestId reason) db' =
        commit (cancelTx tick'.now snap reason) db' := by
      unfold commit cancel
      rw [bind_of_ok hread]
    rw [hcommit]
    simp [Protocol.run, Protocol.next, protocol, hfirst, hsecond]

/-- The locked contest of two entrants, whose fees are in the escrow. -/
theorem refundees_stakedDb :
    Refundees { openContest 1 with status := .locked, lockedAt := some 100 } stakedDb where
  found := by decide +kernel
  ngn := rfl
  status := by decide
  users := by decide +kernel
  wallets := by
    have h : ∀ e ∈ activeEntries stakedDb 1, ∃ a ∈
        ofUser stakedDb.ledger.accounts e.userId .userAvailable "NGN", 0 ≤ a.balanceMinor := by
      decide +kernel
    exact h
  unused := by decide +kernel
  escrow_type := by
    have h : ∀ a ∈ ofContest stakedDb.ledger.accounts 1, a.type = .contestEscrow := by
      decide +kernel
    exact h

theorem cancel_all_or_nothing_staked :
    (activeEntries stakedDb 1).length = 2 ∧
      ∃ r, cancel 120 1 "postponed" stakedDb = .ok r :=
  ⟨by decide +kernel,
    (cancel_all_or_nothing 120 "postponed" refundees_stakedDb).1.2 (by decide +kernel)⟩

end Call

end Cancellation
end FootballIQ
