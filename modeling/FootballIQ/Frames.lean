import FootballIQ.LedgerInvariant
import FootballIQ.Platform
import FootballIQ.PrizeAccounting
import FootballIQ.ScorePass

/-!
# What the transactions leave alone

Outside the submission and the publication no transaction changes who owns an
account, removes a journal entry or rewrites who paid for which contest. A frame
also says which journal entries may have been appended, and tracks the status of
the entries of watched contests.
-/

namespace FootballIQ

open Transaction Relational WalletAccounts

namespace Ledger

/-- An account without its balance. -/
def owner (a : LedgerAccount) : LedgerAccount := { a with balanceMinor := 0 }

theorem id_of_owner {a b : LedgerAccount} (h : owner a = owner b) : a.id = b.id :=
  show (owner a).id = (owner b).id from congrArg LedgerAccount.id h

theorem type_of_owner {a b : LedgerAccount} (h : owner a = owner b) : a.type = b.type :=
  show (owner a).type = (owner b).type from congrArg LedgerAccount.type h

theorem userId_of_owner {a b : LedgerAccount} (h : owner a = owner b) : a.userId = b.userId :=
  show (owner a).userId = (owner b).userId from congrArg LedgerAccount.userId h

theorem contestId_of_owner {a b : LedgerAccount} (h : owner a = owner b) :
    a.contestId = b.contestId :=
  show (owner a).contestId = (owner b).contestId from congrArg LedgerAccount.contestId h

theorem map_id_of_owner {o o' : Option LedgerAccount} (h : o.map owner = o'.map owner) :
    o.map (·.id) = o'.map (·.id) := by
  have hid := congrArg (Option.map LedgerAccount.id) h
  rwa [Option.map_map, Option.map_map] at hid

/-- `l'` keeps the accounts of `l` and appends only entries that satisfy `P`; an
account that no such entry has a line on keeps its balance. -/
structure Extends (P : JournalEntry → Prop) (l l' : Ledger) : Prop where
  accounts : Table.Same owner l.accounts l'.accounts
  journal : ∃ js, l'.journal.rows = l.journal.rows ++ js ∧ ∀ j ∈ js, P j
  untouched : ∀ k, (∀ j, P j → ∀ line ∈ j.lines, line.accountId ≠ k) →
    l'.accounts.find k = l.accounts.find k
  nonNegative : NonNegative l → NonNegative l'

section Extending
variable {P : JournalEntry → Prop} {l l' l'' : Ledger}

theorem Extends.refl (P : JournalEntry → Prop) (l : Ledger) : Extends P l l :=
  ⟨Table.Same.refl owner _, ⟨[], by simp, by simp⟩, fun _ _ => rfl, id⟩

theorem Extends.trans (h : Extends P l l') (h' : Extends P l' l'') : Extends P l l'' := by
  obtain ⟨js, hjs, hP⟩ := h.journal
  obtain ⟨js', hjs', hP'⟩ := h'.journal
  refine ⟨h.accounts.trans h'.accounts, ⟨js ++ js', ?_, ?_⟩, ?_,
    fun hl => h'.nonNegative (h.nonNegative hl)⟩
  · rw [hjs', hjs, List.append_assoc]
  · intro j hj
    rcases List.mem_append.1 hj with hj | hj
    · exact hP j hj
    · exact hP' j hj
  · intro k hk
    rw [h'.untouched k hk, h.untouched k hk]

theorem same_creditAll (accounts : Table LedgerAccount) (lines : List JournalLine) :
    Table.Same owner accounts (creditAll accounts lines) := by
  induction lines generalizing accounts with
  | nil => exact Table.Same.refl owner accounts
  | cons line lines ih =>
    refine Table.Same.trans ?_ (ih (credit accounts line))
    exact Table.same_update (by intro r; rfl) (fun _ _ _ => rfl)

theorem extends_posted {input : PostJournalInput} (hcov : Covers l.accounts input.lines)
    (hP : ∀ id, P (entryOf input id)) : Extends P l (posted l input) := by
  refine ⟨same_creditAll _ _, ⟨[entryOf input l.journal.fresh], rfl, ?_⟩, ?_,
    fun hl => posted_nonNegative hl hcov⟩
  · intro j hj
    rw [List.mem_singleton.1 hj]
    exact hP _
  · intro k hk
    have hzero : amountOn k input.lines = 0 := amountOn_of_not_mem (hk _ (hP 0))
    rw [posted, find_creditAll, hzero]
    cases l.accounts.find k with
    | none => rfl
    | some a => rw [Option.map_some, add_zero]

theorem extends_post {input : PostJournalInput} {id : ℕ} (h : post input l = .ok (id, l'))
    (hP : ∀ id, P (entryOf input id)) : Extends P l l' := by
  obtain ⟨_, ⟨_, _, _, rfl⟩ | ⟨_, _, rfl, _, hcov⟩⟩ := post_ok_cases h
  · exact Extends.refl P l'
  · exact extends_posted hcov hP

theorem extends_of_post {input : PostJournalInput} {id : ℕ} (h : post input l = .ok (id, l')) :
    Extends (fun _ => True) l l' := extends_post h (fun _ => trivial)

/-- The lookups by owner find the same accounts, up to their balances. -/
theorem ofUser_of_same {accounts accounts' : Table LedgerAccount}
    (h : Table.Same owner accounts accounts') (userId : ℕ) (type : LedgerAccountType)
    (currency : String) :
    (ofUser accounts' userId type currency).map owner =
      (ofUser accounts userId type currency).map owner := by
  refine h.findFirst _ (fun r r' hr => ?_)
  have hu := congrArg LedgerAccount.userId hr
  have ht := congrArg LedgerAccount.type hr
  have hc := congrArg LedgerAccount.currency hr
  simp only [owner] at hu ht hc
  rw [hu, ht, hc]

theorem Extends.ofUser (h : Extends P l l') (userId : ℕ) (type : LedgerAccountType)
    (currency : String) :
    (ofUser l'.accounts userId type currency).map owner =
      (ofUser l.accounts userId type currency).map owner :=
  ofUser_of_same h.accounts userId type currency

/-- The account of a contest stays the same one, up to its balance. -/
theorem ofContest_of_same {accounts accounts' : Table LedgerAccount}
    (h : Table.Same owner accounts accounts') {contestId : ℕ} {a : LedgerAccount}
    (ha : ofContest accounts contestId = some a) :
    ∃ a', ofContest accounts' contestId = some a' ∧ owner a' = owner a ∧
      accounts'.find a.id = some a' := by
  have hmap := h.findFirst (fun a => a.contestId = some contestId) (fun r r' hr => by
    rw [contestId_of_owner hr])
  rw [show accounts.findFirst _ = some a from ha, Option.map_some,
    Option.map_eq_some_iff] at hmap
  obtain ⟨a', ha', howner⟩ := hmap
  have hid : a'.id = a.id := id_of_owner howner
  exact ⟨a', ha', howner, hid ▸ accounts'.find_id (ofContest_some ha').1⟩

theorem Extends.ofContest (h : Extends P l l') (contestId : ℕ) :
    (ofContest l'.accounts contestId).map owner = (ofContest l.accounts contestId).map owner := by
  refine h.accounts.findFirst _ (fun r r' hr => ?_)
  have hc := congrArg LedgerAccount.contestId hr
  simp only [owner] at hc
  rw [hc]

end Extending

theorem ofUser_creditAll (accounts : Table LedgerAccount) (lines : List JournalLine) (userId : ℕ) (type : LedgerAccountType)
    (currency : String) : WalletAccounts.ofUser (creditAll accounts lines) userId type currency =
      (WalletAccounts.ofUser accounts userId type currency).map (fun a =>
        { a with balanceMinor := a.balanceMinor + amountOn a.id lines }) := by
  unfold WalletAccounts.ofUser Table.findFirst
  rw [rows_creditAll, List.find?_map]
  rfl

/-- A transfer between a user's account and one of another type moves, among the
accounts of the first type, only the balance of that user. -/
theorem balance_transfer {accounts : Table LedgerAccount} {own other : LedgerAccount}
    {userId : ℕ} {type : LedgerAccountType} {currency : String} {amount : ℤ}
    {lines : List JournalLine}
    (hown : WalletAccounts.ofUser accounts userId type currency = some own)
    (hother : other ∈ accounts.rows) (htype : other.type ≠ type)
    (hlines : ∀ k, k ≠ other.id → amountOn k lines = if own.id = k then amount else 0) (u : ℕ) :
    ((WalletAccounts.ofUser (creditAll accounts lines) u type currency).map
        (·.balanceMinor)).getD 0 =
      ((WalletAccounts.ofUser accounts u type currency).map (·.balanceMinor)).getD 0 +
        if u = userId then amount else 0 := by
  rw [ofUser_creditAll]
  cases hu : WalletAccounts.ofUser accounts u type currency with
  | none =>
    have hne : u ≠ userId := by
      rintro rfl
      cases hown.symm.trans hu
    simp [hne]
  | some a =>
    obtain ⟨hmem, huser, hatype, _⟩ := ofUser_some hu
    have hao : a.id ≠ other.id := by
      intro heq
      rw [accounts.eq_of_id_eq hmem hother heq] at hatype
      exact htype hatype
    obtain ⟨homem, houser, _, _⟩ := ofUser_some hown
    have hiff : own.id = a.id ↔ u = userId := by
      constructor
      · intro heq
        rw [← accounts.eq_of_id_eq homem hmem heq, houser, Option.some.injEq] at huser
        exact huser.symm
      · rintro rfl
        rw [Option.some.inj (hown.symm.trans hu)]
    simp only [Option.map_some, Option.getD_some, hlines a.id hao, hiff]

/-- The id belongs to a wallet. -/
def IsWallet (accounts : Table LedgerAccount) (id : ℕ) : Prop :=
  ∃ a ∈ accounts.rows, a.id = id ∧ a.type = .userAvailable

theorem isWallet_ofUser {accounts : Table LedgerAccount} {userId : ℕ} {currency : String}
    {a : LedgerAccount} (h : WalletAccounts.ofUser accounts userId .userAvailable currency = some a) :
    IsWallet accounts a.id := by
  obtain ⟨hmem, _, htype, _⟩ := ofUser_some h
  exact ⟨a, hmem, rfl, htype⟩

theorem IsWallet.of_same {accounts accounts' : Table LedgerAccount}
    (h : Table.Same owner accounts accounts') {id : ℕ} (hw : IsWallet accounts' id) :
    IsWallet accounts id := by
  obtain ⟨a, ha, rfl, htype⟩ := hw
  obtain ⟨b, hb, hba⟩ := h.mem ha
  exact ⟨b, hb, id_of_owner hba, (type_of_owner hba).trans htype⟩

/-- An account that does not belong to the contest is not its escrow. -/
theorem id_ne_ofContest {accounts : Table LedgerAccount} {contestId : ℕ} {a b : LedgerAccount}
    (h : ofContest accounts contestId = some a) (hb : b ∈ accounts.rows)
    (hne : b.contestId ≠ some contestId) : b.id ≠ a.id := by
  obtain ⟨hmem, hcontest⟩ := ofContest_some h
  intro heq
  rw [accounts.eq_of_id_eq hb hmem heq] at hne
  exact hne hcontest

theorem wallet_ne_ofContest {accounts : Table LedgerAccount} {contestId id : ℕ} {a : LedgerAccount}
    (h : ofContest accounts contestId = some a) (htype : a.type = .contestEscrow)
    (hw : IsWallet accounts id) : id ≠ a.id := by
  obtain ⟨b, hb, rfl, htype'⟩ := hw
  intro heq
  rw [accounts.eq_of_id_eq hb (ofContest_some h).1 heq, htype] at htype'
  cases htype'

end Ledger

namespace Platform

open Contests Settlement Ranking

section Pairs
variable {α β : Type*} {R : α → β → Prop} {as : List α} {bs : List β}

theorem forall₂_mem_left (h : List.Forall₂ R as bs) {a : α} (ha : a ∈ as) : ∃ b ∈ bs, R a b := by
  induction h with
  | nil => cases ha
  | cons hone _ ih =>
    rcases List.mem_cons.1 ha with rfl | ha
    · exact ⟨_, List.mem_cons_self, hone⟩
    · obtain ⟨b, hb, hR⟩ := ih ha
      exact ⟨b, List.mem_cons_of_mem _ hb, hR⟩

theorem forall₂_mem_right (h : List.Forall₂ R as bs) {b : β} (hb : b ∈ bs) : ∃ a ∈ as, R a b :=
  forall₂_mem_left h.flip hb

end Pairs

/-- The columns of an entry that say who paid for what; and the status, in a watched contest. -/
def feeColumns (watched : ℕ → Bool) (e : Entry) : ℕ × ℕ × ℕ × ℕ × Option EntryStatus :=
  (e.id, e.contestId, e.userId, e.feeJournalId,
    if watched e.contestId then some e.status else none)

def closedStatuses : List ContestStatus := [.cancelled, .settled]

/-- A contest that is cancelled or settled is so in the later table too. -/
def StaysClosed (contests contests' : Table Contest) : Prop :=
  ∀ k c, contests.find k = some c → c.status ∈ closedStatuses →
    ∃ c', contests'.find k = some c' ∧ c'.status ∈ closedStatuses

/-- The frame of a transaction: what it may append to the journal, and what it keeps. -/
structure Frame (P : JournalEntry → Prop) (watched : ℕ → Bool) (db db' : Db) : Prop where
  ledger : Ledger.Extends P db.ledger db'.ledger
  entries : Table.Same (feeColumns watched) db.entries db'.entries
  contests : Table.Keeps Contest.entryFeeMinor db.contests db'.contests
  closed : StaysClosed db.contests db'.contests

section Frames
variable {P : JournalEntry → Prop} {watched : ℕ → Bool} {db db' db'' : Db}

theorem StaysClosed.refl (contests : Table Contest) : StaysClosed contests contests :=
  fun _ c hc hs => ⟨c, hc, hs⟩

theorem StaysClosed.trans {t t' t'' : Table Contest} (h : StaysClosed t t')
    (h' : StaysClosed t' t'') : StaysClosed t t'' := by
  intro k c hc hs
  obtain ⟨c', hc', hs'⟩ := h k c hc hs
  exact h' k c' hc' hs'

theorem closed_updateWhere {contests : Table Contest} {p : Contest → Prop} [DecidablePred p]
    {f : Contest → Contest} (hf : ∀ c, Row.id (f c) = Row.id c)
    (hp : ∀ c ∈ contests.rows, p c → c.status ∈ closedStatuses →
      (f c).status ∈ closedStatuses) : StaysClosed contests (contests.updateWhere p f hf) := by
  intro k c hc hs
  refine ⟨_, by rw [Table.find_updateWhere, hc, Option.map_some], ?_⟩
  split_ifs with hpc
  · exact hp c ((Table.find_eq_some_iff _ _ _).1 hc).1 hpc hs
  · exact hs

/-- An update of a contest that is in a given open status closes nothing again. -/
theorem closed_update_of_open {contests : Table Contest} {k : ℕ} {c : Contest}
    {f : Contest → Contest} (hf : ∀ c, Row.id (f c) = Row.id c) (hc : contests.find k = some c)
    (hs : c.status ∉ closedStatuses) : StaysClosed contests (contests.update k f hf) := by
  refine closed_updateWhere hf (fun c' hc' hid hclosed => absurd hclosed ?_)
  have hcc : c' = c := Option.some.inj (((contests.find_eq_some_iff k c').2 ⟨hc', hid⟩).symm.trans hc)
  rwa [hcc]

theorem Frame.refl (P : JournalEntry → Prop) (watched : ℕ → Bool) (db : Db) :
    Frame P watched db db :=
  ⟨Ledger.Extends.refl P _, Table.Same.refl _ _, Table.Keeps.refl _ _, StaysClosed.refl _⟩

theorem Frame.trans (h : Frame P watched db db') (h' : Frame P watched db' db'') :
    Frame P watched db db'' :=
  ⟨h.ledger.trans h'.ledger, h.entries.trans h'.entries, h.contests.trans h'.contests,
    h.closed.trans h'.closed⟩

theorem keeps_update {contests : Table Contest} {k : ℕ} {f : Contest → Contest}
    (hf : ∀ c, Row.id (f c) = Row.id c) (hfee : ∀ c, (f c).entryFeeMinor = c.entryFeeMinor) :
    Table.Keeps Contest.entryFeeMinor contests (contests.update k f hf) :=
  Table.keeps_updateWhere _ _ _ f hf hfee

theorem feeColumns_of_unwatched {e e' : Entry} (hw : watched e.contestId = false)
    (hid : e'.id = e.id) (hcontest : e'.contestId = e.contestId) (huser : e'.userId = e.userId)
    (hfee : e'.feeJournalId = e.feeJournalId) : feeColumns watched e' = feeColumns watched e := by
  simp [feeColumns, hid, hcontest, huser, hfee, hw]

/-- Entries of tables with these columns belong to the same contests. -/
theorem earlier_entry {t t' : Table Entry} (h : Table.Same (feeColumns watched) t t') {x' : Entry}
    (hx' : x' ∈ t'.rows) : ∃ x ∈ t.rows, x.id = x'.id ∧ x.contestId = x'.contestId := by
  obtain ⟨x, hx, hcols⟩ := h.mem hx'
  simp only [feeColumns, Prod.mk.injEq] at hcols
  exact ⟨x, hx, hcols.1, hcols.2.1⟩

theorem later_entry {t t' : Table Entry} (h : Table.Same (feeColumns watched) t t') {x : Entry}
    (hx : x ∈ t.rows) : ∃ x' ∈ t'.rows, x'.id = x.id ∧ x'.contestId = x.contestId := by
  obtain ⟨x', hx', hcols⟩ := h.mem_of hx
  simp only [feeColumns, Prod.mk.injEq] at hcols
  exact ⟨x', hx', hcols.1, hcols.2.1⟩

/-- A transaction that leaves ledger, entries and contests alone has any frame. -/
theorem frame_of_eq (hl : db'.ledger = db.ledger) (he : db'.entries = db.entries)
    (hc : db'.contests = db.contests) : Frame P watched db db' :=
  ⟨hl ▸ Ledger.Extends.refl P _, he ▸ Table.Same.refl _ _, hc ▸ Table.Keeps.refl _ _,
    hc ▸ StaysClosed.refl _⟩

theorem frame_settleTx {now : DateTime} {intent : PaymentIntent}
    {verification : Deposits.DepositVerification} {status : PaymentStatus}
    (h : Deposits.settleTx now intent verification db = .ok (status, db'))
    (hP : ∀ provider amountMinor channel clearing userAccount id,
      ofSystem db.ledger.accounts .gatewayClearing = some clearing →
      Ledger.IsWallet db.ledger.accounts userAccount.id →
      P (Ledger.entryOf (Deposits.depositInput intent provider amountMinor channel clearing
        userAccount) id)) : Frame P watched db db' := by
  obtain ⟨l, intents, events, rfl, hl⟩ := Deposits.settleTx_ok h
  refine ⟨?_, Table.Same.refl _ _, Table.Keeps.refl _ _, StaysClosed.refl _⟩
  rcases hl with rfl | ⟨provider, amountMinor, channel, clearing, userAccount, id, _, hc, hu, hpost⟩
  · exact Ledger.Extends.refl P _
  · exact Ledger.extends_post hpost (fun id => hP provider amountMinor channel clearing userAccount
      id hc (Ledger.isWallet_ofUser hu))

theorem frame_create {now adminId id : ℕ} {dto : CreateContestRequest}
    (h : create now adminId dto db = .ok (id, db')) : Frame P watched db db' := by
  obtain ⟨ruleSet, template, ms, ss, rfl⟩ := create_ok h
  refine ⟨Ledger.Extends.refl P _, Table.Same.refl _ _,
    Table.keeps_insert _ _ _ (id_draftContest dto ruleSet template adminId), ?_⟩
  intro k c hc hs
  exact ⟨c, Table.find_insert_of_some _ _ (id_draftContest dto ruleSet template adminId) hc, hs⟩

theorem frame_lock {now contestId : ℕ} {r : PUnit × Db} (h : lock now contestId db = .ok r) :
    Frame P watched db r.2 := by
  rcases lock_cases now contestId db with ⟨c, hc, hs, hlock⟩ | ⟨_, hlock⟩
  · rw [hlock, Except.ok.injEq] at h
    subst h
    exact ⟨Ledger.Extends.refl P _, Table.Same.refl _ _,
      keeps_update (by intro c; rfl) (by intro c; rfl),
      closed_update_of_open (by intro c; rfl) hc (by rw [hs]; decide)⟩
  · rw [hlock, Except.ok.injEq] at h
    subst h
    exact Frame.refl P watched db

section Cancel
variable {snap : CancelSnapshot} {reason : String}

/-- The refund loop: each turn posts at most its refund and marks its entry. -/
theorem frame_refunds (es : List Entry) {r : PUnit × Db}
    (h : (forM es (refundEntry snap reason) : Tx Failure Db PUnit) db = .ok r)
    (hP : ∀ e ∈ es, ∀ escrow wallet id, snap.escrow = some escrow →
      Ledger.IsWallet db.ledger.accounts wallet.id →
      P (Ledger.entryOf (refundInput snap.contest reason e escrow wallet) id))
    (hw : ∀ e ∈ es, ∀ x ∈ db.entries.rows, x.id = e.id → watched x.contestId = false) :
    Frame P watched db r.2 := by
  induction es generalizing db with
  | nil =>
    rw [forM_nil_ok_iff] at h
    exact h ▸ Frame.refl P watched db
  | cons e es ih =>
    rw [forM_cons_ok_iff] at h
    obtain ⟨db₁, hone, hrest⟩ := h
    obtain ⟨wallet, escrow, id, l, hu, hesc, hpost, rfl⟩ := refundEntry_ok hone
    have hstep : Frame P watched db { db with
        ledger := l
        entries := db.entries.update e.id (fun e => { e with status := .refunded }) (fun _ => rfl)
        notifications := db.notifications ++ [refundNotice snap.contest reason e] } := by
      refine ⟨Ledger.extends_post hpost (fun id => hP e List.mem_cons_self escrow wallet id hesc
        (Ledger.isWallet_ofUser hu)), ?_, Table.Keeps.refl _ _, StaysClosed.refl _⟩
      exact Table.same_update (by intro r; rfl) (fun x hx hid =>
        feeColumns_of_unwatched (hw e List.mem_cons_self x hx hid) rfl rfl rfl rfl)
    refine hstep.trans (ih hrest ?_ ?_)
    · intro e' he' escrow wallet id hesc hwallet
      exact hP e' (List.mem_cons_of_mem _ he') escrow wallet id hesc
        (hwallet.of_same hstep.ledger.accounts)
    · intro e' he' x' hx' hid
      obtain ⟨x, hx, hxid, hcontest⟩ := earlier_entry hstep.entries hx'
      rw [← hcontest]
      exact hw e' (List.mem_cons_of_mem _ he') x hx (hxid.trans hid)

theorem frame_cancelTx {now : DateTime} {r : PUnit × Db} (h : cancelTx now snap reason db = .ok r)
    (hP : ∀ e ∈ snap.entries, ∀ escrow wallet id, snap.escrow = some escrow →
      Ledger.IsWallet db.ledger.accounts wallet.id →
      P (Ledger.entryOf (refundInput snap.contest reason e escrow wallet) id))
    (hw : ∀ e ∈ snap.entries, ∀ x ∈ db.entries.rows, x.id = e.id → watched x.contestId = false) :
    Frame P watched db r.2 := by
  obtain ⟨db₁, hloop, _, hr⟩ := cancelTx_ok h
  rw [hr]
  refine (frame_refunds snap.entries hloop hP hw).trans ?_
  exact ⟨Ledger.Extends.refl P _, Table.Same.refl _ _,
    keeps_update (by intro c; rfl) (by intro c; rfl),
    closed_updateWhere (by intro c; rfl) (fun _ _ _ _ => by simp [closedStatuses])⟩

end Cancel

section Distribute
variable {snap : SettlementSnapshot}

theorem same_awardPrizes (t : Table Entry) (lines : List WinnerLine) :
    Table.Same (feeColumns watched) t (awardPrizes t lines) := by
  induction lines generalizing t with
  | nil => exact Table.Same.refl _ t
  | cons line lines ih =>
    refine Table.Same.trans ?_ (ih _)
    exact Table.same_update (by intro r; rfl) (fun _ _ _ => rfl)

theorem same_settleEntries (batches : List (List (ℕ × ℕ))) (t : Table Entry)
    (hw : ∀ rows ∈ batches, ∀ x ∈ t.rows, (rows.lookup x.id).isSome →
      watched x.contestId = false) :
    Table.Same (feeColumns watched) t (batches.foldl settleEntries t) := by
  induction batches generalizing t with
  | nil => exact Table.Same.refl _ t
  | cons rows batches ih =>
    have hone : Table.Same (feeColumns watched) t (settleEntries t rows) :=
      Table.same_updateWhere (by intro r; rfl) (fun x hx hin =>
        feeColumns_of_unwatched (hw rows List.mem_cons_self x hx hin) rfl rfl rfl rfl)
    refine hone.trans (ih _ ?_)
    intro rows' hrows' x' hx' hin
    obtain ⟨x, hx, hid, hcontest⟩ := earlier_entry hone hx'
    rw [← hcontest]
    exact hw rows' (List.mem_cons_of_mem _ hrows') x hx (hid ▸ hin)

/-- A batch only ranks entries of the ranking. -/
theorem ranked_of_lookup {ranked : List RankableEntry} {rows : List (ℕ × ℕ)}
    (hrows : rows ∈ rankBatches ranked) {k : ℕ} (hk : (rows.lookup k).isSome) :
    k ∈ ranked.map (·.entryId) := by
  obtain ⟨b, _, rfl⟩ := List.mem_map.1 hrows
  obtain ⟨m, hm⟩ := Option.isSome_iff_exists.1 hk
  obtain ⟨l₁, l₂, hsplit, _⟩ := List.lookup_eq_some_iff.1 hm
  have hmem : (k, m) ∈ rankRows ranked (b * chunkSize) := by simp [hsplit]
  obtain ⟨i, r, hi, rfl, _⟩ := mem_rankRows hmem
  exact List.mem_map_of_mem (List.mem_of_getElem? hi)

theorem winnerLines_wallets {ps : List (Option ℤ × RankableEntry)} {lines : List WinnerLine}
    (h : winnerLines ps db = .ok (lines, db')) :
    ∀ w ∈ lines, Ledger.IsWallet db.ledger.accounts w.accountId := by
  intro w hw
  obtain ⟨_, _, _, a, ha, hacc⟩ := forall₂_mem_right (winnerLines_ok h).2 hw
  rw [hacc]
  exact Ledger.isWallet_ofUser ha

theorem frame_distributeTx {now : DateTime} {r : PUnit × Db}
    (h : distributeTx now snap db = .ok r)
    (hP : ∀ escrow platform commission winners id,
      ofContest db.ledger.accounts snap.contest.id = some escrow →
      ofSystem db.ledger.accounts .platformRevenue = some platform →
      (∀ w ∈ winners, Ledger.IsWallet db.ledger.accounts w.accountId) →
      P (Ledger.entryOf (payoutInput snap.contest escrow platform commission winners) id))
    (hw : ∀ x ∈ db.entries.rows, x.id ∈ snap.ranked.map (·.entryId) →
      watched x.contestId = false) : Frame P watched db r.2 := by
  obtain ⟨escrow, platform, db₁, he, hp, hpay, _, hr⟩ := (distributeTx_ok_iff now snap db r).1 h
  have hfirst : Frame P watched db db₁ := by
    rcases hpay with ⟨_, _, hpay⟩ | ⟨_, rfl⟩
    · obtain ⟨prizes, winners, id, l, ns, _, hwin, hpost, _, hdb⟩ := payOut_ok hpay
      rw [show db₁ = _ from hdb]
      exact ⟨Ledger.extends_post hpost (fun id => hP escrow platform _ winners id he hp
        (winnerLines_wallets hwin)), same_awardPrizes _ _, Table.Keeps.refl _ _, StaysClosed.refl _⟩
    · exact Frame.refl P watched db₁
  rw [hr]
  refine hfirst.trans ⟨Ledger.Extends.refl P _, ?_,
    keeps_update (by intro c; rfl) (by intro c; rfl),
    closed_updateWhere (by intro c; rfl) (fun _ _ _ _ => by simp [closedStatuses])⟩
  refine same_settleEntries _ _ (fun rows hrows x' hx' hin => ?_)
  obtain ⟨x, hx, hid, hcontest⟩ := earlier_entry hfirst.entries hx'
  rw [← hcontest]
  exact hw x hx (hid ▸ ranked_of_lookup hrows hin)

end Distribute

section Results

theorem frame_finalizeTx {now : DateTime} {fixtureId : ℕ} {result : Results.FinalizeResultRequest}
    {r : PUnit × Db} (h : Results.finalizeTx now fixtureId result db = .ok r) :
    Frame P watched db r.2 := by
  obtain ⟨_, hr⟩ := (Results.finalizeTx_ok_iff now fixtureId result db r).1 h
  rw [hr]
  exact frame_of_eq rfl rfl rfl

theorem frame_scoreContestMatch {now : DateTime} {contestId contestMatchId : ℕ}
    {result : Scoring.FinalResult} {r : PUnit × Db}
    (h : Scoring.scoreContestMatch now contestId contestMatchId result db = .ok r) :
    Frame P watched db r.2 := by
  obtain ⟨c, ruleSet, _, _, hr⟩ :=
    (Scoring.scoreContestMatch_ok_iff now contestId contestMatchId result db r).1 h
  rw [hr]
  refine ⟨Ledger.Extends.refl P _, ?_, ?_, ?_⟩
  · exact Table.same_updateWhere (by intro r; rfl) (fun _ _ _ => rfl)
  · exact Table.keeps_updateWhere _ _ _ _ (by intro c; rfl) (by intro c; rfl)
  · refine closed_updateWhere (by intro c; rfl) (fun c _ hp hs => absurd hs ?_)
    rw [hp.2]
    decide

theorem frame_markScored {now contestId : ℕ} {r : PUnit × Db}
    (h : Scoring.markScored now contestId db = .ok r) : Frame P watched db r.2 := by
  have hc := commit_of_ok (show Scoring.markScored now contestId db = .ok (r.1, r.2) from h)
  rw [← hc]
  rcases Scoring.markScored_cases now contestId db with ⟨c, hfind, hs, hrun⟩ | ⟨_, hrun⟩
  · rw [hrun]
    exact ⟨Ledger.Extends.refl P _, Table.Same.refl _ _,
      keeps_update (by intro c; rfl) (by intro c; rfl),
      closed_update_of_open (by intro c; rfl) hfind (by rw [hs]; decide)⟩
  · rw [hrun]
    exact Frame.refl P watched db

end Results

section Actions
variable (drawHash : ℕ → ℕ → String)

/-- What a task may still write is within the frame; submissions and publications never are. -/
def InFrame (P : JournalEntry → Prop) (watched : ℕ → Bool) (db : Db) : Task → Prop
  | .settle intent _ => ∀ provider amountMinor channel clearing userAccount id,
      ofSystem db.ledger.accounts .gatewayClearing = some clearing →
      Ledger.IsWallet db.ledger.accounts userAccount.id →
      P (Ledger.entryOf (Deposits.depositInput intent provider amountMinor channel clearing
        userAccount) id)
  | .publishTx _ _ => False
  | .submitTx _ => False
  | .cancelTx snap reason =>
    (∀ e ∈ snap.entries, ∀ escrow wallet id, snap.escrow = some escrow →
      Ledger.IsWallet db.ledger.accounts wallet.id →
      P (Ledger.entryOf (refundInput snap.contest reason e escrow wallet) id)) ∧
    ∀ e ∈ snap.entries, ∀ x ∈ db.entries.rows, x.id = e.id → watched x.contestId = false
  | .distributeTx snap =>
    (∀ escrow platform commission winners id,
      ofContest db.ledger.accounts snap.contest.id = some escrow →
      ofSystem db.ledger.accounts .platformRevenue = some platform →
      (∀ w ∈ winners, Ledger.IsWallet db.ledger.accounts w.accountId) →
      P (Ledger.entryOf (payoutInput snap.contest escrow platform commission winners) id)) ∧
    ∀ x ∈ db.entries.rows, x.id ∈ snap.ranked.map (·.entryId) → watched x.contestId = false
  | _ => True

theorem frame_action {tick : Tick} {t : Task} {next : Option Task}
    (h : action drawHash tick t db = .ok (next, db')) (hin : InFrame P watched db t) :
    Frame P watched db db' := by
  cases t with
  | ready call =>
    rcases begin_ok drawHash h with ⟨adminId, dto, id, _, hc, _⟩ | ⟨contestId, _, hl, _⟩ | ⟨rfl, _⟩
    · exact frame_create hc
    · exact frame_lock hl
    · exact Frame.refl P watched db'
  | settle intent verification =>
    obtain ⟨_, status, hs⟩ := action_ok drawHash h
    exact frame_settleTx hs hin
  | publishTx contest lockAt => exact hin.elim
  | submitTx slip => exact hin.elim
  | cancelTx snap reason =>
    obtain ⟨_, _, hc⟩ := action_ok drawHash h
    exact frame_cancelTx hc hin.1 hin.2
  | finalizeTx fixtureId result =>
    obtain ⟨_, _, hf⟩ := action_ok drawHash h
    exact frame_finalizeTx hf
  | scoring job =>
    have hjob := ScoringJob.action_ok h
    cases hstage : job.stage with
    | readMatches =>
      rw [hstage] at hjob
      exact hjob.1 ▸ Frame.refl P watched db
    | scoreMatch cm rest =>
      rw [hstage] at hjob
      exact frame_scoreContestMatch hjob.1
    | count cm rest =>
      rw [hstage] at hjob
      exact hjob.1 ▸ Frame.refl P watched db
    | countOther cm rest predictionsFirst first =>
      rw [hstage] at hjob
      exact hjob.1 ▸ Frame.refl P watched db
    | complete cm rest =>
      rw [hstage] at hjob
      exact frame_markScored hjob.1
  | distributeTx snap =>
    obtain ⟨_, _, hd⟩ := action_ok drawHash h
    exact frame_distributeTx hd hin.1 hin.2

/-- The step of a task within the frame keeps it, also when it fails. -/
theorem frame_step {tick : Tick} {t : Task} (hin : InFrame P watched db t) :
    Frame P watched db (step drawHash tick t db).1 :=
  step_within drawHash (Frame.refl P watched) (fun _ _ h => frame_action drawHash h hin)

end Actions

end Frames

section Fees

/-- A journal entry that is no entry fee. -/
def NotFee (j : JournalEntry) : Prop :=
  j.type ≠ .entryFee ∧ ∀ key, j.idempotencyKey ≠ Entries.entryKey key

def unwatched : ℕ → Bool := fun _ => false

theorem depositKey_ne (k : ℕ) (key : String) : Deposits.depositKey k ≠ Entries.entryKey key :=
  Ledger.key_ne rfl rfl (by decide) _ _

theorem refundKey_ne (k : ℕ) (key : String) : refundKey k ≠ Entries.entryKey key :=
  Ledger.key_ne rfl rfl (by decide) _ _

theorem settlementKey_ne (k : ℕ) (key : String) : Settlement.settlementKey k ≠ Entries.entryKey key :=
  Ledger.key_ne rfl rfl (by decide) _ _

theorem inFrame_notFee (db : Db) (t : Task) (hsubmit : ∀ slip, t ≠ .submitTx slip)
    (hpublish : ∀ contest lockAt, t ≠ .publishTx contest lockAt) :
    InFrame NotFee unwatched db t := by
  cases t with
  | submitTx slip => exact absurd rfl (hsubmit slip)
  | publishTx contest lockAt => exact absurd rfl (hpublish contest lockAt)
  | settle intent verification =>
    intro _ _ _ _ _ _ _ _
    exact ⟨by simp [Ledger.entryOf, Deposits.depositInput],
      fun key => depositKey_ne _ key⟩
  | cancelTx snap reason =>
    refine ⟨?_, fun _ _ _ _ _ => rfl⟩
    intro _ _ _ _ _ _ _
    exact ⟨by simp [Ledger.entryOf, refundInput],
      fun key => refundKey_ne _ key⟩
  | distributeTx snap =>
    refine ⟨?_, fun _ _ _ => rfl⟩
    intro _ _ _ _ _ _ _ _
    exact ⟨by simp [Ledger.entryOf, Settlement.payoutInput],
      fun key => settlementKey_ne _ key⟩
  | ready call => trivial
  | finalizeTx fixtureId result => trivial
  | scoring job => trivial

theorem frame_notFee (drawHash : ℕ → ℕ → String) (tick : Tick) (t : Task) (db : Db)
    (hsubmit : ∀ slip, t ≠ .submitTx slip)
    (hpublish : ∀ contest lockAt, t ≠ .publishTx contest lockAt) :
    Frame NotFee unwatched db (step drawHash tick t db).1 :=
  frame_step drawHash (inFrame_notFee db t hsubmit hpublish)

/-- What one step writes: a slip, a publication, or nothing outside the frame. -/
theorem step_writes (drawHash : ℕ → ℕ → String) (tick : Tick) (t : Task) (db : Db) :
    (∃ slip res db', t = .submitTx slip ∧ Entries.submitTx tick.now slip db = .ok (res, db') ∧
        (step drawHash tick t db).1 = db') ∨
      (∃ contest lockAt db', t = .publishTx contest lockAt ∧
        publishTx tick.now contest lockAt db = .ok (⟨⟩, db') ∧
        (step drawHash tick t db).1 = db') ∨
      Frame NotFee unwatched db (step drawHash tick t db).1 := by
  cases t with
  | submitTx slip =>
    rcases step_cases drawHash tick (.submitTx slip) db with ⟨next, db', hok, hs⟩ | ⟨_, hs⟩
    · obtain ⟨_, res, hsubmit⟩ := action_ok drawHash hok
      exact Or.inl ⟨slip, res, db', rfl, hsubmit, congrArg Prod.fst hs⟩
    · rw [hs]
      exact Or.inr (Or.inr (Frame.refl NotFee unwatched db))
  | publishTx contest lockAt =>
    rcases step_cases drawHash tick (.publishTx contest lockAt) db with ⟨next, db', hok, hs⟩ | ⟨_, hs⟩
    · obtain ⟨_, u, hpublish⟩ := action_ok drawHash hok
      exact Or.inr (Or.inl ⟨contest, lockAt, db', rfl, hpublish, congrArg Prod.fst hs⟩)
    · rw [hs]
      exact Or.inr (Or.inr (Frame.refl NotFee unwatched db))
  | ready _ | settle _ _ | cancelTx _ _ | finalizeTx _ _ | scoring _ | distributeTx _ =>
    exact Or.inr (Or.inr (frame_notFee drawHash tick _ db (by rintro _ ⟨⟩) (by rintro _ _ ⟨⟩)))

end Fees

end Platform
end FootballIQ
