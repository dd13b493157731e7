import FootballIQ.EntryGate
import FootballIQ.PayoutFinality

/-!
# Currencies of journal entries

Contests and withdrawals run side by side on one ledger. A contest may have any
currency and its escrow has it too; every other account that a transaction looks up
is in naira, but for the wallets of refunds. So an entry mixes currencies exactly when
it is the fee of a contest in another currency, and no other transaction can move money
of such an escrow that has none.
-/

namespace FootballIQ
namespace Currencies

open Transaction Relational Interleaving WalletAccounts Contests Withdrawals Platform
open PayoutRace (World)
open Payouts (RequestWithdrawalRequest requestTx)

section Model

inductive Call where
  | platform (call : Platform.Call)
  | withdrawal (call : PayoutFinality.Call)
  | request (userId : ℕ) (dto : RequestWithdrawalRequest)
  deriving DecidableEq

inductive Task where
  | platform (task : Platform.Task)
  | withdrawal (task : PayoutFinality.Task)
  | request (userId : ℕ) (dto : RequestWithdrawalRequest)
  | requestTx (userId : ℕ) (dto : RequestWithdrawalRequest) (fraudScore : ℕ)
  deriving DecidableEq

/-- The tick of the contest calls, the answer of the gateway to a transfer, and the
checks of a request that are made elsewhere. -/
structure Tick where
  platform : Platform.Tick
  answer : PayoutResult
  otp : Except Failure PUnit
  fraudScore : Except Failure ℕ

def init : Call → Task
  | .platform call => .platform (.ready call)
  | .withdrawal call => .withdrawal (PayoutFinality.init call)
  | .request userId dto => .request userId dto

/-- What `request` checks before its transaction. -/
def requestRead (inp : Tick) (userId : ℕ) (dto : RequestWithdrawalRequest) : Tx Failure Db ℕ := do
  check inp.otp
  let _ ← decryptedFor userId dto.bankAccountId
  check inp.fraudScore

variable (drawHash : ℕ → ℕ → String)

def step (inp : Tick) (t : Task) (s : World) : World × Option Task :=
  match t with
  | .platform task =>
    ({ s with db := (Platform.step drawHash inp.platform task s.db).1 },
      (Platform.step drawHash inp.platform task s.db).2.map .platform)
  | .withdrawal task =>
    ((PayoutFinality.step ⟨inp.platform.now, inp.answer⟩ task s).1,
      (PayoutFinality.step ⟨inp.platform.now, inp.answer⟩ task s).2.map .withdrawal)
  | .request userId dto =>
    match requestRead inp userId dto s.db with
    | .ok (fraudScore, _) => (s, some (.requestTx userId dto fraudScore))
    | .error _ => (s, none)
  | .requestTx userId dto fraudScore =>
    ({ s with db := commit (requestTx userId dto fraudScore) s.db }, none)

def protocol : Protocol World Call Task Tick := ⟨init, step drawHash⟩

end Model

section Property

/-- All lines of the entry are on accounts of one currency. -/
def Uniform (accounts : Table LedgerAccount) (j : JournalEntry) : Prop :=
  ∃ currency, ∀ line ∈ j.lines, ∃ a, accounts.find line.accountId = some a ∧ a.currency = currency

/-- No journal entry mixes currencies. -/
def Unmixed (s : World) : Prop :=
  ∀ j ∈ s.db.ledger.journal.rows, Uniform s.db.ledger.accounts j

/-- A fee that is posted is the fee of a contest in naira. -/
def FeeInNaira (_ : Tick) (t : Task) (s : World) : Prop :=
  match t with
  | .platform (.submitTx slip) => slip.contest.currency = "NGN" ∨ EntryGate.Stops s.db slip ∨
    s.db.ledger.entryByKey (Entries.entryKey slip.dto.idempotencyKey) ≠ none
  | _ => True

/-- Nothing has been posted and no contest has been published. -/
structure Opening (db : Db) : Prop where
  journal : db.ledger.journal.rows = []
  escrows : ∀ a ∈ db.ledger.accounts.rows, a.contestId = none ∧ a.type ≠ .contestEscrow

end Property

/-- An escrow has the currency of its contest, and without entries in another currency
than naira those escrows are empty. -/
structure Sound (db : Db) : Prop where
  escrows : ∀ a ∈ db.ledger.accounts.rows, ∀ k, a.contestId = some k → a.type = .contestEscrow ∧
    ∃ c, db.contests.find k = some c ∧ c.currency = a.currency
  empty : ∀ a ∈ db.ledger.accounts.rows, a.type = .contestEscrow → a.currency ≠ "NGN" →
    a.balanceMinor = 0
  unmixed : ∀ j ∈ db.ledger.journal.rows, Uniform db.ledger.accounts j

/-- The line with this account is in naira. -/
def Naira (accounts : Table LedgerAccount) (k : ℕ) : Prop :=
  ∃ a, accounts.find k = some a ∧ a.currency = "NGN"

def kind (a : LedgerAccount) : LedgerAccountType × String := (a.type, a.currency)

/-- What a transaction other than the posting of a foreign fee does. -/
structure Advances (db db' : Db) : Prop where
  contests : Table.Keeps Contest.currency db.contests db'.contests
  accounts : Table.Keeps kind db.ledger.accounts db'.ledger.accounts
  sound : Sound db → Sound db'

section Advancing
variable {db db' db'' : Db}

theorem Advances.refl (db : Db) : Advances db db := ⟨Table.Keeps.refl _ _, Table.Keeps.refl _ _, id⟩

theorem Advances.trans (h : Advances db db') (h' : Advances db' db'') : Advances db db'' :=
  ⟨h.contests.trans h'.contests, h.accounts.trans h'.accounts, fun hs => h'.sound (h.sound hs)⟩

theorem Uniform.keeps {accounts accounts' : Table LedgerAccount} {j : JournalEntry}
    (h : Uniform accounts j) (hk : Table.Keeps kind accounts accounts') : Uniform accounts' j := by
  obtain ⟨currency, hlines⟩ := h
  refine ⟨currency, fun line hline => ?_⟩
  obtain ⟨a, ha, hcur⟩ := hlines line hline
  obtain ⟨a', ha', heq⟩ := hk.find ha
  exact ⟨a', ha', (congrArg Prod.snd heq).trans hcur⟩

theorem Naira.keeps {accounts accounts' : Table LedgerAccount} {k : ℕ} (h : Naira accounts k)
    (hk : Table.Keeps kind accounts accounts') : Naira accounts' k := by
  obtain ⟨a, ha, hcur⟩ := h
  obtain ⟨a', ha', heq⟩ := hk.find ha
  exact ⟨a', ha', (congrArg Prod.snd heq).trans hcur⟩

/-- A transaction that leaves the ledger alone advances when contests keep their currencies. -/
theorem advances_aside (hl : db'.ledger = db.ledger)
    (hc : Table.Keeps Contest.currency db.contests db'.contests) : Advances db db' := by
  refine ⟨hc, hl ▸ Table.Keeps.refl _ _, fun hs => ?_⟩
  refine ⟨?_, hl ▸ hs.empty, hl ▸ hs.unmixed⟩
  intro a ha k hk
  rw [hl] at ha
  obtain ⟨htype, c, hfind, hcur⟩ := hs.escrows a ha k hk
  obtain ⟨c', hfind', hcur'⟩ := hc.find hfind
  exact ⟨htype, c', hfind', hcur'.trans hcur⟩

/-- A posting on accounts in naira advances. -/
theorem advances_post {input : PostJournalInput} {id : ℕ} {l : Ledger}
    (hpost : Ledger.post input db.ledger = .ok (id, l))
    (hngn : Sound db → Ledger.Covers db.ledger.accounts input.lines →
      ∀ line ∈ input.lines, Naira db.ledger.accounts line.accountId) : Advances db { db with ledger := l } := by
  obtain ⟨_, ⟨_, _, _, rfl⟩ | ⟨_, _, rfl, _, hcovers⟩⟩ := Ledger.post_ok_cases hpost
  · exact Advances.refl db
  have hkeeps : Table.Keeps kind db.ledger.accounts (Ledger.posted db.ledger input).accounts :=
    Ledger.keeps_creditAll kind (fun _ _ => rfl) _ _
  have hold : ∀ a' ∈ (Ledger.posted db.ledger input).accounts.rows,
      ∃ a ∈ db.ledger.accounts.rows, a' = { a with
        balanceMinor := a.balanceMinor + Ledger.amountOn a.id input.lines } := by
    intro a' ha'
    rw [Ledger.posted, Ledger.rows_creditAll] at ha'
    obtain ⟨a, ha, rfl⟩ := List.mem_map.1 ha'
    exact ⟨a, ha, rfl⟩
  refine ⟨Table.Keeps.refl _ _, hkeeps, fun hs => ⟨?_, ?_, ?_⟩⟩
  · intro a' ha' k hk
    obtain ⟨a, ha, rfl⟩ := hold a' ha'
    exact hs.escrows a ha k hk
  · intro a' ha' htype hcur
    obtain ⟨a, ha, rfl⟩ := hold a' ha'
    -- no line is on an account in another currency
    have hzero : Ledger.amountOn a.id input.lines = 0 := by
      apply Ledger.amountOn_of_not_mem
      intro line hline heq
      have hfind : db.ledger.accounts.find a.id = some a := db.ledger.accounts.find_id ha
      obtain ⟨b, hb, hngn'⟩ := hngn hs hcovers line hline
      rw [heq, hfind] at hb
      cases hb
      exact hcur hngn'
    change a.balanceMinor + _ = 0
    rw [hzero, add_zero]
    exact hs.empty a ha htype hcur
  · intro j hj
    rcases (Ledger.mem_posted_journal _ _ j).1 hj with hj | rfl
    · exact (hs.unmixed j hj).keeps hkeeps
    · have hnew : Uniform db.ledger.accounts (Ledger.entryOf input db.ledger.journal.fresh) :=
        ⟨"NGN", hngn hs hcovers⟩
      exact hnew.keeps hkeeps

/-- The pending account is there already, or joins with nothing on it. -/
theorem advances_getOrCreatePendingAccount {userId : ℕ} {pending : LedgerAccount}
    (h : getOrCreatePendingAccount userId db = .ok (pending, db')) :
    Advances db db' ∧ Naira db'.ledger.accounts pending.id := by
  obtain ⟨hacc, rfl⟩ | ⟨_, rfl, rfl⟩ := (getOrCreatePendingAccount_ok_iff userId db db' pending).1 h
  · obtain ⟨hmem, _, _, hcur⟩ := ofUser_some hacc
    exact ⟨Advances.refl db', pending, db'.ledger.accounts.find_id hmem, hcur⟩
  · have hkeeps := Table.keeps_insert kind db.ledger.accounts (pendingAccount userId)
      (id_pendingAccount userId)
    refine ⟨⟨Table.Keeps.refl _ _, hkeeps, fun hs => ⟨?_, ?_, ?_⟩⟩,
      _, Table.find_insert_fresh _ _ (id_pendingAccount userId), rfl⟩
    · intro a ha k hk
      obtain ha | rfl := (Table.mem_insert _ _ (id_pendingAccount userId) a).1 ha
      · exact hs.escrows a ha k hk
      · cases hk
    · intro a ha htype hcur
      obtain ha | rfl := (Table.mem_insert _ _ (id_pendingAccount userId) a).1 ha
      · exact hs.empty a ha htype hcur
      · cases htype
    · intro j hj
      exact (hs.unmixed j hj).keeps hkeeps

end Advancing

section Transactions
variable {db db' : Db}

theorem naira_ofUser {userId : ℕ} {type : LedgerAccountType} {a : LedgerAccount}
    (h : ofUser db.ledger.accounts userId type "NGN" = some a) :
    Naira db.ledger.accounts a.id := by
  obtain ⟨hmem, _, _, hcur⟩ := ofUser_some h
  exact ⟨a, db.ledger.accounts.find_id hmem, hcur⟩

theorem naira_ofSystem {type : LedgerAccountType} {a : LedgerAccount}
    (h : ofSystem db.ledger.accounts type = some a) : Naira db.ledger.accounts a.id := by
  obtain ⟨hmem, _, _, _, hcur⟩ := ofSystem_some h
  exact ⟨a, db.ledger.accounts.find_id hmem, hcur⟩

/-- A transfer between two accounts in naira advances. -/
theorem advances_transfer {input : PostJournalInput} {id : ℕ} {l : Ledger}
    {source target : LedgerAccount} {amount amount' : ℤ}
    (hpost : Ledger.post input db.ledger = .ok (id, l))
    (hlines : input.lines = [⟨source.id, amount⟩, ⟨target.id, amount'⟩])
    (hsource : Naira db.ledger.accounts source.id) (htarget : Naira db.ledger.accounts target.id) :
    Advances db { db with ledger := l } := by
  apply advances_post hpost
  intro _ _ line hline
  rw [hlines, List.mem_cons, List.mem_singleton] at hline
  obtain rfl | rfl := hline
  · exact hsource
  · exact htarget

theorem advances_deposit {now : DateTime} {intent : PaymentIntent}
    {verification : Deposits.DepositVerification} {status : PaymentStatus}
    (h : Deposits.settleTx now intent verification db = .ok (status, db')) : Advances db db' := by
  obtain ⟨l, intents, events, rfl, rfl | ⟨_, _, _, clearing, wallet, id, _, hclearing,
    hwallet, hpost⟩⟩ := Deposits.settleTx_ok h
  · exact advances_aside rfl (Table.Keeps.refl _ _)
  · exact (advances_transfer hpost rfl (naira_ofSystem hclearing) (naira_ofUser hwallet)).trans
      (advances_aside rfl (Table.Keeps.refl _ _))

theorem advances_requestTx {userId : ℕ} {dto : RequestWithdrawalRequest} {fraudScore : ℕ}
    {w : Withdrawal} (h : requestTx userId dto fraudScore db = .ok (w, db')) : Advances db db' := by
  simp only [requestTx, Payouts.createWithdrawal, bind_ok_iff, userAvailable_ok_iff, get_ok_iff,
    set_ok_iff, Db.post_ok_iff, Db.emit_ok_iff, pure_ok_iff] at h
  obtain ⟨available, _, ⟨havailable, rfl⟩, pending, db₁, hpending, _, _, ⟨_, _, ⟨rfl, rfl⟩, _, _, rfl,
    rfl, rfl⟩, id, _, ⟨l, hpost, rfl⟩, _, _, rfl, rfl, rfl⟩ := h
  obtain ⟨hadvances, hnaira⟩ := advances_getOrCreatePendingAccount hpending
  have hmoved : Advances db₁ { db₁ with ledger := l } :=
    advances_transfer hpost rfl ((naira_ofUser havailable).keeps hadvances.accounts) hnaira
  exact hadvances.trans (hmoved.trans (advances_aside rfl (Table.Keeps.refl _ _)))

theorem advances_settleTx {now : DateTime} {w : Withdrawal} {r : PUnit × Db}
    (h : settleTx now w db = .ok r) : Advances db r.2 := by
  simp only [settleTx, bind_ok_iff, system_ok_iff, Db.post_ok_iff, Db.updateWithdrawal_ok_iff,
    Db.notify_ok_iff, Db.emit_ok_iff] at h
  obtain ⟨pending, db₁, hpending, external, _, ⟨hexternal, rfl⟩, id, _, ⟨l, hpost, rfl⟩, _, _,
    ⟨_, rfl⟩, _, _, rfl, hr⟩ := h
  obtain ⟨hadvances, hnaira⟩ := advances_getOrCreatePendingAccount hpending
  rw [← hr]
  exact hadvances.trans ((advances_transfer hpost rfl hnaira (naira_ofSystem hexternal)).trans
    (advances_aside rfl (Table.Keeps.refl _ _)))

theorem advances_reverseTx {now : DateTime} {w : Withdrawal} {status : ReversalStatus}
    {reason : String} {r : PUnit × Db} (h : reverseTx now w status reason db = .ok r) :
    Advances db r.2 := by
  simp only [reverseTx, bind_ok_iff, userAvailable_ok_iff, Db.post_ok_iff,
    Db.updateWithdrawal_ok_iff, Db.notify_ok_iff] at h
  obtain ⟨pending, db₁, hpending, available, _, ⟨havailable, rfl⟩, id, _, ⟨l, hpost, rfl⟩, _, _,
    ⟨_, rfl⟩, hr⟩ := h
  obtain ⟨hadvances, hnaira⟩ := advances_getOrCreatePendingAccount hpending
  rw [← hr]
  exact hadvances.trans ((advances_transfer hpost rfl hnaira (naira_ofUser havailable)).trans
    (advances_aside rfl (Table.Keeps.refl _ _)))

end Transactions

section Escrows
variable {db db' : Db}

/-- What a cancellation has read is about the escrow of its contest. -/
def KnowsEscrow (db : Db) (snap : CancelSnapshot) : Prop :=
  ∀ escrow, snap.escrow = some escrow → escrow.type = .contestEscrow ∧
    escrow.currency = snap.contest.currency ∧
    ∃ a, db.ledger.accounts.find escrow.id = some a ∧ kind a = kind escrow

/-- An empty escrow in another currency cannot pay a refund, so a refund is in naira. -/
theorem advances_refundEntry {snap : CancelSnapshot} {reason : String} {e : Entry} {r : PUnit × Db}
    (h : refundEntry snap reason e db = .ok r) (hescrow : KnowsEscrow db snap) :
    Advances db r.2 := by
  obtain ⟨wallet, escrow, id, l, hwallet, hsnap, hpost, hr⟩ := refundEntry_ok h
  obtain ⟨htype, hcur, a, ha, hkind⟩ := hescrow escrow hsnap
  rw [hr]
  have hpaid : Advances db { db with ledger := l } := by
    obtain ⟨hmem, _, hwtype, hwcur⟩ := ofUser_some hwallet
    have hwfind : db.ledger.accounts.find wallet.id = some wallet := db.ledger.accounts.find_id hmem
    apply advances_post hpost
    intro hs hcovers
    have hngn : escrow.currency = "NGN" := by
      by_contra hforeign
      have htype' : a.type = .contestEscrow := (congrArg Prod.fst hkind).trans htype
      have hzero : a.balanceMinor = 0 := hs.empty a ((Table.find_eq_some_iff _ _ a).1 ha).1 htype'
        (fun heq => hforeign ((congrArg Prod.snd hkind).symm.trans heq))
      have hne : wallet.id ≠ escrow.id := by
        intro heq
        rw [← heq, hwfind] at ha
        cases ha
        cases hwtype.symm.trans htype'
      have hcover := hcovers ⟨escrow.id, -snap.contest.entryFeeMinor⟩ (by simp [refundInput]) a ha
        (by rw [htype']; decide)
      have hfee := snap.contest.fee_pos
      simp only [refundInput, Ledger.amountOn_cons, Ledger.amountOn_nil, if_neg hne, if_true,
        hzero] at hcover
      omega
    intro line hline
    simp only [refundInput, List.mem_cons, List.not_mem_nil, or_false] at hline
    obtain rfl | rfl := hline
    · exact ⟨a, ha, (congrArg Prod.snd hkind).trans hngn⟩
    · exact ⟨wallet, hwfind, hwcur.trans (hcur.symm.trans hngn)⟩
  exact hpaid.trans (advances_aside rfl (Table.Keeps.refl _ _))

theorem KnowsEscrow.advances {snap : CancelSnapshot} (h : KnowsEscrow db snap)
    (hadvances : Advances db db') : KnowsEscrow db' snap := by
  intro escrow hsnap
  obtain ⟨htype, hcur, a, ha, hkind⟩ := h escrow hsnap
  obtain ⟨a', ha', hkind'⟩ := hadvances.accounts.find ha
  exact ⟨htype, hcur, a', ha', hkind'.trans hkind⟩

theorem advances_refunds {snap : CancelSnapshot} {reason : String} (es : List Entry)
    {r : PUnit × Db} (h : (forM es (refundEntry snap reason) : Tx Failure Db PUnit) db = .ok r)
    (hescrow : KnowsEscrow db snap) : Advances db r.2 := by
  induction es generalizing db with
  | nil =>
    rw [forM_nil_ok_iff] at h
    exact h ▸ Advances.refl db
  | cons e es ih =>
    rw [forM_cons_ok_iff] at h
    obtain ⟨db₁, hone, hrest⟩ := h
    have hstep := advances_refundEntry hone hescrow
    exact hstep.trans (ih hrest (hescrow.advances hstep))

theorem advances_cancelTx {now : DateTime} {snap : CancelSnapshot} {reason : String} {r : PUnit × Db}
    (h : cancelTx now snap reason db = .ok r) (hescrow : KnowsEscrow db snap) : Advances db r.2 := by
  obtain ⟨db₁, hloop, _, hr⟩ := cancelTx_ok h
  rw [hr]
  exact (advances_refunds snap.entries hloop hescrow).trans (advances_aside rfl
    (Table.keeps_updateWhere _ _ _ _ (by intro c; rfl) (by intro c; rfl)))

theorem naira_winnerLines {ps : List (Option ℤ × Ranking.RankableEntry)}
    {lines : List Settlement.WinnerLine}
    (h : Settlement.winnerLines ps db = .ok (lines, db')) :
    ∀ w ∈ lines, Naira db.ledger.accounts w.accountId := by
  obtain ⟨_, hall⟩ := Settlement.winnerLines_ok h
  clear h
  induction hall with
  | nil => simp
  | cons hone _ ih =>
    intro w hw
    rcases List.mem_cons.1 hw with rfl | hw
    · obtain ⟨_, a, ha, hacc⟩ := hone
      rw [hacc]
      exact naira_ofUser ha
    · exact ih w hw

/-- An escrow that holds money is in naira, so a settlement is too. -/
theorem advances_distributeTx {now : DateTime} {snap : Settlement.SettlementSnapshot}
    {r : PUnit × Db} (h : Settlement.distributeTx now snap db = .ok r) : Advances db r.2 := by
  obtain ⟨escrow, platform, db₁, hescrow, hplatform, hpay, _, hr⟩ :=
    (Settlement.distributeTx_ok_iff now snap db r).1 h
  have hpaid : Advances db db₁ := by
    obtain ⟨hpos, _, hpay⟩ | ⟨_, rfl⟩ := hpay
    · obtain ⟨prizes, winners, id, l, ns, _, hwin, hpost, _, hdb⟩ := Settlement.payOut_ok hpay
      have hposted : Advances db { db with ledger := l } := by
        apply advances_post hpost
        intro hs _ line hline
        obtain ⟨hmem, hcontest⟩ := ofContest_some hescrow
        have hngn : escrow.currency = "NGN" := by
          by_contra hforeign
          have hzero := hs.empty escrow hmem (hs.escrows escrow hmem _ hcontest).1 hforeign
          omega
        simp only [Settlement.payoutInput, Settlement.paidLines, List.mem_cons, List.mem_map,
          List.mem_filter] at hline
        obtain rfl | rfl | ⟨w, ⟨hw, _⟩, rfl⟩ := hline
        · exact ⟨escrow, db.ledger.accounts.find_id hmem, hngn⟩
        · exact naira_ofSystem hplatform
        · exact naira_winnerLines hwin w hw
      rw [show db₁ = _ from hdb]
      exact hposted.trans (advances_aside rfl (Table.Keeps.refl _ _))
    · exact Advances.refl db₁
  rw [hr]
  exact hpaid.trans (advances_aside rfl
    (Table.keeps_updateWhere _ _ _ _ (by intro c; rfl) (by intro c; rfl)))

/-- The row of the contest has the currency that was read. -/
def KnowsCurrency (db : Db) (contest : Contest) : Prop :=
  ∃ c, db.contests.find contest.id = some c ∧ c.currency = contest.currency

theorem KnowsCurrency.advances {contest : Contest} (h : KnowsCurrency db contest)
    (hadvances : Advances db db') : KnowsCurrency db' contest := by
  obtain ⟨c, hc, hcur⟩ := h
  obtain ⟨c', hc', hcur'⟩ := hadvances.contests.find hc
  exact ⟨c', hc', hcur'.trans hcur⟩

/-- A publication adds an empty escrow in the currency of the contest. -/
theorem advances_publishTx {now : DateTime} {contest : Contest} {lockAt : DateTime} {r : PUnit × Db}
    (h : publishTx now contest lockAt db = .ok r) (hcontest : KnowsCurrency db contest) :
    Advances db r.2 := by
  obtain ⟨_, hr⟩ := (publishTx_ok_iff now contest lockAt db r).1 h
  have hcontests : Table.Keeps Contest.currency db.contests r.2.contests := by
    rw [hr]
    exact Table.keeps_updateWhere _ _ _ _ (by intro c; rfl) (by intro c; rfl)
  have haccounts : Table.Keeps kind db.ledger.accounts r.2.ledger.accounts := by
    rw [hr]
    exact (Table.keeps_updateWhere kind _ _ _ (by intro a; rfl) (by intro a; rfl)).trans
      (Table.keeps_insert _ _ _ (id_escrowAccount contest.id contest.currency))
  have hrow : ∀ a ∈ r.2.ledger.accounts.rows,
      (∃ b ∈ db.ledger.accounts.rows, kind a = kind b ∧ a.balanceMinor = b.balanceMinor ∧
        ∀ k, a.contestId = some k → b.contestId = some k) ∨
      ∃ id, a = escrowAccount contest.id contest.currency id := by
    intro a ha
    rw [hr] at ha
    obtain ha | rfl := (Table.mem_insert _ _ (id_escrowAccount _ _) a).1 ha
    · obtain ⟨b, hb, rfl⟩ := (Table.mem_updateWhere _ _ _ (by intro a; rfl) a).1 ha
      refine Or.inl ⟨b, hb, ?_⟩
      split_ifs
      · exact ⟨rfl, rfl, fun k hk => by cases hk⟩
      · exact ⟨rfl, rfl, fun k hk => hk⟩
    · exact Or.inr ⟨_, rfl⟩
  refine ⟨hcontests, haccounts, fun hs => ⟨?_, ?_, ?_⟩⟩
  · intro a ha k hk
    obtain ⟨b, hb, hkind, _, hsame⟩ | ⟨id, rfl⟩ := hrow a ha
    · obtain ⟨htype, c, hc, hcur⟩ := hs.escrows b hb k (hsame k hk)
      obtain ⟨c', hc', hcur'⟩ := hcontests.find hc
      exact ⟨(congrArg Prod.fst hkind).trans htype, c', hc',
        hcur'.trans (hcur.trans (congrArg Prod.snd hkind).symm)⟩
    · cases hk
      obtain ⟨c, hc, hcur⟩ := hcontest
      obtain ⟨c', hc', hcur'⟩ := hcontests.find hc
      exact ⟨rfl, c', hc', hcur'.trans hcur⟩
  · intro a ha htype hcur
    obtain ⟨b, hb, hkind, hbalance, _⟩ | ⟨id, rfl⟩ := hrow a ha
    · rw [hbalance]
      exact hs.empty b hb ((congrArg Prod.fst hkind).symm.trans htype)
        (fun heq => hcur ((congrArg Prod.snd hkind).trans heq))
    · rfl
  · intro j hj
    rw [hr] at hj
    exact (hs.unmixed j hj).keeps haccounts

end Escrows

end Currencies
end FootballIQ
