import FootballIQ.Amounts
import FootballIQ.FlowOfFunds
import FootballIQ.LedgerGuards

/-!
# The books of the whole platform

Contests, deposits and withdrawals touch the ledger by postings and by opening empty
accounts only. So over every interleaving of their steps the books stay sound, and the
triggers of the database never stop a transaction. Every posting goes the way that is
meant for its type, so the platform never owes more than the gateway holds for it.
-/

namespace FootballIQ
namespace Bookkeeping

open Transaction Relational Interleaving WalletAccounts Contests Withdrawals Currencies
open Platform hiding Call Task Tick step protocol
open PayoutRace (World)

/-- What the transactions do to the ledger; `P` holds of every posting and the ledger
that it meets. -/
inductive Moves (P : Ledger → PostJournalInput → Prop) : Ledger → Ledger → Prop where
  | refl (l : Ledger) : Moves P l l
  | post {l l' l'' : Ledger} {input : PostJournalInput} {id : ℕ} (h : Moves P l l')
      (hP : P l' input) (hpost : Ledger.post input l' = .ok (id, l'')) : Moves P l l''
  | openAccount {l l' : Ledger} (h : Moves P l l') (mk : ℕ → LedgerAccount)
      (hmk : ∀ k, Row.id (mk k) = k) (hzero : ∀ k, (mk k).balanceMinor = 0)
      (hescrow : ∀ k, (mk k).contestId ≠ none → (mk k).type = .contestEscrow) :
      Moves P l { l' with accounts := l'.accounts.insert mk hmk }
  | disconnect {l l' : Ledger} (h : Moves P l l') (contestId : ℕ) :
      Moves P l { l' with accounts := Contests.disconnect l'.accounts contestId }

/-- The posting goes its way if what the call has read is still so. -/
def Routes (K : Ledger → Prop) (l : Ledger) (input : PostJournalInput) : Prop :=
  Ledger.Escrowed l.accounts → K l → Ledger.Routed l.accounts input.type input.lines

/-- A posting whose accounts are all looked up within its transaction. -/
abbrev Looked : Ledger → PostJournalInput → Prop := Routes (fun _ => True)

/-- The escrow that a cancellation has read is the account of an escrow. -/
def KnowsEscrow (snap : CancelSnapshot) (l : Ledger) : Prop :=
  ∀ escrow, snap.escrow = some escrow → Ledger.typeOf l.accounts escrow.id = some .contestEscrow

/-- What a call has read and the ledger must still confirm. -/
def Expects (t : Task) (l : Ledger) : Prop :=
  match t with
  | .platform (.cancelTx snap _) => KnowsEscrow snap l
  | _ => True

/-- What a task needs for its postings to go their way. -/
def Backs (t : Task) (l : Ledger) : Prop :=
  Expects t l ∧ Amounts.Carried t ∧ Amounts.Confirms t

/-- The ledger is sound, and every line is on an account that is there. -/
structure Booked (l : Ledger) : Prop where
  sound : l.Sound
  accounts : ∀ line ∈ l.allLines, l.accounts.find line.accountId ≠ none

section Moves
variable {P P' : Ledger → PostJournalInput → Prop} {l l' l'' : Ledger}

theorem Moves.trans (h : Moves P l l') (h' : Moves P l' l'') : Moves P l l'' := by
  induction h' with
  | refl => exact h
  | post _ hP hpost ih => exact ih.post hP hpost
  | openAccount _ mk hmk hzero hescrow ih => exact ih.openAccount mk hmk hzero hescrow
  | disconnect _ contestId ih => exact ih.disconnect contestId

theorem Moves.mono (hmono : ∀ l input, P l input → P' l input) (h : Moves P l l') :
    Moves P' l l' := by
  induction h with
  | refl => exact Moves.refl _
  | post _ hP hpost ih => exact ih.post (hmono _ _ hP) hpost
  | openAccount _ mk hmk hzero hescrow ih => exact ih.openAccount mk hmk hzero hescrow
  | disconnect _ contestId ih => exact ih.disconnect contestId

theorem Moves.weaken {K K' : Ledger → Prop} (hK : ∀ l, K' l → K l) (h : Moves (Routes K) l l') :
    Moves (Routes K') l l' :=
  h.mono (fun l _ hroutes hescrows hk => hroutes hescrows (hK l hk))

theorem moves_post {input : PostJournalInput} {id : ℕ} (hP : P l input)
    (h : Ledger.post input l = .ok (id, l')) : Moves P l l' := (Moves.refl l).post hP h

theorem Booked.post {input : PostJournalInput} {id : ℕ} (hl : Booked l)
    (h : Ledger.post input l = .ok (id, l')) : Booked l' := by
  obtain ⟨hvalid, ⟨_, _, _, rfl⟩ | ⟨hkey, _, rfl, hexist, hcovers⟩⟩ := Ledger.post_ok_cases h
  · exact hl
  refine ⟨Ledger.posted_sound hl.sound hvalid hkey hexist hcovers, ?_⟩
  have hkeeps : Table.Keeps (fun _ => ()) l.accounts (Ledger.posted l input).accounts :=
    Ledger.keeps_creditAll _ (fun _ _ => rfl) _ _
  intro line hline
  rw [Ledger.allLines_posted, List.mem_append] at hline
  have hold : l.accounts.find line.accountId ≠ none := by
    rcases hline with hline | hline
    · exact hl.accounts line hline
    · exact hexist line hline
  obtain ⟨a, ha⟩ := Option.ne_none_iff_exists'.1 hold
  obtain ⟨a', ha', _⟩ := hkeeps.find ha
  rw [ha']
  simp

/-- An empty account under a new id has no lines. -/
theorem Booked.openAccount (hl : Booked l) {mk : ℕ → LedgerAccount}
    (hmk : ∀ k, Row.id (mk k) = k) (hzero : ∀ k, (mk k).balanceMinor = 0) :
    Booked { l with accounts := l.accounts.insert mk hmk } where
  sound :=
    { lines_valid := hl.sound.lines_valid
      balance_eq := by
        intro a ha
        rcases (Table.mem_insert _ _ hmk a).1 ha with ha | rfl
        · exact hl.sound.balance_eq a ha
        · rw [hzero]
          symm
          apply Ledger.amountOn_of_not_mem
          intro line hline heq
          apply hl.accounts line hline
          rw [heq]
          exact (congrArg l.accounts.find (hmk l.accounts.fresh)).trans l.accounts.find_fresh
      balances_sum := by
        rw [Table.rows_insert, List.map_append, List.sum_append, hl.sound.balances_sum]
        simp [hzero]
      non_negative := by
        intro a ha htype
        rcases (Table.mem_insert _ _ hmk a).1 ha with ha | rfl
        · exact hl.sound.non_negative a ha htype
        · exact (hzero _).ge
      keys_nodup := hl.sound.keys_nodup }
  accounts := by
    intro line hline
    obtain ⟨a, ha⟩ := Option.ne_none_iff_exists'.1 (hl.accounts line hline)
    rw [Table.find_insert_of_some _ _ hmk ha]
    simp

theorem Booked.disconnect (hl : Booked l) (contestId : ℕ) :
    Booked { l with accounts := Contests.disconnect l.accounts contestId } := by
  have hold : ∀ a' ∈ (Contests.disconnect l.accounts contestId).rows, ∃ a ∈ l.accounts.rows,
      a'.id = a.id ∧ a'.type = a.type ∧ a'.balanceMinor = a.balanceMinor := by
    intro a' ha'
    obtain ⟨a, ha, rfl⟩ := (Table.mem_updateWhere _ _ _ (by intro a; rfl) a').1 ha'
    refine ⟨a, ha, ?_⟩
    split_ifs <;> exact ⟨rfl, rfl, rfl⟩
  refine ⟨⟨hl.sound.lines_valid, ?_, ?_, ?_, hl.sound.keys_nodup⟩, ?_⟩
  · intro a' ha'
    obtain ⟨a, ha, hid, _, hbalance⟩ := hold a' ha'
    rw [hbalance, hid]
    exact hl.sound.balance_eq a ha
  · have hsame : Table.Same LedgerAccount.balanceMinor l.accounts
        (Contests.disconnect l.accounts contestId) :=
      Table.same_updateWhere (by intro a; rfl) (by intro a _ _; rfl)
    exact (congrArg List.sum hsame).trans hl.sound.balances_sum
  · intro a' ha' htype
    obtain ⟨a, ha, _, htype', hbalance⟩ := hold a' ha'
    rw [hbalance]
    exact hl.sound.non_negative a ha (htype' ▸ htype)
  · intro line hline
    have hkeeps : Table.Keeps (fun _ => ()) l.accounts (Contests.disconnect l.accounts contestId) :=
      Table.keeps_updateWhere _ _ _ _ (by intro a; rfl) (by intro a; rfl)
    obtain ⟨a, ha⟩ := Option.ne_none_iff_exists'.1 (hl.accounts line hline)
    obtain ⟨a', ha', _⟩ := hkeeps.find ha
    rw [ha']
    simp

theorem Moves.booked (h : Moves P l l') (hl : Booked l) : Booked l' := by
  induction h with
  | refl => exact hl
  | post _ _ hpost ih => exact ih.post hpost
  | openAccount _ mk hmk hzero _ ih => exact ih.openAccount hmk hzero
  | disconnect _ contestId ih => exact ih.disconnect contestId

/-- Entries are only added to the journal. -/
theorem Moves.journal_extends (h : Moves P l l') : l.journal.rows <+: l'.journal.rows := by
  induction h with
  | refl => exact List.prefix_refl _
  | post _ _ hpost ih =>
    refine ih.trans ?_
    obtain ⟨_, ⟨_, _, _, rfl⟩ | ⟨_, _, rfl, _⟩⟩ := Ledger.post_ok_cases hpost
    · exact List.prefix_refl _
    · rw [Ledger.posted, Table.rows_insert]
      exact List.prefix_append _ _
  | openAccount _ mk hmk hzero _ ih => exact ih
  | disconnect _ contestId ih => exact ih

/-- No account changes its type. -/
theorem Moves.keeps (h : Moves P l l') :
    Table.Keeps LedgerAccount.type l.accounts l'.accounts := by
  induction h with
  | refl => exact Table.Keeps.refl _ _
  | post _ _ hpost ih =>
    refine ih.trans ?_
    obtain ⟨_, ⟨_, _, _, rfl⟩ | ⟨_, _, rfl, _⟩⟩ := Ledger.post_ok_cases hpost
    · exact Table.Keeps.refl _ _
    · exact Ledger.keeps_creditAll _ (fun _ _ => rfl) _ _
  | openAccount _ mk hmk _ _ ih => exact ih.trans (Table.keeps_insert _ _ mk hmk)
  | disconnect _ contestId ih =>
    exact ih.trans (Table.keeps_updateWhere _ _ _ _ (by intro a; rfl) (by intro a; rfl))

theorem Expects.keeps {t : Task} (h : Expects t l)
    (hk : Table.Keeps LedgerAccount.type l.accounts l'.accounts) : Expects t l' := by
  cases t with
  | platform task =>
    cases task with
    | cancelTx snap reason => exact fun escrow hsnap => Ledger.typeOf_keeps hk (h escrow hsnap)
    | _ => trivial
  | _ => trivial

/-- Postings that go their way keep the chart of accounts. -/
theorem Moves.charted {K : Ledger → Prop}
    (hstable : ∀ l l' : Ledger, Table.Keeps LedgerAccount.type l.accounts l'.accounts → K l → K l')
    (h : Moves (Routes K) l l') (hl : Ledger.Charted l) (hK : K l) : Ledger.Charted l' := by
  induction h with
  | refl => exact hl
  | @post l₁ _ input _ hmoves hP hpost ih =>
    obtain ⟨_, ⟨_, _, _, rfl⟩ | ⟨_, _, rfl, _⟩⟩ := Ledger.post_ok_cases hpost
    · exact ih
    refine ⟨?_, ?_⟩
    · intro a ha hcontest
      rw [Ledger.posted, Ledger.rows_creditAll] at ha
      obtain ⟨b, hb, rfl⟩ := List.mem_map.1 ha
      exact ih.escrows b hb hcontest
    · have hstep : Table.Keeps LedgerAccount.type l₁.accounts (Ledger.posted l₁ input).accounts :=
        Ledger.keeps_creditAll LedgerAccount.type (fun _ _ => rfl) _ _
      intro j hj
      rcases (Ledger.mem_posted_journal _ _ j).1 hj with hj | rfl
      · exact (ih.routed j hj).keeps hstep
      · exact (hP ih.escrows (hstable _ _ hmoves.keeps hK)).keeps hstep
  | openAccount _ mk hmk _ hescrow ih =>
    refine ⟨?_, fun j hj => (ih.routed j hj).keeps (Table.keeps_insert _ _ mk hmk)⟩
    intro a ha hcontest
    rcases (Table.mem_insert _ _ hmk a).1 ha with ha | rfl
    · exact ih.escrows a ha hcontest
    · exact hescrow _ hcontest
  | disconnect _ contestId ih =>
    refine ⟨?_, fun j hj => (ih.routed j hj).keeps
      (Table.keeps_updateWhere _ _ _ _ (by intro a; rfl) (by intro a; rfl))⟩
    intro a' ha' hcontest
    obtain ⟨a, ha, rfl⟩ := (Table.mem_updateWhere _ _ _ (by intro a; rfl) a').1 ha'
    split_ifs at hcontest ⊢ with hof
    · exact absurd rfl hcontest
    · exact ih.escrows a ha hcontest

theorem opening_booked (hjournal : l.journal.rows = [])
    (hzero : ∀ a ∈ l.accounts.rows, a.balanceMinor = 0) : Booked l where
  sound := Ledger.opening_sound hjournal hzero
  accounts := by simp [Ledger.allLines, hjournal]

end Moves

section Transactions
variable {db db' : Db}

theorem typeOf_ofUser {accounts : Table LedgerAccount} {userId : ℕ} {type : LedgerAccountType}
    {currency : String} {a : LedgerAccount} (h : ofUser accounts userId type currency = some a) :
    Ledger.typeOf accounts a.id = some type := by
  obtain ⟨hmem, _, rfl, _⟩ := ofUser_some h
  exact Ledger.typeOf_mem hmem

theorem typeOf_ofSystem {accounts : Table LedgerAccount} {type : LedgerAccountType}
    {a : LedgerAccount} (h : ofSystem accounts type = some a) :
    Ledger.typeOf accounts a.id = some type := by
  obtain ⟨hmem, rfl, _⟩ := ofSystem_some h
  exact Ledger.typeOf_mem hmem

theorem typeOf_ofContest {accounts : Table LedgerAccount} {contestId : ℕ} {a : LedgerAccount}
    (h : ofContest accounts contestId = some a) (hescrows : Ledger.Escrowed accounts) :
    Ledger.typeOf accounts a.id = some .contestEscrow := by
  obtain ⟨hmem, hcontest⟩ := ofContest_some h
  rw [Ledger.typeOf_mem hmem, hescrows a hmem (by rw [hcontest]; simp)]

theorem moves_getOrCreatePendingAccount {userId : ℕ} {pending : LedgerAccount}
    (h : getOrCreatePendingAccount userId db = .ok (pending, db')) :
    Moves Looked db.ledger db'.ledger ∧
      Ledger.typeOf db'.ledger.accounts pending.id = some .userWithdrawalPending := by
  obtain ⟨hacc, rfl⟩ | ⟨_, rfl, rfl⟩ := (getOrCreatePendingAccount_ok_iff userId db db' pending).1 h
  · exact ⟨Moves.refl _, typeOf_ofUser hacc⟩
  · refine ⟨(Moves.refl _).openAccount _ (id_pendingAccount userId) (by intro k; rfl)
      (by intro k hk; exact absurd rfl hk), ?_⟩
    exact Ledger.typeOf_mem ((Table.mem_insert _ _ (id_pendingAccount userId) _).2 (Or.inr rfl))

theorem moves_deposit {now : DateTime} {intent : PaymentIntent}
    {verification : Deposits.DepositVerification} {status : PaymentStatus}
    (h : Deposits.settleTx now intent verification db = .ok (status, db')) :
    Moves (Routes (fun _ => Amounts.Confirms (.platform (.settle intent verification)))) db.ledger
      db'.ledger := by
  obtain ⟨l, intents, events, rfl, rfl | ⟨_, _, _, _, _, id, rfl, hclearing, hwallet, hpost⟩⟩ :=
    Deposits.settleTx_ok h
  · exact Moves.refl _
  · exact moves_post (fun _ hpositive => Ledger.routed_transfer rfl List.mem_cons_self
      (typeOf_ofSystem hclearing) (typeOf_ofUser hwallet) hpositive) hpost

theorem moves_requestTx {userId : ℕ} {dto : Payouts.RequestWithdrawalRequest} {fraudScore : ℕ}
    {w : Withdrawal} (h : Payouts.requestTx userId dto fraudScore db = .ok (w, db')) :
    Moves Looked db.ledger db'.ledger := by
  simp only [Payouts.requestTx, Payouts.createWithdrawal, bind_ok_iff, userAvailable_ok_iff,
    get_ok_iff, set_ok_iff, Db.post_ok_iff, Db.emit_ok_iff, pure_ok_iff] at h
  obtain ⟨available, _, ⟨havailable, rfl⟩, pending, db₁, hpending, _, _,
    ⟨_, _, ⟨rfl, rfl⟩, _, _, rfl, rfl, rfl⟩, id, _, ⟨l, hpost, rfl⟩, _, _, rfl, rfl, rfl⟩ := h
  obtain ⟨hmoves, htype⟩ := moves_getOrCreatePendingAccount hpending
  have hpositive : 0 < dto.amountMinor := lt_of_lt_of_le (by decide) dto.amount_min
  exact hmoves.post (fun _ _ => Ledger.routed_transfer rfl List.mem_cons_self
    (Ledger.typeOf_keeps hmoves.keeps (typeOf_ofUser havailable)) htype hpositive) hpost

theorem moves_settleTx {now : DateTime} {w : Withdrawal} {r : PUnit × Db}
    (h : settleTx now w db = .ok r) :
    Moves (Routes (fun _ => 0 < w.amountMinor)) db.ledger r.2.ledger := by
  simp only [settleTx, bind_ok_iff, system_ok_iff, Db.post_ok_iff, Db.updateWithdrawal_ok_iff,
    Db.notify_ok_iff, Db.emit_ok_iff] at h
  obtain ⟨pending, db₁, hpending, external, _, ⟨hexternal, rfl⟩, id, _, ⟨l, hpost, rfl⟩, _, _,
    ⟨_, rfl⟩, _, _, rfl, hr⟩ := h
  obtain ⟨hmoves, htype⟩ := moves_getOrCreatePendingAccount hpending
  rw [← hr]
  exact (hmoves.weaken (fun _ _ => trivial)).post (fun _ hpositive => Ledger.routed_transfer rfl
    List.mem_cons_self htype (typeOf_ofSystem hexternal) hpositive) hpost

theorem moves_reverseTx {now : DateTime} {w : Withdrawal} {status : ReversalStatus}
    {reason : String} {r : PUnit × Db} (h : reverseTx now w status reason db = .ok r) :
    Moves (Routes (fun _ => 0 < w.amountMinor)) db.ledger r.2.ledger := by
  simp only [reverseTx, bind_ok_iff, userAvailable_ok_iff, Db.post_ok_iff,
    Db.updateWithdrawal_ok_iff, Db.notify_ok_iff] at h
  obtain ⟨pending, db₁, hpending, available, _, ⟨havailable, rfl⟩, id, _, ⟨l, hpost, rfl⟩, _, _,
    ⟨_, rfl⟩, hr⟩ := h
  obtain ⟨hmoves, htype⟩ := moves_getOrCreatePendingAccount hpending
  rw [← hr]
  exact (hmoves.weaken (fun _ _ => trivial)).post (fun _ hpositive => Ledger.routed_transfer rfl
    List.mem_cons_self htype (typeOf_ofUser havailable) hpositive) hpost

theorem moves_submitTx {now : DateTime} {slip : Entries.PreparedSlip}
    {res : Entries.SubmitSlipResult} (h : Entries.submitTx now slip db = .ok (res, db')) :
    Moves Looked db.ledger db'.ledger := by
  obtain ⟨_, _, _, l, hwallet, hescrow, hpost, _, rfl, _⟩ :=
    (Entries.submitTx_ok_iff now slip db db' res).1 h
  exact moves_post (fun hescrows _ => Ledger.routed_transfer rfl List.mem_cons_self
    (typeOf_ofUser hwallet) (typeOf_ofContest hescrow hescrows) slip.contest.fee_pos) hpost

/-- The escrow of a refund is the one that the cancellation has read. -/
theorem moves_refunds {snap : CancelSnapshot} {reason : String} (es : List Entry) {r : PUnit × Db}
    (h : (forM es (refundEntry snap reason) : Tx Failure Db PUnit) db = .ok r) :
    Moves (Routes (KnowsEscrow snap)) db.ledger r.2.ledger := by
  induction es generalizing db with
  | nil =>
    rw [forM_nil_ok_iff] at h
    exact h ▸ Moves.refl _
  | cons e es ih =>
    rw [forM_cons_ok_iff] at h
    obtain ⟨db₁, hone, hrest⟩ := h
    obtain ⟨wallet, escrow, id, l, hwallet, hsnap, hpost, hr⟩ := refundEntry_ok hone
    have hl : db₁.ledger = l := congrArg Db.ledger hr
    have hmoves : Moves (Routes (KnowsEscrow snap)) db.ledger l :=
      moves_post (fun _ hknows => Ledger.routed_transfer rfl List.mem_cons_self
        (hknows escrow hsnap) (typeOf_ofUser hwallet) snap.contest.fee_pos) hpost
    exact (hl ▸ hmoves).trans (ih hrest)

theorem typeOf_winnerLines {ps : List (Option ℤ × Ranking.RankableEntry)}
    {lines : List Settlement.WinnerLine} (h : Settlement.winnerLines ps db = .ok (lines, db')) :
    ∀ w ∈ lines, Ledger.typeOf db.ledger.accounts w.accountId = some .userAvailable := by
  obtain ⟨_, hall⟩ := Settlement.winnerLines_ok h
  clear h
  induction hall with
  | nil => simp
  | cons hone _ ih =>
    rw [List.forall_mem_cons]
    obtain ⟨_, a, ha, hacc⟩ := hone
    rw [hacc]
    exact ⟨typeOf_ofUser ha, ih⟩

/-- The commission is what the prizes leave, and a posting has no line of zero. -/
theorem commission_pos {snap : Settlement.SettlementSnapshot} {escrow platform : LedgerAccount}
    {prizes : List (Option ℤ)} {winners : List Settlement.WinnerLine}
    (hbalance : 0 < escrow.balanceMinor) (hcommission : 0 ≤ snap.contest.commissionBps)
    (hprizes : Ranking.computePrizes (Settlement.poolOf escrow.balanceMinor
      snap.contest.commissionBps) snap.template snap.ranked.length = .ok prizes)
    (hvalid : Ledger.validateLines (Settlement.payoutInput snap.contest escrow platform
      (escrow.balanceMinor - prizes.reduceOption.sum) winners).lines = .ok ()) :
    0 < escrow.balanceMinor - prizes.reduceOption.sum := by
  have hpool := Settlement.poolOf_le hbalance.le hcommission
  have hsum : prizes.reduceOption.sum ≤ escrow.balanceMinor :=
    (Ranking.sum_computePrizes_le hprizes).trans (max_le hpool hbalance.le)
  have hzero := ((Ledger.validateLines_ok_iff _ _).1 hvalid).2.1
    ⟨platform.id, escrow.balanceMinor - prizes.reduceOption.sum⟩
    (List.mem_cons_of_mem _ List.mem_cons_self)
  change escrow.balanceMinor - prizes.reduceOption.sum ≠ 0 at hzero
  omega

theorem moves_distributeTx {now : DateTime} {snap : Settlement.SettlementSnapshot}
    {r : PUnit × Db} (h : Settlement.distributeTx now snap db = .ok r) :
    Moves (Routes (fun _ => 0 ≤ snap.contest.commissionBps)) db.ledger r.2.ledger := by
  obtain ⟨escrow, platform, db₁, hescrow, hplatform, ⟨hbalance, _, hpay⟩ | ⟨_, rfl⟩, _, hr⟩ :=
    (Settlement.distributeTx_ok_iff now snap db r).1 h
  · obtain ⟨prizes, winners, id, l, _, hprizes, hwin, hpost, _, hdb⟩ := Settlement.payOut_ok hpay
    have hl : db₁.ledger = l := congrArg Db.ledger hdb
    have hvalid := (Ledger.post_ok_cases hpost).1
    rw [hr]
    refine hl ▸ moves_post ?_ hpost
    intro hescrows hcommission
    refine ⟨_, _, .contestEscrow, rfl, rfl, typeOf_ofContest hescrow hescrows,
      neg_neg_of_pos hbalance, ?_⟩
    intro line hline
    rcases List.mem_cons.1 hline with rfl | hline
    · exact ⟨commission_pos hbalance hcommission hprizes hvalid, .platformRevenue,
        List.mem_cons_self, typeOf_ofSystem hplatform⟩
    · obtain ⟨w, hw, rfl⟩ := List.mem_map.1 hline
      obtain ⟨hwinner, hprize⟩ := List.mem_filter.1 hw
      exact ⟨of_decide_eq_true hprize, .userAvailable,
        List.mem_cons_of_mem _ List.mem_cons_self, typeOf_winnerLines hwin w hwinner⟩
  · rw [hr]
    exact Moves.refl _

/-- An account that a publication adds is empty. -/
theorem moves_publishTx {now : DateTime} {contest : Contest} {lockAt : DateTime} {r : PUnit × Db}
    (h : publishTx now contest lockAt db = .ok r) : Moves Looked db.ledger r.2.ledger := by
  obtain ⟨_, hr⟩ := (publishTx_ok_iff now contest lockAt db r).1 h
  rw [hr]
  exact ((Moves.refl _).disconnect contest.id).openAccount _
    (id_escrowAccount contest.id contest.currency) (by intro k; rfl) (by intro k _; rfl)

theorem ledger_begin {drawHash : ℕ → ℕ → String} {tick : Platform.Tick} {call : Platform.Call}
    {next : Option Platform.Task} (h : begin_ drawHash tick call db = .ok (next, db')) :
    db'.ledger = db.ledger := by
  obtain ⟨adminId, dto, id, _, hcreate, _⟩ | ⟨contestId, _, hlock, _⟩ | ⟨rfl, _⟩ := begin_ok drawHash h
  · obtain ⟨_, _, _, _, rfl⟩ := create_ok hcreate
    rfl
  · obtain ⟨_, _, _, hrun⟩ | ⟨_, hrun⟩ := lock_cases tick.now contestId db
    · rw [hrun, Except.ok.injEq, Prod.mk.injEq] at hlock
      rw [← hlock.2]
      rfl
    · rw [hrun, Except.ok.injEq, Prod.mk.injEq] at hlock
      rw [← hlock.2]
  · rfl

theorem ledger_job {tick : Platform.Tick} {job : ScoringJob} {next : Option Platform.Task}
    (h : job.action tick db = .ok (next, db')) : db'.ledger = db.ledger := by
  have hjob := ScoringJob.action_ok h
  cases hstage : job.stage with
  | readMatches | count cm rest | countOther cm rest predictionsFirst first =>
    rw [hstage] at hjob
    exact congrArg Db.ledger hjob.1
  | scoreMatch cm rest =>
    rw [hstage] at hjob
    obtain ⟨_, _, _, _, hr⟩ := (Scoring.scoreContestMatch_ok_iff _ _ _ _ _ _).1 hjob.1
    rw [show db' = _ from hr]
    rfl
  | complete cm rest =>
    rw [hstage] at hjob
    rw [← commit_of_ok hjob.1]
    obtain ⟨_, _, _, hrun⟩ | ⟨_, hrun⟩ := Scoring.markScored_cases tick.now cm.contestId db
    · rw [hrun]
      rfl
    · rw [hrun]

end Transactions

section Steps

theorem moves_action {drawHash : ℕ → ℕ → String} {tick : Platform.Tick} {task : Platform.Task}
    {next : Option Platform.Task} {db db' : Db} (h : action drawHash tick task db = .ok (next, db')) :
    Moves (Routes (Backs (.platform task))) db.ledger db'.ledger := by
  have haction := action_ok drawHash h
  cases task with
  | ready call =>
    rw [ledger_begin haction]
    exact Moves.refl _
  | scoring job =>
    rw [ledger_job haction]
    exact Moves.refl _
  | settle intent verification =>
    obtain ⟨_, status, hrun⟩ := haction
    exact (moves_deposit hrun).weaken (fun _ h => h.2.2)
  | publishTx contest lockAt =>
    obtain ⟨_, _, hrun⟩ := haction
    exact (moves_publishTx hrun).weaken (fun _ _ => trivial)
  | submitTx slip =>
    obtain ⟨_, _, hrun⟩ := haction
    exact (moves_submitTx hrun).weaken (fun _ _ => trivial)
  | cancelTx snap reason =>
    obtain ⟨_, _, hrun⟩ := haction
    obtain ⟨db₁, hloop, _, hr⟩ := cancelTx_ok hrun
    rw [show db' = _ from hr]
    exact (moves_refunds snap.entries hloop).weaken (fun _ h => h.1)
  | finalizeTx fixtureId result =>
    obtain ⟨_, _, hrun⟩ := haction
    obtain ⟨_, rfl⟩ := (Results.finalizeTx_ok_iff _ _ _ _ _).1 hrun
    exact Moves.refl _
  | distributeTx snap =>
    obtain ⟨_, _, hrun⟩ := haction
    exact (moves_distributeTx hrun).weaken (fun _ h => h.2.1)

/-- Every step of every call moves the ledger by postings and new accounts only. -/
theorem moves_step (drawHash : ℕ → ℕ → String) (inp : Tick) (t : Task) (s : World) :
    Moves (Routes (Backs t)) s.db.ledger (step drawHash inp t s).1.db.ledger := by
  cases t with
  | platform task =>
    apply Platform.step_within
      (R := fun db db' => Moves (Routes (Backs (.platform task))) db.ledger db'.ledger)
      drawHash (fun db => Moves.refl db.ledger)
    intro next db' h
    exact moves_action h
  | withdrawal task =>
    cases task with
    | webhook event reference => exact Moves.refl _
    | payout task =>
      apply PayoutFinality.payout_within
        (R := fun db db' => Moves (Routes (Backs (.withdrawal (.payout task)))) db.ledger db'.ledger)
        (fun db => Moves.refl db.ledger)
      · intro adminId k db u db' h
        obtain ⟨_, rfl⟩ := (Db.updateWithdrawal_ok_iff _ _ _ _ _).1 h
        exact Moves.refl _
      · intro k result db u db' h
        obtain ⟨_, rfl⟩ := (Db.updateWithdrawal_ok_iff _ _ _ _ _).1 h
        exact Moves.refl _
      · intro a db u db' h
        obtain rfl := (Db.record_ok_iff _ _ _).1 h
        exact Moves.refl _
      · rintro now w rfl db u db' h
        exact (moves_settleTx h).weaken (fun _ hbacks => hbacks.2.1)
      · rintro now w status reason auditor rfl db u db' h
        exact (moves_reverseTx h).weaken (fun _ hbacks => hbacks.2.1)
  | request userId dto =>
    simp only [step]
    split <;> exact Moves.refl _
  | requestTx userId dto fraudScore =>
    have hwithin : Within (fun db db' => Moves (Routes (Backs (.requestTx userId dto fraudScore)))
        db.ledger db'.ledger) (Payouts.requestTx userId dto fraudScore) :=
      fun db w db' h => (moves_requestTx h).weaken (fun _ _ => trivial)
    exact hwithin.commit (fun db => Moves.refl db.ledger) s.db

end Steps

section Sample

/-- An open contest, and two users with empty wallets whose payments wait. -/
def seasonWorld : World where
  db := { Platform.openDb with
    ledger :=
      { accounts := ⟨[⟨0, .gatewayClearing, none, none, "NGN", 0⟩,
          ⟨1, .platformRevenue, none, none, "NGN", 0⟩, ⟨2, .external, none, none, "NGN", 0⟩,
          ⟨3, .userAvailable, some 7, none, "NGN", 0⟩, ⟨4, .userAvailable, some 8, none, "NGN", 0⟩,
          ⟨5, .contestEscrow, none, some 1, "NGN", 0⟩], by decide⟩
        journal := Table.empty }
    paymentIntents := ⟨[⟨0, 7, "PAYSTACK", "ref-0", 60000, .pending, none, none, none⟩,
      ⟨1, 8, "PAYSTACK", "ref-1", 5000, .pending, none, none, none⟩], by decide⟩
    bankAccounts := ⟨[⟨1, 7, "044", "Access", "0123456789", "Ada", none⟩], by decide⟩ }
  submissions := []

/-- A call that makes this many steps at this time, with nothing between them. -/
def called (now : DateTime) (call : Call) (steps : ℕ) : List (Act Call Tick) :=
  .start call :: List.replicate steps (.resume 0 (CurrencyRuns.tickAt now))

/-- The webhook and the callback of one deposit overlap. -/
def deposits : List (Act Call Tick) :=
  [.start (.platform (.deposit 0 (.success "PAYSTACK" 60000 "card"))),
    .start (.platform (.deposit 0 (.success "PAYSTACK" 60000 "card"))),
    .resume 0 (CurrencyRuns.tickAt 1), .resume 1 (CurrencyRuns.tickAt 1),
    .resume 1 (CurrencyRuns.tickAt 1), .resume 0 (CurrencyRuns.tickAt 1)] ++
  called 2 (.platform (.deposit 1 (.success "PAYSTACK" 5000 "card"))) 2

/-- A user enters the contest while a withdrawal of theirs is checked. -/
def entries : List (Act Call Tick) :=
  [.start (.request 7 ⟨55000, by decide, 1⟩), .resume 0 (CurrencyRuns.tickAt 3),
    .start (.platform (.submitSlip 7 (sampleSlip 1 "9a0e"))), .resume 1 (CurrencyRuns.tickAt 4),
    .resume 0 (CurrencyRuns.tickAt 4), .resume 0 (CurrencyRuns.tickAt 4)] ++
  called 5 (.platform (.submitSlip 8 (sampleSlip 1 "77c2"))) 2 ++
  called 100 (.platform (.lock 1)) 1

/-- The approval submits the transfer, and two webhooks report that it went through. -/
def payout : List (Act Call Tick) :=
  called 6 (.withdrawal (.decision (.approve 100 0))) 6 ++
  [.start (.withdrawal (.webhook .success 0)), .start (.withdrawal (.webhook .success 0)),
    .resume 0 (CurrencyRuns.tickAt 7), .resume 1 (CurrencyRuns.tickAt 7),
    .resume 1 (CurrencyRuns.tickAt 7), .resume 0 (CurrencyRuns.tickAt 7)]

/-- The fixtures are over and scored, and the prizes distributed. -/
def results : List (Act Call Tick) :=
  (List.range 5).flatMap (fun i =>
    called 200 (.platform (.finalize (i + 1) ⟨2, 1, 1, 0, .home⟩)) 2 ++
      called 201 (.platform (.resultFinalized (i + 1))) 6) ++
  called 202 (.platform (.distribute 1)) 2

def season : List (Act Call Tick) := deposits ++ entries ++ payout ++ results

end Sample

section Runs
variable (drawHash : ℕ → ℕ → String) {s : World}

theorem moves_run (as : List (Act Call Tick)) (c : Interleaving.Config World Task) :
    Moves (fun _ _ => True) c.shared.db.ledger ((protocol drawHash).run c as).shared.db.ledger := by
  apply Protocol.Along.run_rel (R := fun s s' => Moves (fun _ _ => True) s.db.ledger s'.db.ledger)
    (protocol drawHash) (fun s => Moves.refl s.db.ledger) (fun _ _ _ h h' => h.trans h')
  exact (protocol drawHash).along_of_forall
    (fun inp t s => (moves_step drawHash inp t s).mono (fun _ _ _ => trivial)) c as

/-- However contests, deposits and withdrawals interleave, the ledger is sound after every
step, and the journal keeps the entries that it had. -/
theorem sound_of_run (h : Booked s.db.ledger) (as bs : List (Act Call Tick)) :
    ((protocol drawHash).run ⟨s, []⟩ as).shared.db.ledger.Sound ∧
      ((protocol drawHash).run ⟨s, []⟩ as).shared.db.ledger.journal.rows <+:
        ((protocol drawHash).run ⟨s, []⟩ (as ++ bs)).shared.db.ledger.journal.rows := by
  constructor
  · exact ((moves_run drawHash as ⟨s, []⟩).booked h).sound
  · rw [Protocol.run_append]
    exact (moves_run drawHash bs _).journal_extends

theorem sound_of_run_season :
    ((protocol (fun _ _ => "")).run ⟨seasonWorld, []⟩ (deposits ++ entries)).shared.db.ledger.Sound ∧
      ((protocol (fun _ _ => "")).run ⟨seasonWorld, []⟩
        (deposits ++ entries)).shared.db.ledger.journal.rows <+:
        ((protocol (fun _ _ => "")).run ⟨seasonWorld, []⟩
          ((deposits ++ entries) ++ (payout ++ results))).shared.db.ledger.journal.rows :=
  sound_of_run (fun _ _ => "") (opening_booked rfl (by decide)) (deposits ++ entries)
    (payout ++ results)

theorem expects_next {inp : Tick} {t t' : Task} (hescrows : Ledger.Escrowed s.db.ledger.accounts)
    (h : (step drawHash inp t s).2 = some t') :
    Expects t' (step drawHash inp t s).1.db.ledger := by
  cases t with
  | platform task =>
    obtain ⟨u, hu, rfl⟩ := Option.map_eq_some_iff.1 h
    obtain ⟨call, rfl, hdb, hprepared⟩ | ⟨_, _, _, rfl⟩ | ⟨_, _, rfl⟩ := step_next drawHash hu
    · change Expects (.platform u) (Platform.step drawHash inp.platform (.ready call) s.db).1.ledger
      rw [hdb]
      cases hprepared with
      | cancelTx snap reason contestId hread =>
        obtain ⟨_, _, _, _, hescrow, _⟩ := cancelRead_ok hread
        exact fun escrow hsnap => typeOf_ofContest (hescrow.symm.trans hsnap) hescrows
      | _ => trivial
    · trivial
    · trivial
  | withdrawal task =>
    obtain ⟨u, _, rfl⟩ := Option.map_eq_some_iff.1 h
    trivial
  | request userId dto =>
    simp only [step] at h
    split at h
    · cases h
      trivial
    · cases h
  | requestTx userId dto fraudScore => cases h

/-- Sound books in which every entry has gone its way, and priced tables. -/
structure Charted (s : World) : Prop where
  booked : Booked s.db.ledger
  charted : s.db.ledger.Charted
  priced : Amounts.Priced s.db

theorem charted_inductive : (protocol drawHash).Inductive Amounts.Credited Charted
    (fun s t => Expects t s.db.ledger ∧ Amounts.Carried t) where
  init s call _ := by
    cases call with
    | withdrawal call => cases call <;> exact ⟨trivial, trivial⟩
    | _ => exact ⟨trivial, trivial⟩
  shared inp t s hs hexpects hcredited :=
    { booked := (moves_step drawHash inp t s).booked hs.booked
      charted := (moves_step drawHash inp t s).charted
        (fun _ _ hkeeps hold => ⟨hold.1.keeps hkeeps, hold.2⟩) hs.charted
        ⟨hexpects.1, hexpects.2, hcredited⟩
      priced := Amounts.priced_step drawHash inp t hs.priced }
  cont inp t s t' hs _ _ hnext :=
    ⟨expects_next drawHash hs.charted.escrows hnext, Amounts.carried_next hs.priced hnext⟩
  stable inp t s u _ _ _ hu := ⟨hu.1.keeps (moves_step drawHash inp t s).keeps, hu.2⟩

/-- However contests, deposits and withdrawals interleave, every entry takes from and gives to
the accounts meant for its type, and payouts and revenue never exceed what has been deposited. -/
theorem solvent_of_run (h : Charted s) (as : List (Act Call Tick))
    (hpaid : (protocol drawHash).Along Amounts.Credited ⟨s, []⟩ as) :
    ((protocol drawHash).run ⟨s, []⟩ as).shared.db.ledger.Charted ∧
      ((protocol drawHash).run ⟨s, []⟩ as).shared.db.ledger.Flows ∧
      ((protocol drawHash).run ⟨s, []⟩ as).shared.db.ledger.Solvent := by
  have hstart : Protocol.Holds Charted (fun s t => Expects t s.db.ledger ∧ Amounts.Carried t)
      (⟨s, []⟩ : Interleaving.Config World Task) := ⟨h, by simp⟩
  have hend := ((charted_inductive drawHash).run hstart hpaid).1
  have hflows := hend.charted.flows hend.booked.sound
  exact ⟨hend.charted, hflows, hflows.solvent hend.booked.sound.non_negative⟩

theorem solvent_of_run_season :
    ((protocol (fun _ _ => "")).run ⟨seasonWorld, []⟩ season).shared.db.ledger.Charted ∧
      ((protocol (fun _ _ => "")).run ⟨seasonWorld, []⟩ season).shared.db.ledger.Flows ∧
      ((protocol (fun _ _ => "")).run ⟨seasonWorld, []⟩ season).shared.db.ledger.Solvent := by
  have hopening : seasonWorld.db.ledger.Charted :=
    ⟨by unfold Ledger.Escrowed; decide, by intro j hj; cases hj⟩
  exact solvent_of_run (fun _ _ => "")
    ⟨opening_booked rfl (by decide), hopening, by decide, by decide⟩ season (by decide +kernel)

example : ((protocol (fun _ _ => "")).run ⟨seasonWorld, []⟩
    season).shared.db.ledger.journal.rows.map (fun j => (j.type, Ledger.moved j.lines)) =
      [(.deposit, 60000), (.deposit, 5000), (.withdrawalHold, 55000), (.entryFee, 1000),
        (.entryFee, 1000), (.withdrawalSettle, 55000), (.prizePayout, 2000)] := by decide +kernel

end Runs

section Guarded
open LedgerGuards (LineRow Tables Statement transact)

/-- The rows of `journal_lines` that belong to an entry. -/
def linesOf (j : JournalEntry) : List LineRow :=
  j.lines.map (fun line => ⟨j.id, line.accountId, line.amountMinor⟩)

/-- The journal as the database has it. -/
def tablesOf (js : List JournalEntry) : Tables := ⟨js.map JournalEntry.id, js.flatMap linesOf⟩

def insertions (j : JournalEntry) : List Statement :=
  .insertEntry j.id :: (linesOf j).map .insertLine

/-- The statements that a change of the journal takes. -/
def changes (l l' : Ledger) : List Statement :=
  l.journal.rows.flatMap (fun j =>
    match l'.journal.find j.id with
    | none => [.deleteLines (fun row => row.entryId = j.id), .deleteEntries (fun id => id = j.id)]
    | some j' =>
      if j' = j then []
      else [.updateEntries (fun id => id = j.id), .updateLines (fun row => row.entryId = j.id)]) ++
  (l'.journal.rows.filter (fun j => l.journal.find j.id = none)).flatMap insertions

variable (drawHash : ℕ → ℕ → String)

/-- A step whose transaction the database may refuse. -/
def guardedStep (inp : Tick) (t : Task) (s : World) : World × Option Task :=
  match transact (changes s.db.ledger (step drawHash inp t s).1.db.ledger)
      (tablesOf s.db.ledger.journal.rows) with
  | .ok _ => step drawHash inp t s
  | .error _ => (s, none)

def guarded : Protocol World Call Task Tick := ⟨init, guardedStep drawHash⟩

theorem sumOf_linesOf (j : JournalEntry) (entries : List ℕ) (entryId : ℕ) :
    (⟨entries, linesOf j⟩ : Tables).sumOf entryId =
      if j.id = entryId then Ledger.lineTotal j.lines else 0 := by
  unfold Tables.sumOf linesOf Ledger.lineTotal
  by_cases h : j.id = entryId
  · rw [if_pos h, List.filter_eq_self.2 (by simp [h]), List.map_map]
    rfl
  · rw [if_neg h, List.filter_eq_nil_iff.2 (by simp [h])]
    rfl

theorem balanced_tablesOf {js : List JournalEntry} (h : ∀ j ∈ js, Ledger.lineTotal j.lines = 0) :
    (tablesOf js).Balanced := by
  intro entryId
  induction js with
  | nil => rfl
  | cons j js ih =>
    have hsplit : tablesOf (j :: js) = ⟨[j.id], linesOf j⟩ ++ tablesOf js := rfl
    rw [hsplit, Tables.sumOf_append, sumOf_linesOf, ih (fun x hx => h x (List.mem_cons_of_mem _ hx)),
      h j List.mem_cons_self, ite_self, add_zero]

/-- The lines of an entry that the transaction has inserted go in one after the other. -/
theorem executeAll_insertLines {committed own : Tables} (rows : List LineRow)
    (h : ∀ row ∈ rows, row.entryId ∈ (committed ++ own).entries) (sts : List Statement) :
    LedgerGuards.executeAll committed (rows.map .insertLine ++ sts) own =
      LedgerGuards.executeAll committed sts { own with lines := own.lines ++ rows } := by
  induction rows generalizing own with
  | nil => simp
  | cons row rows ih =>
    rw [List.forall_mem_cons] at h
    rw [List.map_cons, List.cons_append, LedgerGuards.executeAll]
    simp only [LedgerGuards.execute, h.1, not_true_eq_false, if_false]
    have hrest : LedgerGuards.executeAll committed (rows.map .insertLine ++ sts)
        ⟨own.entries, own.lines ++ [row]⟩ =
          LedgerGuards.executeAll committed sts ⟨own.entries, (own.lines ++ [row]) ++ rows⟩ :=
      ih h.2
    rw [hrest, List.append_assoc, List.singleton_append]

theorem executeAll_insertions {committed own : Tables} (js : List JournalEntry)
    (hnd : ((committed ++ own).entries ++ js.map JournalEntry.id).Nodup) :
    LedgerGuards.executeAll committed (js.flatMap insertions) own = .ok (own ++ tablesOf js) := by
  induction js generalizing own with
  | nil => exact congrArg Except.ok (Tables.append_empty own).symm
  | cons j js ih =>
    have hnew : j.id ∉ (committed ++ own).entries := by
      intro hmem
      exact (List.nodup_append.1 hnd).2.2 _ hmem _ List.mem_cons_self rfl
    have hown : own ++ tablesOf (j :: js) =
        ⟨own.entries ++ [j.id], own.lines ++ linesOf j⟩ ++ tablesOf js := by
      rw [show tablesOf (j :: js) = ⟨[j.id], linesOf j⟩ ++ tablesOf js from rfl,
        ← Tables.append_assoc]
      rfl
    rw [List.flatMap_cons, insertions, List.cons_append, LedgerGuards.executeAll]
    simp only [LedgerGuards.execute, hnew, if_false]
    rw [executeAll_insertLines, ih, hown]
    · simpa using hnd
    · intro row hrow
      obtain ⟨_, _, rfl⟩ := List.mem_map.1 hrow
      simp

/-- The triggers let pass what moves the ledger from sound books to sound books. -/
theorem transact_changes {P : Ledger → PostJournalInput → Prop} {l l' : Ledger} (h : Moves P l l')
    (hl : Booked l) :
    transact (changes l l') (tablesOf l.journal.rows) = .ok (tablesOf l'.journal.rows) := by
  obtain ⟨js, hjs⟩ := h.journal_extends
  have hnd := l'.journal.nodup_ids
  rw [← hjs, List.map_append] at hnd
  have hold : ∀ j ∈ l.journal.rows, l'.journal.find j.id = some j := by
    intro j hj
    exact l'.journal.find_id (hjs ▸ List.mem_append_left js hj)
  have hnew : l'.journal.rows.filter (fun j => l.journal.find j.id = none) = js := by
    rw [← hjs, List.filter_append, List.filter_eq_nil_iff.2, List.filter_eq_self.2, List.nil_append]
    · intro j hj
      rw [decide_eq_true_iff, Table.find_eq_none_iff]
      intro j' hj' heq
      exact (List.nodup_append.1 hnd).2.2 _ (List.mem_map_of_mem hj') _ (List.mem_map_of_mem hj) heq
    · intro j hj
      rw [decide_eq_true_iff, show l.journal.find j.id = some j from l.journal.find_id hj]
      simp
  have hchanges : changes l l' = js.flatMap insertions := by
    unfold changes
    rw [hnew, List.flatMap_eq_nil_iff.2, List.nil_append]
    intro j hj
    simp only [hold j hj, if_true]
  have hexecute : LedgerGuards.executeAll (tablesOf l.journal.rows) (js.flatMap insertions)
      Tables.empty = .ok (Tables.empty ++ tablesOf js) := by
    apply executeAll_insertions
    rw [Tables.append_empty]
    exact hnd
  have hempty : Tables.empty ++ tablesOf js = tablesOf js := rfl
  have htables : tablesOf l.journal.rows ++ tablesOf js = tablesOf l'.journal.rows := by
    rw [← hjs]
    exact congrArg₂ Tables.mk List.map_append.symm List.flatMap_append.symm
  have hdeferred : LedgerGuards.runDeferred (tablesOf l'.journal.rows) (tablesOf js).lines =
      .ok () := by
    apply LedgerGuards.runDeferred_ok_iff.2
    intro row _
    exact balanced_tablesOf (fun j hj => ((h.booked hl).sound.lines_valid j hj).2.2) row.entryId
  rw [hchanges, transact, hexecute, hempty]
  simp only [htables, hdeferred]

/-- With the triggers in place every run goes as it does without them. -/
theorem guarded_run {s : World} (h : Booked s.db.ledger) (as : List (Act Call Tick)) :
    (guarded drawHash).run ⟨s, []⟩ as = (protocol drawHash).run ⟨s, []⟩ as := by
  suffices hgen : ∀ (as : List (Act Call Tick)) (c : Interleaving.Config World Task),
      Booked c.shared.db.ledger → (guarded drawHash).run c as = (protocol drawHash).run c as from
    hgen as _ h
  intro as
  induction as with
  | nil => exact fun c _ => rfl
  | cons a as ih =>
    intro c hc
    have hnext : (guarded drawHash).next c a = (protocol drawHash).next c a := by
      cases a with
      | start call => rfl
      | resume i inp =>
        cases hi : c.pending[i]? with
        | none => rw [Protocol.next_resume_none _ hi, Protocol.next_resume_none _ hi]
        | some t =>
          have hstep : guardedStep drawHash inp t c.shared = step drawHash inp t c.shared := by
            rw [guardedStep, transact_changes (moves_step drawHash inp t c.shared) hc]
          simp only [Protocol.next, hi, guarded, protocol, hstep]
    rw [Protocol.run_cons, Protocol.run_cons, hnext]
    exact ih _ ((moves_run drawHash [a] c).booked hc)

theorem guarded_run_season :
    (guarded (fun _ _ => "")).run ⟨seasonWorld, []⟩ season =
      (protocol (fun _ _ => "")).run ⟨seasonWorld, []⟩ season :=
  guarded_run (fun _ _ => "") (opening_booked rfl (by decide)) season

end Guarded

end Bookkeeping
end FootballIQ
