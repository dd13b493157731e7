import FootballIQ.CurrencyRuns

/-!
# Amounts that are moved

A withdrawal is created over a positive amount and a contest with the commission of the
platform, and no later step writes either. Only a deposit credits what comes from outside,
the amount that the provider has confirmed.
-/

namespace FootballIQ
namespace Amounts

open Transaction Relational WalletAccounts Contests Withdrawals Currencies
open Platform hiding Call Task Tick step protocol
open PayoutRace (World)

/-- Withdrawals are of positive amounts, and no contest has a negative commission. -/
structure Priced (db : Db) : Prop where
  withdrawals : ∀ w ∈ db.withdrawals.rows, 0 < w.amountMinor
  contests : ∀ c ∈ db.contests.rows, 0 ≤ c.commissionBps

/-- The provider confirms a positive amount. -/
def Confirms (t : Task) : Prop :=
  match t with
  | .platform (.settle _ (.success _ amountMinor _)) => 0 < amountMinor
  | _ => True

/-- Every deposit that is settled is of a positive amount. -/
def Credited (_ : Tick) (t : Task) (_ : World) : Prop := Confirms t

instance (t : Task) : Decidable (Confirms t) := by
  unfold Confirms
  split <;> infer_instance

instance (inp : Tick) (t : Task) (s : World) : Decidable (Credited inp t s) :=
  inferInstanceAs (Decidable (Confirms t))

/-- What a pending task carries is priced. -/
def Carried (t : Task) : Prop :=
  match t with
  | .platform (.distributeTx snap) => 0 ≤ snap.contest.commissionBps
  | .withdrawal (.payout (.settleTx w)) | .withdrawal (.payout (.reverseTx w _ _ _)) =>
    0 < w.amountMinor
  | _ => True

section Tables
variable {db db' : Db}

theorem Priced.of_eq (h : Priced db) (hw : db'.withdrawals = db.withdrawals)
    (hc : db'.contests = db.contests) : Priced db' :=
  ⟨hw ▸ h.withdrawals, hc ▸ h.contests⟩

theorem Priced.contest (h : Priced db) (hw : db'.withdrawals = db.withdrawals)
    {p : Contest → Prop} [DecidablePred p] {f : Contest → Contest}
    (hf : ∀ c, Row.id (f c) = Row.id c) (hcommission : ∀ c, (f c).commissionBps = c.commissionBps)
    (hc : db'.contests = db.contests.updateWhere p f hf) : Priced db' := by
  refine ⟨hw ▸ h.withdrawals, ?_⟩
  intro c' hc'
  rw [hc] at hc'
  obtain ⟨c, hmem, rfl⟩ := (Table.mem_updateWhere _ _ _ hf c').1 hc'
  split_ifs
  · rw [hcommission]
    exact h.contests c hmem
  · exact h.contests c hmem

theorem Priced.tidy (h : Priced db) (htidy : PayoutFinality.Tidy db db')
    (hc : db'.contests = db.contests) : Priced db' := by
  refine ⟨?_, hc ▸ h.contests⟩
  intro w' hw'
  obtain ⟨w, hw, hid⟩ := htidy.rows.mem hw'
  have hamount : w.amountMinor = w'.amountMinor := congrArg (fun i => i.2.2) hid
  rw [← hamount]
  exact h.withdrawals w hw

end Tables

section Transactions
variable {db db' : Db}

theorem priced_begin {drawHash : ℕ → ℕ → String} {tick : Platform.Tick} {call : Platform.Call}
    {next : Option Platform.Task} (hdb : Priced db)
    (h : begin_ drawHash tick call db = .ok (next, db')) : Priced db' := by
  obtain ⟨adminId, dto, id, _, hcreate, _⟩ | ⟨contestId, _, hlock, _⟩ | ⟨rfl, _⟩ := begin_ok drawHash h
  · obtain ⟨ruleSet, template, ms, ss, rfl⟩ := create_ok hcreate
    refine ⟨hdb.withdrawals, ?_⟩
    intro c hc
    rcases (Table.mem_insert _ _ (id_draftContest dto ruleSet template adminId) c).1 hc with hc | rfl
    · exact hdb.contests c hc
    · exact Int.zero_le_ofNat 1500
  · obtain ⟨c, _, _, hrun⟩ | ⟨_, hrun⟩ := lock_cases tick.now contestId db
    · rw [hrun, Except.ok.injEq, Prod.mk.injEq] at hlock
      rw [← hlock.2]
      exact hdb.contest rfl (by intro c; rfl) (by intro c; rfl) rfl
    · rw [hrun, Except.ok.injEq, Prod.mk.injEq] at hlock
      rw [← hlock.2]
      exact hdb
  · exact hdb

theorem priced_job {tick : Platform.Tick} {job : ScoringJob} {next : Option Platform.Task}
    (hdb : Priced db) (h : job.action tick db = .ok (next, db')) : Priced db' := by
  have hjob := ScoringJob.action_ok h
  cases hstage : job.stage with
  | readMatches | count cm rest | countOther cm rest predictionsFirst first =>
    rw [hstage] at hjob
    exact hjob.1 ▸ hdb
  | scoreMatch cm rest =>
    rw [hstage] at hjob
    obtain ⟨_, _, _, _, hr⟩ := (Scoring.scoreContestMatch_ok_iff _ _ _ _ _ _).1 hjob.1
    rw [show db' = _ from hr]
    exact hdb.contest rfl (by intro c; rfl) (by intro c; rfl) rfl
  | complete cm rest =>
    rw [hstage] at hjob
    rw [← commit_of_ok hjob.1]
    obtain ⟨_, _, _, hrun⟩ | ⟨_, hrun⟩ := Scoring.markScored_cases tick.now cm.contestId db
    · rw [hrun]
      exact hdb.contest rfl (by intro c; rfl) (by intro c; rfl) rfl
    · rw [hrun]
      exact hdb

theorem priced_distributeTx {now : DateTime} {snap : Settlement.SettlementSnapshot}
    {r : PUnit × Db} (hdb : Priced db) (h : Settlement.distributeTx now snap db = .ok r) :
    Priced r.2 := by
  obtain ⟨escrow, platform, db₁, _, _, hpay, _, hr⟩ :=
    (Settlement.distributeTx_ok_iff now snap db r).1 h
  have hpaid : Priced db₁ := by
    rcases hpay with ⟨_, _, hpay⟩ | ⟨_, rfl⟩
    · obtain ⟨_, _, _, _, _, _, _, _, _, hout⟩ := Settlement.payOut_ok hpay
      rw [show db₁ = _ from hout]
      exact hdb.of_eq rfl rfl
    · exact hdb
  rw [hr]
  exact hpaid.contest rfl (by intro c; rfl) (by intro c; rfl) rfl

theorem priced_action {drawHash : ℕ → ℕ → String} {tick : Platform.Tick} {task : Platform.Task}
    {next : Option Platform.Task} (hdb : Priced db)
    (h : action drawHash tick task db = .ok (next, db')) : Priced db' := by
  have haction := action_ok drawHash h
  cases task with
  | ready call => exact priced_begin hdb haction
  | scoring job => exact priced_job hdb haction
  | settle intent verification =>
    obtain ⟨_, status, hrun⟩ := haction
    obtain ⟨_, _, _, rfl, _⟩ := Deposits.settleTx_ok hrun
    exact hdb.of_eq rfl rfl
  | publishTx contest lockAt =>
    obtain ⟨_, u, hrun⟩ := haction
    obtain ⟨_, hr⟩ := (publishTx_ok_iff tick.now contest lockAt db (u, db')).1 hrun
    rw [show db' = _ from hr]
    exact hdb.contest rfl (by intro c; rfl) (by intro c; rfl) rfl
  | submitTx slip =>
    obtain ⟨_, res, hrun⟩ := haction
    obtain ⟨_, _, _, _, _, _, _, _, rfl, _⟩ :=
      (Entries.submitTx_ok_iff tick.now slip db db' res).1 hrun
    exact hdb.of_eq rfl rfl
  | cancelTx snap reason =>
    obtain ⟨_, u, hrun⟩ := haction
    obtain ⟨db₁, hloop, _, hr⟩ := cancelTx_ok hrun
    obtain ⟨_, _, _, hdb₁⟩ := refunds_writes snap.entries hloop
    rw [show db' = _ from hr, show db₁ = _ from hdb₁]
    exact hdb.contest rfl (by intro c; rfl) (by intro c; rfl) rfl
  | finalizeTx fixtureId result =>
    obtain ⟨_, u, hrun⟩ := haction
    obtain ⟨_, hr⟩ := (Results.finalizeTx_ok_iff tick.now fixtureId result db (u, db')).1 hrun
    rw [show db' = _ from hr]
    exact hdb.of_eq rfl rfl
  | distributeTx snap =>
    obtain ⟨_, u, hrun⟩ := haction
    exact priced_distributeTx hdb hrun

theorem priced_requestTx {userId : ℕ} {dto : Payouts.RequestWithdrawalRequest} {fraudScore : ℕ}
    {w : Withdrawal} (hdb : Priced db)
    (h : Payouts.requestTx userId dto fraudScore db = .ok (w, db')) : Priced db' := by
  simp only [Payouts.requestTx, Payouts.createWithdrawal, bind_ok_iff, userAvailable_ok_iff,
    get_ok_iff, set_ok_iff, Db.post_ok_iff, Db.emit_ok_iff, pure_ok_iff] at h
  obtain ⟨_, _, ⟨_, rfl⟩, _, db₁, hpending, _, _, ⟨_, _, ⟨rfl, rfl⟩, _, _, rfl, rfl, rfl⟩, _, _,
    ⟨_, _, rfl⟩, _, _, rfl, rfl, rfl⟩ := h
  obtain ⟨_, rfl⟩ := getOrCreatePendingAccount_ok hpending
  refine ⟨?_, hdb.contests⟩
  intro w hw
  rcases (Table.mem_insert _ _ (Payouts.id_newWithdrawal userId dto fraudScore) w).1 hw with hw | rfl
  · exact hdb.withdrawals w hw
  · exact lt_of_lt_of_le (by decide) dto.amount_min

end Transactions

section Steps
variable {s : World}

/-- A payout writes no contest. -/
theorem contests_payout (inp : PayoutRace.Tick) (task : PayoutRace.Task) (s : World) :
    (PayoutRace.step inp task s).1.db.contests = s.db.contests := by
  apply PayoutFinality.payout_within (R := fun db db' => db'.contests = db.contests)
    (fun db => rfl)
  · intro adminId k db u db' h
    obtain ⟨_, rfl⟩ := (Db.updateWithdrawal_ok_iff _ _ _ _ _).1 h
    rfl
  · intro k result db u db' h
    obtain ⟨_, rfl⟩ := (Db.updateWithdrawal_ok_iff _ _ _ _ _).1 h
    rfl
  · intro a db u db' h
    obtain rfl := (Db.record_ok_iff _ _ _).1 h
    rfl
  · intro now w _ db u db' h
    obtain ⟨_, _, _, _, _, _, _, _, hr⟩ := settleTx_ok h
    rw [show db' = _ from hr]
  · intro now w status reason _ _ db u db' h
    obtain ⟨_, _, _, _, _, _, _, hr⟩ := reverseTx_ok h
    rw [show db' = _ from hr]

theorem priced_step (drawHash : ℕ → ℕ → String) (inp : Tick) (t : Task) (hs : Priced s.db) :
    Priced (step drawHash inp t s).1.db := by
  cases t with
  | platform task =>
    exact Platform.step_within (R := fun db db' => Priced db → Priced db') drawHash
      (fun _ hdb => hdb) (fun next db' h hdb => priced_action hdb h) hs
  | withdrawal task =>
    cases task with
    | webhook event reference => exact hs
    | payout task =>
      exact hs.tidy (PayoutFinality.tidy_payout _ task s) (contests_payout _ task s)
  | request userId dto =>
    simp only [step]
    split <;> exact hs
  | requestTx userId dto fraudScore =>
    have hwithin : Within (fun db db' => Priced db → Priced db')
        (Payouts.requestTx userId dto fraudScore) := fun db w db' h hdb => priced_requestTx hdb h
    exact hwithin.commit (fun _ hdb => hdb) s.db hs

/-- What a step leaves to be done is priced as the tables are. -/
theorem carried_next {drawHash : ℕ → ℕ → String} {inp : Tick} {t t' : Task} (hs : Priced s.db)
    (h : (step drawHash inp t s).2 = some t') : Carried t' := by
  cases t with
  | platform task =>
    obtain ⟨u, hu, rfl⟩ := Option.map_eq_some_iff.1 h
    obtain ⟨_, _, _, hprepared⟩ | ⟨_, _, _, rfl⟩ | ⟨_, _, rfl⟩ := step_next drawHash hu
    · cases hprepared with
      | distributeTx snap contestId hread =>
        have hfind := (Settlement.distributeRead_some hread).1
        exact hs.contests snap.contest ((Table.find_eq_some_iff _ _ _).1 hfind).1
      | _ => trivial
    · trivial
    · trivial
  | withdrawal task =>
    obtain ⟨u, hu, rfl⟩ := Option.map_eq_some_iff.1 h
    have hfetched := PayoutFinality.fetched_step hu
    cases u with
    | webhook event reference => trivial
    | payout task =>
      cases task with
      | settleTx w | reverseTx w status reason auditor =>
        exact hs.withdrawals w ((Table.find_eq_some_iff _ _ _).1 hfetched).1
      | _ => trivial
  | request userId dto =>
    simp only [step] at h
    split at h
    · cases h
      trivial
    · cases h
  | requestTx userId dto fraudScore => cases h

end Steps

end Amounts
end FootballIQ
