import FootballIQ.Currencies
import FootballIQ.LockTime

/-!
# Fees in another currency

A submission takes its fee from the naira wallet of the user and pays it to the escrow
of the contest. Over all runs of contests and withdrawals this is the only posting
that mixes currencies, and it does so for every contest that is not in naira.
-/

namespace FootballIQ
namespace CurrencyRuns

open Transaction Relational Interleaving WalletAccounts Contests Withdrawals Currencies
open Platform hiding Call Task Tick step protocol
open PayoutRace (World)

section Submission
variable {db db' : Db} {slip : Entries.PreparedSlip}

/-- The escrow that a fee goes to has the currency of the contest. -/
theorem currency_escrow (hs : Sound db) (hslip : KnowsCurrency db slip.contest)
    {escrow : LedgerAccount} (h : ofContest db.ledger.accounts slip.contest.id = some escrow) :
    escrow.type = .contestEscrow ∧ escrow.currency = slip.contest.currency := by
  obtain ⟨hmem, hcontest⟩ := ofContest_some h
  obtain ⟨htype, c, hc, hcur⟩ := hs.escrows escrow hmem _ hcontest
  obtain ⟨c', hc', hcur'⟩ := hslip
  rw [← Option.some.inj (hc.symm.trans hc')] at hcur'
  exact ⟨htype, hcur.symm.trans hcur'⟩

/-- A submission whose fee is in naira, or is not posted, advances. -/
theorem advances_submitTx {now : DateTime} {res : Entries.SubmitSlipResult}
    (h : Entries.submitTx now slip db = .ok (res, db')) (hslip : KnowsCurrency db slip.contest)
    (hfee : slip.contest.currency = "NGN" ∨ EntryGate.Stops db slip ∨
      db.ledger.entryByKey (Entries.entryKey slip.dto.idempotencyKey) ≠ none) :
    Advances db db' := by
  obtain ⟨wallet, escrow, journalId, l, hwallet, hescrow, hpost, hentered, rfl, _⟩ :=
    (Entries.submitTx_ok_iff now slip db db' res).1 h
  obtain ⟨hwmem, _, hwtype, _⟩ := ofUser_some hwallet
  obtain ⟨hemem, _⟩ := ofContest_some hescrow
  have hwfind : db.ledger.accounts.find wallet.id = some wallet := db.ledger.accounts.find_id hwmem
  have hposted : Advances db { db with ledger := l } := by
    cases hkey : db.ledger.entryByKey (Entries.entryKey slip.dto.idempotencyKey) with
    | some j =>
      obtain ⟨_, ⟨_, _, _, rfl⟩ | ⟨hnone, _⟩⟩ := Ledger.post_ok_cases hpost
      · exact Advances.refl db
      · cases hkey.symm.trans hnone
    | none =>
      apply advances_post hpost
      intro hs hcovers
      obtain ⟨hetype, hecur⟩ := currency_escrow hs hslip hescrow
      have hngn : slip.contest.currency = "NGN" := by
        obtain hngn | hstop | hreplay := hfee
        · exact hngn
        · -- the fee was posted, so nothing stopped the submission
          obtain hnone | hnone | hin | ⟨_, hlow⟩ := hstop
          · cases hwallet.symm.trans hnone
          · cases hescrow.symm.trans hnone
          · exact absurd hin hentered
          · have hne : escrow.id ≠ wallet.id := by
              intro heq
              rw [Table.eq_of_id_eq _ hemem hwmem heq, hwtype] at hetype
              cases hetype
            have hcover := hcovers ⟨wallet.id, -slip.contest.entryFeeMinor⟩
              (by simp [Entries.feeInput]) wallet hwfind (by rw [hwtype]; decide)
            simp only [Entries.feeInput, Ledger.amountOn_cons, Ledger.amountOn_nil, if_true,
              if_neg hne] at hcover
            have := hlow wallet hwallet
            omega
        · exact absurd hkey hreplay
      intro line hline
      simp only [Entries.feeInput, List.mem_cons, List.not_mem_nil, or_false] at hline
      obtain rfl | rfl := hline
      · exact naira_ofUser hwallet
      · exact ⟨escrow, db.ledger.accounts.find_id hemem, hecur.trans hngn⟩
  exact hposted.trans (advances_aside rfl (Table.Keeps.refl _ _))

/-- A submission that is not stopped posts its fee, and in another currency it mixes. -/
theorem mixes_submitTx (now : DateTime) (hs : Sound db) (hslip : KnowsCurrency db slip.contest)
    (hforeign : slip.contest.currency ≠ "NGN") (hgo : ¬ EntryGate.Stops db slip)
    (hkey : db.ledger.entryByKey (Entries.entryKey slip.dto.idempotencyKey) = none) :
    ∃ j ∈ (commit (Entries.submitTx now slip) db).ledger.journal.rows,
      ¬ Uniform (commit (Entries.submitTx now slip) db).ledger.accounts j := by
  simp only [EntryGate.Stops, not_or, not_and, not_forall, not_lt] at hgo
  obtain ⟨hw, he, hentered, hpay⟩ := hgo
  obtain ⟨escrow, hescrow⟩ := Option.ne_none_iff_exists'.1 he
  obtain ⟨wallet, hwallet, hle⟩ := hpay hkey
  obtain ⟨hwmem, _, hwtype, hwcur⟩ := ofUser_some hwallet
  obtain ⟨hemem, _⟩ := ofContest_some hescrow
  obtain ⟨hetype, hecur⟩ := currency_escrow hs hslip hescrow
  have hzero : escrow.balanceMinor = 0 :=
    hs.empty escrow hemem hetype (fun heq => hforeign (hecur.symm.trans heq))
  have hpost : ∃ r, Ledger.post (Entries.feeInput slip wallet escrow) db.ledger = .ok r := by
    apply (Ledger.post_transfer_ok_iff rfl slip.contest.fee_pos hwmem hemem
      (by rw [hwtype]; decide) (fun _ => hzero.ge) hkey).2 hle
  obtain ⟨⟨journalId, l⟩, hpost⟩ := hpost
  have hrun := (Entries.submitTx_ok_iff now slip db _ _).2
    ⟨wallet, escrow, journalId, l, hwallet, hescrow, hpost, hentered, rfl, rfl⟩
  rw [commit_of_ok hrun]
  obtain ⟨_, ⟨_, hsome, _⟩ | ⟨_, _, rfl, _⟩⟩ := Ledger.post_ok_cases hpost
  · cases hkey.symm.trans hsome
  refine ⟨_, (Ledger.mem_posted_journal _ _ _).2 (Or.inr rfl), ?_⟩
  rintro ⟨currency, hlines⟩
  have hkeeps : Table.Keeps kind db.ledger.accounts
      (Ledger.posted db.ledger (Entries.feeInput slip wallet escrow)).accounts :=
    Ledger.keeps_creditAll kind (fun _ _ => rfl) _ _
  have hone : ∀ a ∈ db.ledger.accounts.rows, ∀ amount,
      (⟨a.id, amount⟩ : JournalLine) ∈ (Entries.feeInput slip wallet escrow).lines →
      a.currency = currency := by
    intro a ha amount hmem
    obtain ⟨a', ha', hcur⟩ := hlines _ hmem
    obtain ⟨b, hb, hkind⟩ := hkeeps.find (db.ledger.accounts.find_id ha)
    rw [Option.some.inj (ha'.symm.trans hb)] at hcur
    exact (congrArg Prod.snd hkind).symm.trans hcur
  have hwallet' := hone wallet hwmem _ List.mem_cons_self
  have hescrow' := hone escrow hemem _ (List.mem_cons_of_mem _ List.mem_cons_self)
  exact hforeign (hecur.symm.trans (hescrow'.trans (hwallet'.symm.trans hwcur)))

end Submission

/-- What a call has read is still so: the currency of its contest, the kind of its escrow. -/
def Knows (s : World) (t : Task) : Prop :=
  match t with
  | .platform (.submitTx slip) => KnowsCurrency s.db slip.contest
  | .platform (.publishTx contest _) => KnowsCurrency s.db contest
  | .platform (.cancelTx snap _) => KnowsEscrow s.db snap
  | _ => True

section Steps
variable {s s' : World}

theorem Knows.advances {t : Task} (h : Knows s t) (hadvances : Advances s.db s'.db) : Knows s' t := by
  cases t with
  | platform task =>
    cases task with
    | submitTx slip => exact KnowsCurrency.advances h hadvances
    | publishTx contest lockAt => exact KnowsCurrency.advances h hadvances
    | cancelTx snap reason => exact KnowsEscrow.advances h hadvances
    | _ => trivial
  | _ => trivial

/-- Contests keep their currency where nothing but one contest is written. -/
theorem advances_contests {db db' : Db} (hl : db'.ledger = db.ledger) {p : Contest → Prop}
    [DecidablePred p] {f : Contest → Contest} (hf : ∀ c, Row.id (f c) = Row.id c)
    (hcur : ∀ c, (f c).currency = c.currency) (hc : db'.contests = db.contests.updateWhere p f hf) :
    Advances db db' := by
  apply advances_aside hl
  rw [hc]
  exact Table.keeps_updateWhere _ _ _ _ hf hcur

theorem advances_job {tick : Platform.Tick} {job : ScoringJob} {next : Option Platform.Task}
    {db db' : Db} (h : job.action tick db = .ok (next, db')) : Advances db db' := by
  have hjob := ScoringJob.action_ok h
  cases hstage : job.stage with
  | readMatches =>
    rw [hstage] at hjob
    exact hjob.1 ▸ Advances.refl db
  | scoreMatch cm rest =>
    rw [hstage] at hjob
    obtain ⟨c, ruleSet, _, _, hr⟩ := (Scoring.scoreContestMatch_ok_iff _ _ _ _ _ _).1 hjob.1
    rw [show db' = _ from hr]
    exact advances_contests rfl (by intro c; rfl) (by intro c; rfl) rfl
  | count cm rest =>
    rw [hstage] at hjob
    exact hjob.1 ▸ Advances.refl db
  | countOther cm rest predictionsFirst first =>
    rw [hstage] at hjob
    exact hjob.1 ▸ Advances.refl db
  | complete cm rest =>
    rw [hstage] at hjob
    rw [← commit_of_ok hjob.1]
    obtain ⟨c, _, _, hrun⟩ | ⟨_, hrun⟩ := Scoring.markScored_cases tick.now cm.contestId db
    · rw [hrun]
      exact advances_contests rfl (by intro c; rfl) (by intro c; rfl) rfl
    · rw [hrun]
      exact Advances.refl db

theorem advances_begin {drawHash : ℕ → ℕ → String} {tick : Platform.Tick} {call : Platform.Call}
    {next : Option Platform.Task} {db db' : Db}
    (h : begin_ drawHash tick call db = .ok (next, db')) : Advances db db' := by
  obtain ⟨adminId, dto, id, _, hcreate, _⟩ | ⟨contestId, _, hlock, _⟩ | ⟨rfl, _⟩ := begin_ok drawHash h
  · obtain ⟨ruleSet, template, ms, ss, rfl⟩ := create_ok hcreate
    exact advances_aside rfl
      (Table.keeps_insert _ _ _ (id_draftContest dto ruleSet template adminId))
  · obtain ⟨c, _, _, hrun⟩ | ⟨_, hrun⟩ := lock_cases tick.now contestId db
    · rw [hrun, Except.ok.injEq, Prod.mk.injEq] at hlock
      rw [← hlock.2]
      exact advances_contests rfl (by intro c; rfl) (by intro c; rfl) rfl
    · rw [hrun, Except.ok.injEq, Prod.mk.injEq] at hlock
      rw [← hlock.2]
      exact Advances.refl db
  · exact Advances.refl db'

/-- Under the condition on fees every step advances. -/
theorem advances_step {drawHash : ℕ → ℕ → String} (inp : Tick) {t : Task} (hknows : Knows s t)
    (hfee : FeeInNaira inp t s) : Advances s.db (step drawHash inp t s).1.db := by
  cases t with
  | platform task =>
    apply Platform.step_within drawHash Advances.refl
    intro next db' h
    cases task with
    | ready call => exact advances_begin h
    | scoring job => exact advances_job h
    | settle intent verification =>
      obtain ⟨_, status, hs⟩ := action_ok drawHash h
      exact advances_deposit hs
    | publishTx contest lockAt =>
      obtain ⟨_, _, hp⟩ := action_ok drawHash h
      exact advances_publishTx hp hknows
    | submitTx slip =>
      obtain ⟨_, _, hs⟩ := action_ok drawHash h
      exact advances_submitTx hs hknows hfee
    | cancelTx snap reason =>
      obtain ⟨_, _, hc⟩ := action_ok drawHash h
      exact advances_cancelTx hc hknows
    | finalizeTx fixtureId result =>
      obtain ⟨_, _, hf⟩ := action_ok drawHash h
      obtain ⟨_, rfl⟩ := (Results.finalizeTx_ok_iff _ _ _ _ _).1 hf
      exact advances_aside rfl (Table.Keeps.refl _ _)
    | distributeTx snap =>
      obtain ⟨_, _, hd⟩ := action_ok drawHash h
      exact advances_distributeTx hd
  | withdrawal task =>
    cases task with
    | webhook event reference => exact Advances.refl s.db
    | payout task =>
      apply PayoutFinality.payout_within Advances.refl
      · intro adminId k db u db' h
        obtain ⟨_, rfl⟩ := (Db.updateWithdrawal_ok_iff _ _ _ _ _).1 h
        exact advances_aside rfl (Table.Keeps.refl _ _)
      · intro k result db u db' h
        obtain ⟨_, rfl⟩ := (Db.updateWithdrawal_ok_iff _ _ _ _ _).1 h
        exact advances_aside rfl (Table.Keeps.refl _ _)
      · intro a db u db' h
        obtain rfl := (Db.record_ok_iff _ _ _).1 h
        exact advances_aside rfl (Table.Keeps.refl _ _)
      · intro now w _ db u db' h
        exact advances_settleTx h
      · intro now w status reason _ _ db u db' h
        exact advances_reverseTx h
  | request userId dto =>
    simp only [step]
    split <;> exact Advances.refl s.db
  | requestTx userId dto fraudScore =>
    apply Within.commit Advances.refl
    intro db w db' h
    exact advances_requestTx h

theorem knows_prepared {drawHash : ℕ → ℕ → String} {now : DateTime} {task : Platform.Task}
    (hs : Sound s.db) (h : Prepared drawHash now s.db task) : Knows s (.platform task) := by
  cases h with
  | submitTx slip userId dto h =>
    obtain ⟨_, _, hfind, _⟩ := Entries.submitRead_ok h
    exact ⟨slip.contest, hfind, rfl⟩
  | publishTx c lockAt contestId h =>
    obtain ⟨_, hfind, rfl, _⟩ := publishRead_ok h
    exact ⟨c, hfind, rfl⟩
  | cancelTx snap reason contestId h =>
    obtain ⟨hfind, _, _, _, hescrow, _⟩ := cancelRead_ok h
    intro escrow hsnap
    obtain ⟨hmem, hcontest⟩ := ofContest_some (hescrow.symm.trans hsnap)
    obtain ⟨htype, c, hc, hcur⟩ := hs.escrows escrow hmem contestId hcontest
    rw [Option.some.inj (hc.symm.trans hfind)] at hcur
    exact ⟨htype, hcur.symm, escrow, s.db.ledger.accounts.find_id hmem, rfl⟩
  | _ => trivial

theorem knows_next {drawHash : ℕ → ℕ → String} {inp : Tick} {t t' : Task} (hs : Sound s.db)
    (hadvances : Advances s.db (step drawHash inp t s).1.db)
    (h : (step drawHash inp t s).2 = some t') : Knows (step drawHash inp t s).1 t' := by
  cases t with
  | platform task =>
    obtain ⟨u, hu, rfl⟩ := Option.map_eq_some_iff.1 h
    obtain ⟨_, _, _, hprepared⟩ | ⟨_, _, _, rfl⟩ | ⟨_, _, rfl⟩ := step_next drawHash hu
    · exact (knows_prepared hs hprepared).advances hadvances
    · trivial
    · trivial
  | withdrawal task =>
    obtain ⟨u, _, rfl⟩ := Option.map_eq_some_iff.1 h
    trivial
  | request userId dto =>
    simp only [step] at h
    split at h
    · cases h
      trivial
    · cases h
  | requestTx userId dto fraudScore => cases h

/-- A step leaves the journals unmixed exactly when the fee it posts, if any, is in naira. -/
theorem step_unmixed_iff (drawHash : ℕ → ℕ → String) (inp : Tick) {t : Task} (hs : Sound s.db)
    (hknows : Knows s t) : Unmixed (step drawHash inp t s).1 ↔ FeeInNaira inp t s := by
  constructor
  · intro hunmixed
    by_contra hfee
    cases t with
    | platform task =>
      cases task with
      | submitTx slip =>
        simp only [FeeInNaira, not_or, not_not] at hfee
        obtain ⟨hforeign, hgo, hkey⟩ := hfee
        obtain ⟨j, hj, hmixed⟩ := mixes_submitTx inp.platform.now hs hknows hforeign hgo hkey
        have hdb : (step drawHash inp (.platform (.submitTx slip)) s).1.db =
            commit (Entries.submitTx inp.platform.now slip) s.db :=
          congrArg Prod.fst (step_of_action drawHash (Entries.submitTx inp.platform.now slip) rfl rfl
            s.db)
        rw [← hdb] at hj hmixed
        exact hmixed (hunmixed j hj)
      | _ => exact hfee trivial
    | _ => exact hfee trivial
  · intro hfee
    exact ((advances_step inp hknows hfee).sound hs).unmixed

end Steps

section Runs

theorem sound_inductive (drawHash : ℕ → ℕ → String) :
    (protocol drawHash).Inductive FeeInNaira (fun s => Sound s.db) Knows where
  init s call _ := by cases call <;> trivial
  shared inp t s hs hknows hfee := (advances_step inp hknows hfee).sound hs
  cont inp t s _ hs hknows hfee hnext := knows_next hs (advances_step inp hknows hfee) hnext
  stable inp t s _ _ hknows hfee hu := hu.advances (advances_step inp hknows hfee)

theorem Opening.sound {db : Db} (h : Opening db) : Sound db where
  escrows a ha k hk := by
    rw [(h.escrows a ha).1] at hk
    cases hk
  empty a ha htype _ := absurd htype (h.escrows a ha).2
  unmixed j hj := by
    rw [h.journal] at hj
    cases hj

/-- Over a run of contests and withdrawals no journal mixes currencies exactly when
every fee that the run posts is the fee of a contest in naira. -/
theorem unmixed_iff (drawHash : ℕ → ℕ → String) {s : World} (h : Opening s.db)
    (as : List (Act Call Tick)) :
    (protocol drawHash).Throughout Unmixed ⟨s, []⟩ as ↔
      (protocol drawHash).Along FeeInNaira ⟨s, []⟩ as := by
  have hs : Sound s.db := Opening.sound h
  have hstart : Protocol.Holds (fun s => Sound s.db) Knows (⟨s, []⟩ : Interleaving.Config World Task) :=
    ⟨hs, by simp⟩
  exact (sound_inductive drawHash).throughout_iff
    (fun inp t s hs hknows _ => step_unmixed_iff drawHash inp hs hknows) hstart hs.unmixed as

end Runs

section Sample

/-- A user with an empty wallet whose payment waits, and fixtures to bet on. -/
def registeredWorld : World where
  db := { LockTime.seededDb with
    ledger :=
      { accounts := ⟨[⟨0, .gatewayClearing, none, none, "NGN", 0⟩,
          ⟨1, .platformRevenue, none, none, "NGN", 0⟩, ⟨2, .userAvailable, some 7, none, "NGN", 0⟩],
          by decide⟩
        journal := Table.empty }
    paymentIntents := ⟨[⟨0, 7, "PAYSTACK", "ref-0", 5000, .pending, none, none, none⟩], by decide⟩ }
  submissions := []

def tickAt (now : DateTime) : Tick where
  platform := ⟨now, false, false⟩
  answer := ⟨"PAYSTACK", "tr-0", .processing, none⟩
  otp := .ok ⟨⟩
  fraudScore := .ok 0

/-- The user deposits, and enters a contest in the given currency. -/
def entered (currency : String) : List (Act Call Tick) :=
  [.start (.platform (.deposit 0 (.success "PAYSTACK" 5000 "card"))), .resume 0 (tickAt 1),
    .resume 0 (tickAt 1),
    .start (.platform (.create 1 { LockTime.contestRequest with currency := currency })),
    .resume 0 (tickAt 2), .start (.platform (.publish 0)), .resume 0 (tickAt 3),
    .resume 0 (tickAt 3), .start (.platform (.submitSlip 7 (sampleSlip 0 "9a0e"))),
    .resume 0 (tickAt 4), .resume 0 (tickAt 4)]

theorem unmixed_iff_entered :
    (protocol (fun _ _ => "")).Throughout Unmixed ⟨registeredWorld, []⟩ (entered "NGN") ↔
      (protocol (fun _ _ => "")).Along FeeInNaira ⟨registeredWorld, []⟩ (entered "NGN") :=
  unmixed_iff (fun _ _ => "") ⟨rfl, by decide⟩ (entered "NGN")

/-- The fee of a contest in dollars leaves a naira wallet and reaches a dollar escrow. -/
theorem mixed_by_dollars :
    ¬ (protocol (fun _ _ => "")).Throughout Unmixed ⟨registeredWorld, []⟩ (entered "USD") := by
  intro h
  have hlast := ((protocol (fun _ _ => "")).throughout_iff_prefixes _ _ _).1 h (entered "USD")
    (List.prefix_refl _)
  have hmixed : ∃ j ∈ ((protocol (fun _ _ => "")).run ⟨registeredWorld, []⟩
      (entered "USD")).shared.db.ledger.journal.rows,
      (∃ line ∈ j.lines, (((protocol (fun _ _ => "")).run ⟨registeredWorld, []⟩
        (entered "USD")).shared.db.ledger.accounts.find line.accountId).map (·.currency) =
          some "NGN") ∧
      ∃ line ∈ j.lines, (((protocol (fun _ _ => "")).run ⟨registeredWorld, []⟩
        (entered "USD")).shared.db.ledger.accounts.find line.accountId).map (·.currency) =
          some "USD" := by decide +kernel
  obtain ⟨j, hj, ⟨line, hline, hngn⟩, line', hline', husd⟩ := hmixed
  obtain ⟨currency, hlines⟩ := hlast j hj
  obtain ⟨a, ha, rfl⟩ := hlines line hline
  obtain ⟨a', ha', hsame⟩ := hlines line' hline'
  rw [ha] at hngn
  rw [ha', Option.map_some, hsame, ← Option.map_some, hngn] at husd
  exact absurd husd (by decide)

end Sample

end CurrencyRuns
end FootballIQ
