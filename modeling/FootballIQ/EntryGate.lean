import FootballIQ.Frames

/-!
# Entries and the lock

`submitSlip` checks the status of the contest in its read, and its transaction
does not look again. An entry or an entry fee is committed to a contest that is
no longer open exactly when a prepared submission reaches the end of its
transaction after the status has moved on.
-/

namespace FootballIQ
namespace EntryGate

open Transaction Relational Interleaving WalletAccounts Contests Entries Platform

/-- An entry fee of the contest, by the metadata that the posting carries. -/
def IsFeeOf (contestId : ℕ) (j : JournalEntry) : Prop :=
  j.type = .entryFee ∧ j.metadata.lookup "contestId" = some (toString contestId)

/-- Between the two states an entry of the contest or an entry fee of it was committed. -/
def CommitsEntry (contestId : ℕ) (db db' : Db) : Prop :=
  (∃ e ∈ db'.entries.rows, e.contestId = contestId ∧ ∀ x ∈ db.entries.rows, x.id ≠ e.id) ∨
    ∃ j ∈ db'.ledger.journal.rows, IsFeeOf contestId j ∧
      ∀ x ∈ db.ledger.journal.rows, x.id ≠ j.id

def IsPublished (db : Db) (contestId : ℕ) : Prop :=
  ∃ c, db.contests.find contestId = some c ∧ c.status = .published

/-- What a step commits to a contest, it commits while the contest is published. -/
def NoLateEntry (drawHash : ℕ → ℕ → String) (tick : Tick) (t : Task) (db : Db) : Prop :=
  ∀ contestId, CommitsEntry contestId db (step drawHash tick t db).1 → IsPublished db contestId

/-- The transaction of a submission ends in a failure. -/
def Stops (db : Db) (slip : PreparedSlip) : Prop :=
  ofUser db.ledger.accounts slip.userId .userAvailable "NGN" = none ∨
    ofContest db.ledger.accounts slip.contest.id = none ∨
    hasEntered db slip.contest.id slip.userId ∨
    (db.ledger.entryByKey (entryKey slip.dto.idempotencyKey) = none ∧
      ∀ wallet, ofUser db.ledger.accounts slip.userId .userAvailable "NGN" = some wallet →
        wallet.balanceMinor < slip.contest.entryFeeMinor)

/-- The contest of a submission is still open at its transaction, or nothing comes of it. -/
def StillOpen (_tick : Tick) (t : Task) (db : Db) : Prop :=
  match t with
  | .submitTx slip => IsPublished db slip.contest.id ∨ Stops db slip
  | _ => True

section Submission
variable {now : DateTime} {slip : PreparedSlip} {db db' : Db}

/-- A submission commits exactly when it does not stop. -/
theorem submit_commits_iff (now : DateTime) (slip : PreparedSlip) (db : Db)
    (hn : Ledger.NonNegative db.ledger) :
    (∃ r, submitTx now slip db = .ok r) ↔ ¬ Stops db slip := by
  have hpost : ∀ wallet escrow,
      ofUser db.ledger.accounts slip.userId .userAvailable "NGN" = some wallet →
      ofContest db.ledger.accounts slip.contest.id = some escrow →
      ((∃ r, Ledger.post (feeInput slip wallet escrow) db.ledger = .ok r) ↔
        (db.ledger.entryByKey (entryKey slip.dto.idempotencyKey) = none →
          slip.contest.entryFeeMinor ≤ wallet.balanceMinor)) := by
    intro wallet escrow hw he
    obtain ⟨hwmem, _, hwtype, _⟩ := ofUser_some hw
    obtain ⟨hemem, _⟩ := ofContest_some he
    cases hk : db.ledger.entryByKey (entryKey slip.dto.idempotencyKey) with
    | some j =>
      refine iff_of_true ⟨_, Ledger.post_replay (feeInput_valid slip wallet escrow) hk⟩ ?_
      rintro ⟨⟩
    | none =>
      rw [Ledger.post_transfer_ok_iff rfl slip.contest.fee_pos hwmem hemem
        (by rw [hwtype]; decide) (hn escrow hemem) hk]
      simp
  constructor
  · rintro ⟨r, hr⟩ hstop
    obtain ⟨wallet, escrow, journalId, l, hw, he, hp, hnot, _⟩ :=
      (submitTx_ok_iff now slip db r.2 r.1).1 hr
    rcases hstop with hnone | hnone | hin | ⟨hk, hlow⟩
    · exact Option.some_ne_none wallet (hw.symm.trans hnone)
    · exact Option.some_ne_none escrow (he.symm.trans hnone)
    · exact hnot hin
    · have hle := (hpost wallet escrow hw he).1 ⟨_, hp⟩ hk
      exact absurd (hlow wallet hw) (not_lt.2 hle)
  · intro hstop
    simp only [Stops, not_or, not_and, not_forall, not_lt] at hstop
    obtain ⟨hw, he, hnot, hpay⟩ := hstop
    obtain ⟨wallet, hw⟩ := Option.ne_none_iff_exists'.1 hw
    obtain ⟨escrow, he⟩ := Option.ne_none_iff_exists'.1 he
    have hle : db.ledger.entryByKey (entryKey slip.dto.idempotencyKey) = none →
        slip.contest.entryFeeMinor ≤ wallet.balanceMinor := by
      intro hk
      obtain ⟨wallet', hw', hle⟩ := hpay hk
      rwa [Option.some.inj (hw.symm.trans hw')]
    obtain ⟨⟨journalId, l⟩, hp⟩ := (hpost wallet escrow hw he).2 hle
    exact ⟨_, (submitTx_ok_iff now slip db _ _).2
      ⟨wallet, escrow, journalId, l, hw, he, hp, hnot, rfl, rfl⟩⟩

/-- A committed submission commits an entry to its own contest and to no other. -/
theorem commitsEntry_submit_iff {res : SubmitSlipResult}
    (hok : submitTx now slip db = .ok (res, db')) (contestId : ℕ) :
    CommitsEntry contestId db db' ↔ slip.contest.id = contestId := by
  obtain ⟨wallet, escrow, journalId, l, _, _, hpost, _, rfl, _⟩ :=
    (submitTx_ok_iff now slip db db' res).1 hok
  constructor
  · rintro (⟨e, he, hcontest, hnew⟩ | ⟨j, hj, hfee, hnew⟩)
    · rcases (mem_entered _ _ _ _ _ e).1 he with he | rfl
      · exact absurd rfl (hnew e he)
      · exact hcontest
    · rcases Ledger.mem_journal_of_post hpost hj with hj | rfl
      · exact absurd rfl (hnew j hj)
      · have hkey : toString slip.contest.id = toString contestId := Option.some.inj hfee.2
        exact Ledger.key_inj (show "" ++ toString slip.contest.id = "" ++ toString contestId by
          rw [hkey])
  · rintro rfl
    exact Or.inl ⟨_, (mem_entered _ _ _ _ _ _).2 (Or.inr rfl), rfl,
      fun x hx => db.entries.fresh_ne hx⟩

end Submission

section Steps
variable {db db' : Db}

theorem not_commitsEntry_of_frame (hf : Frame NotFee unwatched db db') (contestId : ℕ) :
    ¬ CommitsEntry contestId db db' := by
  rintro (⟨e', he', _, hnew⟩ | ⟨j, hj, hfee, hnew⟩)
  · obtain ⟨e, he, hcols⟩ := hf.entries.mem he'
    exact hnew e he (congrArg Prod.fst hcols)
  · obtain ⟨js, hjs, hnot⟩ := hf.ledger.journal
    rw [hjs] at hj
    rcases List.mem_append.1 hj with hj | hj
    · exact hnew j hj rfl
    · exact (hnot j hj).1 hfee.1

theorem not_commitsEntry_of_eq (he : db'.entries = db.entries)
    (hj : db'.ledger.journal = db.ledger.journal) (contestId : ℕ) :
    ¬ CommitsEntry contestId db db' := by
  rintro (⟨e, hmem, _, hnew⟩ | ⟨j, hmem, _, hnew⟩)
  · exact hnew e (he ▸ hmem) rfl
  · exact hnew j (hj ▸ hmem) rfl

variable (drawHash : ℕ → ℕ → String)

/-- One step commits nothing late exactly when its submission is still open or stops. -/
theorem step_noLateEntry_iff (tick : Tick) (t : Task) (db : Db)
    (hn : Ledger.NonNegative db.ledger) :
    NoLateEntry drawHash tick t db ↔ StillOpen tick t db := by
  unfold NoLateEntry
  cases t with
  | submitTx slip =>
    rw [step_of_action drawHash (submitTx tick.now slip) rfl rfl]
    rcases commit_cases (submitTx tick.now slip) db with ⟨res, db', hok, hc⟩ | ⟨e, herr, hc⟩
    · have hgo := (submit_commits_iff tick.now slip db hn).1 ⟨_, hok⟩
      simp only [hc, commitsEntry_submit_iff hok, forall_eq', StillOpen, hgo, or_false]
    · have hstop : Stops db slip := by
        by_contra hgo
        obtain ⟨r, hr⟩ := (submit_commits_iff tick.now slip db hn).2 hgo
        rw [herr] at hr
        cases hr
      refine iff_of_true (fun contestId hcommit => ?_) (Or.inr hstop)
      rw [hc] at hcommit
      exact absurd hcommit (not_commitsEntry_of_eq rfl rfl contestId)
  | publishTx contest lockAt =>
    rw [step_of_action drawHash (publishTx tick.now contest lockAt) rfl rfl]
    refine iff_of_true (fun contestId hcommit => absurd hcommit ?_) trivial
    rcases commit_cases (publishTx tick.now contest lockAt) db with ⟨u, db', hok, hc⟩ | ⟨_, _, hc⟩
    · obtain ⟨_, hr⟩ := (publishTx_ok_iff tick.now contest lockAt db (u, db')).1 hok
      rw [hc, show db' = _ from hr]
      exact not_commitsEntry_of_eq rfl rfl contestId
    · rw [hc]
      exact not_commitsEntry_of_eq rfl rfl contestId
  | ready _ | settle _ _ | cancelTx _ _ | finalizeTx _ _ | scoring _ | distributeTx _ =>
    refine iff_of_true (fun contestId hcommit => absurd hcommit ?_) trivial
    exact not_commitsEntry_of_frame
      (frame_notFee drawHash tick _ db (by rintro _ ⟨⟩) (by rintro _ _ ⟨⟩)) contestId

theorem nonNegative_step {tick : Tick} {t : Task} {db : Db} (h : Ledger.NonNegative db.ledger) :
    Ledger.NonNegative (step drawHash tick t db).1.ledger := by
  obtain ⟨slip, res, db', rfl, hok, hs⟩ | ⟨contest, lockAt, db', rfl, hok, hs⟩ | hframe :=
    step_writes drawHash tick t db
  · obtain ⟨_, _, _, _, _, _, hpost, _, rfl, _⟩ := (submitTx_ok_iff tick.now slip db db' res).1 hok
    rw [hs]
    exact (Ledger.extends_of_post hpost).nonNegative h
  · obtain ⟨_, hr⟩ := (publishTx_ok_iff tick.now contest lockAt db (⟨⟩, db')).1 hok
    rw [hs, show db' = _ from hr]
    intro a ha ht
    rcases (Table.mem_insert _ _ (id_escrowAccount _ _) a).1 ha with ha | rfl
    · obtain ⟨b, hb, rfl⟩ := (Table.mem_updateWhere _ _ _ (by intro r; rfl) a).1 ha
      split_ifs at ht ⊢ with hcontest
      · exact h b hb ht
      · exact h b hb ht
    · exact le_refl 0
  · exact hframe.ledger.nonNegative h

theorem nonNegative_inductive :
    (protocol drawHash).Inductive (fun _ _ _ => True)
      (fun db => Ledger.NonNegative db.ledger) (fun _ _ => True) where
  init _ _ _ := trivial
  shared _ _ _ h _ _ := nonNegative_step drawHash h
  cont _ _ _ _ _ _ _ _ := trivial
  stable _ _ _ _ _ _ _ _ := trivial

end Steps

/-- Along every interleaving no entry and no entry fee is committed to a contest that is
not published exactly when every submission still finds its contest open at its
transaction or stops there. -/
theorem noLateEntry_iff (drawHash : ℕ → ℕ → String) (c : Config Db Task)
    (hn : Ledger.NonNegative c.shared.ledger) (as : List (Act Call Tick)) :
    (protocol drawHash).Along (NoLateEntry drawHash) c as ↔
      (protocol drawHash).Along StillOpen c as :=
  (nonNegative_inductive drawHash).along_congr
    (fun tick t db h _ => step_noLateEntry_iff drawHash tick t db h) ⟨hn, fun _ _ => trivial⟩ as

section Late

/-- A user's submission is read before the lock job runs and commits after it. -/
def lockBetween : List (Act Call Tick) :=
  [.start (.submitSlip 7 (sampleSlip 1 "9a0e")), .resume 0 ⟨99, false, false⟩,
    .start (.lock 1), .resume 1 ⟨100, false, false⟩, .resume 0 ⟨101, false, false⟩]

theorem noLateEntry_iff_lockBetween :
    (protocol (fun _ _ => "")).Along (NoLateEntry fun _ _ => "") ⟨openDb, []⟩ lockBetween ↔
      (protocol (fun _ _ => "")).Along StillOpen ⟨openDb, []⟩ lockBetween :=
  noLateEntry_iff _ ⟨openDb, []⟩ (by unfold Ledger.NonNegative; decide) lockBetween

/-- The contest is locked and the prepared submission pending. -/
def afterLock : Config Db Task :=
  (protocol (fun _ _ => "")).run ⟨openDb, []⟩ (lockBetween.take 4)

/-- The entry is committed to a locked contest. -/
theorem late_entry_commits :
    ¬ (protocol (fun _ _ => "")).Along (NoLateEntry fun _ _ => "") ⟨openDb, []⟩ lockBetween := by
  intro h
  have hlast : ∀ t, afterLock.pending[0]? = some t →
      NoLateEntry (fun _ _ => "") ⟨101, false, false⟩ t afterLock.shared :=
    (((protocol (fun _ _ => "")).along_append _ _ (lockBetween.take 4)
      (lockBetween.drop 4)).1 h).2.1
  have hstatus : (afterLock.shared.contests.find 1).map (·.status) = some .locked := by
    decide +kernel
  have hpending : afterLock.pending[0]? ≠ none := by decide +kernel
  have hcommit : ∀ t ∈ afterLock.pending[0]?,
      ∃ e ∈ (step (fun _ _ => "") ⟨101, false, false⟩ t afterLock.shared).1.entries.rows,
        e.contestId = 1 ∧ ∀ x ∈ afterLock.shared.entries.rows, x.id ≠ e.id := by decide +kernel
  obtain ⟨t, ht⟩ := Option.ne_none_iff_exists'.1 hpending
  obtain ⟨c, hc, hpublished⟩ := hlast t ht 1 (Or.inl (hcommit t ht))
  rw [hc, Option.map_some, hpublished] at hstatus
  cases hstatus

end Late

end EntryGate
end FootballIQ
