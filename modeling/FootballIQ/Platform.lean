import FootballIQ.Entries
import FootballIQ.Interleaving
import FootballIQ.Results
import FootballIQ.Scoring
import FootballIQ.Settlement

/-!
# The platform as one protocol

Every request and job of the contest lifecycle is a call. A step of a call is
one transaction or one read; what a read returned is carried to the later
transaction of the same call. A scoring job whose step fails, or whose worker
dies, is delivered again from its beginning.
-/

namespace FootballIQ
namespace Platform

open Transaction Relational Interleaving Contests

inductive Call where
  | deposit (reference : ℕ) (verification : Deposits.DepositVerification)
  | create (adminId : ℕ) (dto : CreateContestRequest)
  | publish (contestId : ℕ)
  | submitSlip (userId : ℕ) (dto : Entries.SubmitSlipRequest)
  | lock (contestId : ℕ)
  | cancel (contestId : ℕ) (reason : String)
  | finalize (fixtureId : ℕ) (result : Results.FinalizeResultRequest)
  | resultFinalized (fixtureId : ℕ)
  | distribute (contestId : ℕ)
  deriving DecidableEq

/-- Where a scoring job stands once it has read the result: between the matches,
or with none, one or both of its counts taken for the current match. -/
inductive Stage where
  | readMatches
  | scoreMatch (cm : ContestMatch) (rest : List ContestMatch)
  | count (cm : ContestMatch) (rest : List ContestMatch)
  | countOther (cm : ContestMatch) (rest : List ContestMatch) (predictionsFirst : Bool)
    (first : ℕ)
  | complete (cm : ContestMatch) (rest : List ContestMatch)
  deriving DecidableEq

structure ScoringJob where
  fixtureId : ℕ
  result : Scoring.FinalResult
  stage : Stage
  deriving DecidableEq

inductive Task where
  | ready (call : Call)
  | settle (intent : PaymentIntent) (verification : Deposits.DepositVerification)
  | publishTx (contest : Contest) (lockAt : DateTime)
  | submitTx (slip : Entries.PreparedSlip)
  | cancelTx (snap : CancelSnapshot) (reason : String)
  | finalizeTx (fixtureId : ℕ) (result : Results.FinalizeResultRequest)
  | scoring (job : ScoringJob)
  | distributeTx (snap : Settlement.SettlementSnapshot)
  deriving DecidableEq

/-- The clock of a step; for a scoring job also whether its worker dies before the
step, and which of the two concurrent counts comes first. -/
structure Tick where
  now : DateTime
  crash : Bool
  predictionsFirst : Bool
  deriving DecidableEq

section Job

/-- Go on with the next match of the loop, if there is one. -/
def ScoringJob.next (job : ScoringJob) : List ContestMatch → Option Task
  | [] => none
  | cm :: rest => some (.scoring { job with stage := .scoreMatch cm rest })

def ScoringJob.goto (job : ScoringJob) (stage : Stage) : Option Task :=
  some (.scoring { job with stage := stage })

/-- One of the two counts of `finalizeContestIfComplete`. -/
def countPending (predictions : Bool) (db : Db) (contestId : ℕ) : ℕ :=
  if predictions then Scoring.pendingPredictions db contestId
  else Scoring.pendingFixtures db contestId

def ScoringJob.action (tick : Tick) (job : ScoringJob) : Tx Failure Db (Option Task) := do
  throwIf (tick.crash = true) (.error "worker died")
  let db ← get
  match job.stage with
  | .readMatches => return job.next (Scoring.readMatches job.fixtureId db)
  | .scoreMatch cm rest =>
    Scoring.scoreContestMatch tick.now cm.contestId cm.id job.result
    return job.goto (.count cm rest)
  | .count cm rest =>
    return job.goto (.countOther cm rest tick.predictionsFirst
      (countPending tick.predictionsFirst db cm.contestId))
  | .countOther cm rest predictionsFirst first =>
    return if 0 < first ∨ 0 < countPending (!predictionsFirst) db cm.contestId then job.next rest
      else job.goto (.complete cm rest)
  | .complete cm rest =>
    Scoring.markScored tick.now cm.contestId
    return job.next rest

/-- What one step of a scoring job did. -/
theorem ScoringJob.action_ok {tick : Tick} {job : ScoringJob} {db db' : Db} {next : Option Task}
    (h : job.action tick db = .ok (next, db')) :
    match job.stage with
    | .readMatches => db' = db ∧ next = job.next (Scoring.readMatches job.fixtureId db)
    | .scoreMatch cm rest =>
      Scoring.scoreContestMatch tick.now cm.contestId cm.id job.result db = .ok (⟨⟩, db') ∧
        next = job.goto (.count cm rest)
    | .count cm rest => db' = db ∧ next = job.goto (.countOther cm rest tick.predictionsFirst
        (countPending tick.predictionsFirst db cm.contestId))
    | .countOther cm rest predictionsFirst first => db' = db ∧
        next = if 0 < first ∨ 0 < countPending (!predictionsFirst) db cm.contestId then job.next rest
          else job.goto (.complete cm rest)
    | .complete cm rest =>
      Scoring.markScored tick.now cm.contestId db = .ok (⟨⟩, db') ∧ next = job.next rest := by
  simp only [ScoringJob.action, bind_ok_iff, throwIf_ok_iff, get_ok_iff] at h
  obtain ⟨_, _, ⟨_, rfl⟩, _, _, ⟨rfl, rfl⟩, h⟩ := h
  cases hstage : job.stage with
  | readMatches =>
    simp only [hstage, pure_ok_iff] at h
    exact ⟨h.2.symm, h.1.symm⟩
  | scoreMatch cm rest =>
    simp only [hstage, bind_ok_iff, pure_ok_iff] at h
    obtain ⟨_, _, hs, hn, rfl⟩ := h
    exact ⟨hs, hn.symm⟩
  | count cm rest =>
    simp only [hstage, pure_ok_iff] at h
    exact ⟨h.2.symm, h.1.symm⟩
  | countOther cm rest predictionsFirst first =>
    simp only [hstage, pure_ok_iff] at h
    exact ⟨h.2.symm, h.1.symm⟩
  | complete cm rest =>
    simp only [hstage, bind_ok_iff, pure_ok_iff] at h
    obtain ⟨_, _, hs, hn, rfl⟩ := h
    exact ⟨hs, hn.symm⟩

end Job

section Calls
variable (drawHash : ℕ → ℕ → String)

/-- The first step of a call. -/
def begin_ (tick : Tick) : Call → Tx Failure Db (Option Task)
  | .deposit reference verification => do
    let intent ← Deposits.settleRead reference
    return intent.map (fun intent => .settle intent verification)
  | .create adminId dto => do
    let _ ← create tick.now adminId dto
    return none
  | .publish contestId => do
    let r ← publishRead tick.now contestId
    return some (.publishTx r.1 r.2)
  | .submitSlip userId dto => do
    let slip ← Entries.submitRead tick.now userId dto
    return some (.submitTx slip)
  | .lock contestId => do
    lock tick.now contestId
    return none
  | .cancel contestId reason => do
    let snap ← cancelRead contestId
    return some (.cancelTx snap reason)
  | .finalize fixtureId result => do
    Results.finalizeRead fixtureId
    return some (.finalizeTx fixtureId result)
  | .resultFinalized fixtureId => do
    let db ← get
    return (Scoring.readResult fixtureId db).map
      (fun result => .scoring ⟨fixtureId, result, .readMatches⟩)
  | .distribute contestId => do
    let db ← get
    return (Settlement.distributeRead drawHash contestId db).map .distributeTx

/-- The tasks that a read of `db` can leave behind. -/
inductive Prepared (now : DateTime) (db : Db) : Task → Prop
  | settle (intent : PaymentIntent) (verification : Deposits.DepositVerification) :
    Prepared now db (.settle intent verification)
  | publishTx (c : Contest) (lockAt : DateTime) (contestId : ℕ)
    (h : publishRead now contestId db = .ok ((c, lockAt), db)) :
    Prepared now db (.publishTx c lockAt)
  | submitTx (slip : Entries.PreparedSlip) (userId : ℕ) (dto : Entries.SubmitSlipRequest)
    (h : Entries.submitRead now userId dto db = .ok (slip, db)) : Prepared now db (.submitTx slip)
  | cancelTx (snap : CancelSnapshot) (reason : String) (contestId : ℕ)
    (h : cancelRead contestId db = .ok (snap, db)) : Prepared now db (.cancelTx snap reason)
  | finalizeTx (fixtureId : ℕ) (result : Results.FinalizeResultRequest) (r : PUnit × Db)
    (h : Results.finalizeRead fixtureId db = .ok r) :
    Prepared now db (.finalizeTx fixtureId result)
  | scoring (fixtureId : ℕ) (result : Scoring.FinalResult)
    (h : Scoring.readResult fixtureId db = some result) :
    Prepared now db (.scoring ⟨fixtureId, result, .readMatches⟩)
  | distributeTx (snap : Settlement.SettlementSnapshot) (contestId : ℕ)
    (h : Settlement.distributeRead drawHash contestId db = some snap) :
    Prepared now db (.distributeTx snap)

/-- The first step of a call is its creation, its lock or a read. -/
theorem begin_ok {tick : Tick} {call : Call} {db db' : Db} {next : Option Task}
    (h : begin_ drawHash tick call db = .ok (next, db')) :
    (∃ adminId dto id, call = .create adminId dto ∧
        create tick.now adminId dto db = .ok (id, db') ∧ next = none) ∨
      (∃ contestId, call = .lock contestId ∧ lock tick.now contestId db = .ok (⟨⟩, db') ∧
        next = none) ∨
      (db' = db ∧ ∀ t, next = some t → Prepared drawHash tick.now db t) := by
  cases call with
  | deposit reference verification =>
    simp only [begin_, Deposits.settleRead, bind_ok_iff, get_ok_iff, orThrow_ok_iff,
      pure_ok_iff] at h
    obtain ⟨o, _, ⟨_, _, ⟨rfl, rfl⟩, intent, _, ⟨_, rfl⟩, rfl, rfl⟩, rfl, rfl⟩ := h
    refine Or.inr (Or.inr ⟨rfl, fun t ht => ?_⟩)
    obtain ⟨i, _, rfl⟩ := Option.map_eq_some_iff.1 ht
    exact Prepared.settle i verification
  | create adminId dto =>
    simp only [begin_, bind_ok_iff, pure_ok_iff] at h
    obtain ⟨id, _, hc, rfl, rfl⟩ := h
    exact Or.inl ⟨adminId, dto, id, rfl, hc, rfl⟩
  | publish contestId =>
    simp only [begin_, bind_ok_iff, pure_ok_iff] at h
    obtain ⟨r, db₁, hr, rfl, rfl⟩ := h
    obtain ⟨rfl, _⟩ := publishRead_ok hr
    refine Or.inr (Or.inr ⟨rfl, ?_⟩)
    rintro _ ⟨⟩
    exact Prepared.publishTx r.1 r.2 contestId hr
  | submitSlip userId dto =>
    simp only [begin_, bind_ok_iff, pure_ok_iff] at h
    obtain ⟨slip, db₁, hs, rfl, rfl⟩ := h
    obtain ⟨_, _, _, _, _, rfl⟩ := Entries.submitRead_ok hs
    refine Or.inr (Or.inr ⟨rfl, ?_⟩)
    rintro _ ⟨⟩
    exact Prepared.submitTx slip userId dto hs
  | lock contestId =>
    simp only [begin_, bind_ok_iff, pure_ok_iff] at h
    obtain ⟨_, _, hl, rfl, rfl⟩ := h
    exact Or.inr (Or.inl ⟨contestId, rfl, hl, rfl⟩)
  | cancel contestId reason =>
    simp only [begin_, bind_ok_iff, pure_ok_iff] at h
    obtain ⟨snap, db₁, hs, rfl, rfl⟩ := h
    obtain ⟨_, _, _, _, _, rfl⟩ := cancelRead_ok hs
    refine Or.inr (Or.inr ⟨rfl, ?_⟩)
    rintro _ ⟨⟩
    exact Prepared.cancelTx snap reason contestId hs
  | finalize fixtureId result =>
    simp only [begin_, bind_ok_iff, pure_ok_iff] at h
    obtain ⟨u, db₁, hf, rfl, rfl⟩ := h
    obtain ⟨_, rfl⟩ := Results.finalizeRead_ok hf
    refine Or.inr (Or.inr ⟨rfl, ?_⟩)
    rintro _ ⟨⟩
    exact Prepared.finalizeTx fixtureId result _ hf
  | resultFinalized fixtureId =>
    simp only [begin_, bind_ok_iff, get_ok_iff, pure_ok_iff] at h
    obtain ⟨_, _, ⟨rfl, rfl⟩, rfl, rfl⟩ := h
    refine Or.inr (Or.inr ⟨rfl, fun t ht => ?_⟩)
    obtain ⟨result, hr, rfl⟩ := Option.map_eq_some_iff.1 ht
    exact Prepared.scoring fixtureId result hr
  | distribute contestId =>
    simp only [begin_, bind_ok_iff, get_ok_iff, pure_ok_iff] at h
    obtain ⟨_, _, ⟨rfl, rfl⟩, rfl, rfl⟩ := h
    refine Or.inr (Or.inr ⟨rfl, fun t ht => ?_⟩)
    obtain ⟨snap, hs, rfl⟩ := Option.map_eq_some_iff.1 ht
    exact Prepared.distributeTx snap contestId hs

/-- What a task does when it is resumed, and the task it leaves. -/
def action (tick : Tick) : Task → Tx Failure Db (Option Task)
  | .ready call => begin_ drawHash tick call
  | .settle intent verification => do
    let _ ← Deposits.settleTx tick.now intent verification
    return none
  | .publishTx contest lockAt => do
    publishTx tick.now contest lockAt
    return none
  | .submitTx slip => do
    let _ ← Entries.submitTx tick.now slip
    return none
  | .cancelTx snap reason => do
    cancelTx tick.now snap reason
    return none
  | .finalizeTx fixtureId result => do
    Results.finalizeTx tick.now fixtureId result
    return none
  | .scoring job => job.action tick
  | .distributeTx snap => do
    Settlement.distributeTx tick.now snap
    return none

/-- What a committed step of a call did. A write is the last step of its call. -/
theorem action_ok {tick : Tick} {t : Task} {db db' : Db} {next : Option Task}
    (h : action drawHash tick t db = .ok (next, db')) :
    match t with
    | .ready call => begin_ drawHash tick call db = .ok (next, db')
    | .settle intent verification =>
      next = none ∧ ∃ r, Deposits.settleTx tick.now intent verification db = .ok (r, db')
    | .publishTx contest lockAt =>
      next = none ∧ ∃ r, publishTx tick.now contest lockAt db = .ok (r, db')
    | .submitTx slip => next = none ∧ ∃ r, Entries.submitTx tick.now slip db = .ok (r, db')
    | .cancelTx snap reason => next = none ∧ ∃ r, cancelTx tick.now snap reason db = .ok (r, db')
    | .finalizeTx fixtureId result =>
      next = none ∧ ∃ r, Results.finalizeTx tick.now fixtureId result db = .ok (r, db')
    | .scoring job => job.action tick db = .ok (next, db')
    | .distributeTx snap =>
      next = none ∧ ∃ r, Settlement.distributeTx tick.now snap db = .ok (r, db') := by
  cases t with
  | ready call => exact h
  | scoring job => exact h
  | settle _ _ | publishTx _ _ | submitTx _ | cancelTx _ _ | finalizeTx _ _ | distributeTx _ =>
    simp only [action, bind_ok_iff, pure_ok_iff] at h
    obtain ⟨r, _, hr, rfl, rfl⟩ := h
    exact ⟨rfl, r, hr⟩

/-- A failed scoring job is delivered again; a failed request is over. -/
def retry : Task → Option Task
  | .scoring job => some (.ready (.resultFinalized job.fixtureId))
  | _ => none

def step (tick : Tick) (t : Task) (db : Db) : Db × Option Task :=
  match action drawHash tick t db with
  | .ok (next, db') => (db', next)
  | .error _ => (db, retry t)

def protocol : Protocol Db Call Task Tick := ⟨.ready, step drawHash⟩

/-- A step commits its transaction, or changes nothing and retries. -/
theorem step_cases (tick : Tick) (t : Task) (db : Db) :
    (∃ next db', action drawHash tick t db = .ok (next, db') ∧
        step drawHash tick t db = (db', next)) ∨
      ((∃ e, action drawHash tick t db = .error e) ∧
        step drawHash tick t db = (db, retry t)) := by
  unfold step
  cases h : action drawHash tick t db with
  | ok r => exact Or.inl ⟨r.1, r.2, rfl, rfl⟩
  | error e => exact Or.inr ⟨⟨e, rfl⟩, rfl⟩

/-- A task that is a single transaction commits it and is over. -/
theorem step_of_action {α : Type} {tick : Tick} {t : Task} (x : Tx Failure Db α)
    (hx : action drawHash tick t = x >>= fun _ => pure none) (hretry : retry t = none) (db : Db) :
    step drawHash tick t db = (commit x db, none) := by
  unfold step
  rw [hx]
  rcases commit_cases x db with ⟨a, db', hok, hc⟩ | ⟨e, herr, hc⟩
  · rw [bind_of_ok hok, hc]
    rfl
  · rw [bind_of_error herr, hretry, hc]

theorem ScoringJob.next_some {job : ScoringJob} {cms : List ContestMatch} {t : Task}
    (h : job.next cms = some t) :
    ∃ cm rest, cms = cm :: rest ∧ t = .scoring { job with stage := .scoreMatch cm rest } := by
  cases cms with
  | nil => cases h
  | cons cm rest => exact ⟨cm, rest, rfl, (Option.some.inj h).symm⟩

/-- Only a read and a scoring job leave a task behind. -/
theorem step_next {tick : Tick} {t t' : Task} {db : Db}
    (h : (step drawHash tick t db).2 = some t') :
    (∃ call, t = .ready call ∧ (step drawHash tick t db).1 = db ∧
        Prepared drawHash tick.now db t') ∨
      (∃ job job', t = .scoring job ∧ t' = .scoring job') ∨
      ∃ job, t = .scoring job ∧ t' = .ready (.resultFinalized job.fixtureId) := by
  rcases step_cases drawHash tick t db with ⟨next, db', hok, hs⟩ | ⟨_, hs⟩
  · rw [hs] at h ⊢
    cases t with
    | ready call =>
      rcases begin_ok drawHash hok with ⟨_, _, _, _, _, hn⟩ | ⟨_, _, _, hn⟩ | ⟨hdb, hprep⟩
      · cases hn.symm.trans h
      · cases hn.symm.trans h
      · exact Or.inl ⟨call, rfl, hdb, hprep t' h⟩
    | scoring job =>
      refine Or.inr (Or.inl ⟨job, ?_⟩)
      have hjob := ScoringJob.action_ok hok
      have hgo : ∀ stage, next = job.goto stage → ∃ job', Task.scoring job = .scoring job ∧
          t' = .scoring job' := by
        intro stage hn
        exact ⟨_, rfl, (Option.some.inj (hn.symm.trans h)).symm⟩
      have hmatch : ∀ cms, next = job.next cms → ∃ job', Task.scoring job = .scoring job ∧
          t' = .scoring job' := by
        intro cms hn
        obtain ⟨cm, rest, _, rfl⟩ := ScoringJob.next_some (hn.symm.trans h)
        exact ⟨_, rfl, rfl⟩
      cases hstage : job.stage with
      | readMatches =>
        rw [hstage] at hjob
        exact hmatch _ hjob.2
      | scoreMatch cm rest =>
        rw [hstage] at hjob
        exact hgo _ hjob.2
      | count cm rest =>
        rw [hstage] at hjob
        exact hgo _ hjob.2
      | countOther cm rest predictionsFirst first =>
        rw [hstage] at hjob
        by_cases hpos : 0 < first ∨ 0 < countPending (!predictionsFirst) db cm.contestId
        · exact hmatch rest (hjob.2.trans (if_pos hpos))
        · exact hgo _ (hjob.2.trans (if_neg hpos))
      | complete cm rest =>
        rw [hstage] at hjob
        exact hmatch _ hjob.2
    | settle _ _ | publishTx _ _ | submitTx _ | cancelTx _ _ | finalizeTx _ _ | distributeTx _ =>
      obtain ⟨hn, _⟩ := action_ok drawHash hok
      cases hn.symm.trans h
  · rw [hs] at h
    cases t with
    | scoring job => exact Or.inr (Or.inr ⟨job, rfl, (Option.some.inj h).symm⟩)
    | _ => cases h

/-- A reflexive relation that the transaction of a task stays within is kept by its step. -/
theorem step_within {R : Db → Db → Prop} (hrefl : ∀ db, R db db) {tick : Tick} {t : Task} {db : Db}
    (h : ∀ next db', action drawHash tick t db = .ok (next, db') → R db db') :
    R db (step drawHash tick t db).1 := by
  rcases step_cases drawHash tick t db with ⟨next, db', hok, hs⟩ | ⟨_, hs⟩
  · rw [hs]
    exact h next db' hok
  · rw [hs]
    exact hrefl db

end Calls

section Sample

/-- An open contest on the fixtures 1 to 5, with the standard ten slots. -/
def openContest (id : ℕ) : Contest where
  id := id
  title := "Matchday"
  status := .published
  entryFeeMinor := 1000
  fee_pos := by decide
  currency := "NGN"
  commissionBps := 1500
  maxEntries := none
  lockAt := some 100
  publishedAt := some 1
  lockedAt := none
  scoredAt := none
  settledAt := none
  cancelledAt := none
  deletedAt := none
  ruleSetId := 1
  payoutTemplateId := 1
  createdById := 1

def standardTiers : List DifficultyTier :=
  [.easy, .easy, .medium, .medium, .medium, .hard, .hard, .hard, .expert, .expert]

def matchesOf (contestId : ℕ) : List ContestMatch :=
  (List.range 5).map (fun i => ⟨10 * contestId + i, contestId, i + 1, i⟩)

def slotsOf (contestId : ℕ) : List ContestSlot :=
  standardTiers.zipIdx.map
    (fun s => ⟨10 * contestId + s.2, contestId, 10 * contestId + s.2 % 5, s.2 + 1, s.1⟩)

def samplePick (slotId : ℕ) : DifficultyTier → SlipPrediction
  | .easy => ⟨slotId, .matchWinner, "HOME"⟩
  | .medium => ⟨slotId, .btts, "YES"⟩
  | .hard => ⟨slotId, .exactGoals, "2"⟩
  | .expert => ⟨slotId, .correctScore, "2-1"⟩

/-- A valid slip for an open contest, under a client-chosen key. -/
def sampleSlip (contestId : ℕ) (idempotencyKey : String) : Entries.SubmitSlipRequest where
  contestId := contestId
  predictions := (slotsOf contestId).map (fun s => samplePick s.id s.tier)
  idempotencyKey := idempotencyKey

/-- Two open contests with their escrows, and two users with money. -/
def openDb : Db :=
  { Db.empty with
    ledger := ⟨⟨[⟨1, .platformRevenue, none, none, "NGN", 0⟩,
      ⟨2, .userAvailable, some 7, none, "NGN", 5000⟩, ⟨3, .userAvailable, some 8, none, "NGN", 5000⟩,
      ⟨4, .contestEscrow, none, some 1, "NGN", 0⟩, ⟨5, .contestEscrow, none, some 2, "NGN", 0⟩],
      by decide⟩, Table.empty⟩
    contests := ⟨[openContest 1, openContest 2], by decide⟩
    contestMatches := ⟨matchesOf 1 ++ matchesOf 2, by decide⟩
    contestSlots := ⟨slotsOf 1 ++ slotsOf 2, by decide⟩
    fixtures := ⟨(List.range 5).map
      (fun i => ⟨i + 1, 100, .scheduled, none, none, none, none, none, none⟩), by decide⟩
    ruleSets := ⟨[⟨1, true, [⟨.matchWinner, 50⟩, ⟨.btts, 100⟩, ⟨.exactGoals, 150⟩,
      ⟨.correctScore, 325⟩]⟩], by decide⟩
    payoutTemplates := ⟨[⟨1, true, [⟨1, 1, 10000⟩]⟩], by decide⟩ }

/-- Two users have entered contest 1, which is then locked. -/
def stakedDb : Db :=
  ((protocol (fun _ _ => "")).run ⟨openDb, []⟩
    [.start (.submitSlip 7 (sampleSlip 1 "9a0e")), .resume 0 ⟨10, false, false⟩,
      .resume 0 ⟨10, false, false⟩, .start (.submitSlip 8 (sampleSlip 1 "77c2")),
      .resume 0 ⟨11, false, false⟩, .resume 0 ⟨11, false, false⟩, .start (.lock 1),
      .resume 0 ⟨100, false, false⟩]).shared

end Sample

end Platform
end FootballIQ
