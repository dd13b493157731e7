import FootballIQ.Announcements
import FootballIQ.Outbox
import FootballIQ.Simulation
import FootballIQ.Withdrawals

/-!
# The platform behind its event queue

The calls of the API change the database and write their events into the outbox; the
relay moves the events to the queue; workers take the jobs and run the calls that the
events are routed to. A worker may die or lose its lock at any point, an answer of the
database or of Redis may get lost, and a job that failed is tried again from its
beginning. Payments, withdrawals, ratings and fixture syncs have handlers and calls of
their own beside those of the contests; of these only what they announce is fixed.
-/

namespace FootballIQ
namespace Pipeline

open Transaction Relational Interleaving Jobs
open Platform (Announces TemplatesKnown announces_aside)

section Routing

inductive LiveUpdate where
  | leaderboardUpdate | poolUpdate | contestStatus
  deriving DecidableEq

/-- One step of a handler: a call of the contest lifecycle, or what other modules do. -/
inductive Work where
  | call (call : Platform.Call)
  | pushLive (contestId : ℕ) (type : LiveUpdate)
  | recomputeForContest (contestId : ℕ)
  | computeForFixture (fixtureId : ℕ)
  | settleWithdrawal (reference : ℕ) (success : Bool) (failReason : Option String)
  deriving DecidableEq

/-- What `route` awaits, one after the other, for the topic of an envelope. -/
def route : DomainEvent → List Work
  | .matchResultFinalized fixtureId => [.call (.resultFinalized fixtureId)]
  | .contestScored contestId =>
    [.call (.distribute contestId), .pushLive contestId .leaderboardUpdate]
  | .predictionScored contestId => [.pushLive contestId .leaderboardUpdate]
  | .prizesDistributed contestId =>
    [.recomputeForContest contestId, .pushLive contestId .leaderboardUpdate]
  | .entryPaid contestId _ _ _ => [.pushLive contestId .poolUpdate]
  | .contestLocked contestId | .contestCancelled contestId _ =>
    [.pushLive contestId .contestStatus]
  | .fixtureSynced fixtureId => [.computeForFixture fixtureId]
  | .paymentWebhookReceived _ event reference =>
    if event = "transfer.success" then [.settleWithdrawal reference true none]
    else if event = "transfer.failed" ∨ event = "transfer.reversed" then
      [.settleWithdrawal reference false (some event)]
    else []
  | .contestPublished _ _ | .walletCredited _ _ _ _ | .withdrawalRequested _ _ _ _
  | .withdrawalPaid _ _ _ => []

theorem event_of_distribute {event : DomainEvent} {contestId : ℕ}
    (h : Work.call (.distribute contestId) ∈ route event) : event = .contestScored contestId := by
  cases event with
  | paymentWebhookReceived provider event reference =>
    simp only [route] at h
    split_ifs at h <;> simp at h
  | _ => simp_all [route]

theorem event_of_resultFinalized {event : DomainEvent} {fixtureId : ℕ}
    (h : Work.call (.resultFinalized fixtureId) ∈ route event) :
    event = .matchResultFinalized fixtureId := by
  cases event with
  | paymentWebhookReceived provider event reference =>
    simp only [route] at h
    split_ifs at h <;> simp at h
  | _ => simp_all [route]

/-- Handlers make no other calls than these two. -/
theorem call_of_route {event : DomainEvent} {call : Platform.Call}
    (h : Work.call call ∈ route event) :
    (∃ contestId, call = .distribute contestId) ∨ ∃ fixtureId, call = .resultFinalized fixtureId := by
  cases event with
  | paymentWebhookReceived provider event reference =>
    simp only [route] at h
    split_ifs at h <;> simp at h
  | contestScored contestId => exact Or.inl ⟨contestId, by simpa [route] using h⟩
  | matchResultFinalized fixtureId => exact Or.inr ⟨fixtureId, by simpa [route] using h⟩
  | _ => simp [route] at h

end Routing

section Changes

/-- What another module does to the database in one step: anything, as long as a contest that
it scores is announced. -/
structure Change where
  apply : Db → Db
  announces : ∀ db, Announces db (apply db)

namespace Change

/-- A transaction that announces what it does, if it commits. -/
def ofTx (x : Tx Failure Db PUnit) (h : ∀ db r, x db = .ok r → Announces db r.2) : Change where
  apply := commit x
  announces db := by
    unfold commit
    cases hrun : x db with
    | ok r => exact h db r hrun
    | error e => exact Announces.refl db

def none : Change := ⟨id, Announces.refl⟩

/-- A transaction that emits an event. -/
def emitting (event : DomainEvent) : Change :=
  ofTx (Db.emit event) (fun _ _ h => by
    rw [← (Db.emit_ok_iff _ _ _).1 h]
    exact announces_aside rfl rfl rfl)

open Withdrawals in
/-- A withdrawal is settled. -/
def settled (now : DateTime) (w : Withdrawal) : Change :=
  ofTx (settleTx now w) (fun db r h => by
    simp only [settleTx, bind_ok_iff, WalletAccounts.system_ok_iff, Db.post_ok_iff,
      Db.updateWithdrawal_ok_iff, Db.notify_ok_iff, Db.emit_ok_iff] at h
    obtain ⟨_, _, hacc, _, _, ⟨_, rfl⟩, _, _, ⟨_, _, rfl⟩, _, _, ⟨_, rfl⟩, _, _, rfl, hr⟩ := h
    obtain ⟨_, rfl⟩ := getOrCreatePendingAccount_ok hacc
    rw [← hr]
    exact announces_aside rfl rfl rfl)

open Withdrawals in
/-- A withdrawal is paid back. -/
def reversed (now : DateTime) (w : Withdrawal) (status : ReversalStatus) (reason : String) :
    Change :=
  ofTx (reverseTx now w status reason) (fun db r h => by
    obtain ⟨_, _, _, _, _, _, _, hr⟩ := reverseTx_ok h
    rw [hr]
    exact announces_aside (List.append_nil _).symm rfl rfl)

end Change

end Changes

section Model
variable {B : Broker ℕ Outbox.DomainEventEnvelope}

structure World (B : Broker ℕ Outbox.DomainEventEnvelope) where
  db : Db
  channel : Outbox.Channel B

/-- The calls that are left to the workers. -/
def FromApi : Platform.Call → Prop
  | .resultFinalized _ | .distribute _ => False
  | _ => True

inductive Call where
  | api (call : Platform.Call) (fromApi : FromApi call)
  | elsewhere
  | relay
  | worker (jobId : ℕ)
  | stalledCheck (jobId : ℕ)

/-- A call of the API or of another module, a tick of the relay, a check for a stalled job, or
a worker with its job: before the next step of the handler, within a contest call, within
another module, or about to report. -/
inductive Task where
  | api (task : Platform.Task)
  | elsewhere
  | relay (task : Outbox.Task)
  | stalledCheck (jobId : ℕ)
  | taking (jobId : ℕ)
  | working (jobId token : ℕ) (work : List Work)
  | calling (jobId token : ℕ) (task : Platform.Task) (rest : List Work)
  | beside (jobId token : ℕ) (rest : List Work)
  | failing (jobId token : ℕ)
  deriving DecidableEq

structure Tick where
  platform : Platform.Tick
  createdAt : DateTime
  answer : Outbox.Answer
  /-- What another module does, if it is its turn, and whether it goes on after it. -/
  change : Change
  more : Bool

def init : Call → Task
  | .api call _ => .api (.ready call)
  | .elsewhere => .elsewhere
  | .relay => .relay .read
  | .worker jobId => .taking jobId
  | .stalledCheck jobId => .stalledCheck jobId

/-- The rows of the new events commit with the database. -/
def World.commit (tick : Tick) (w : World B) (db : Db) : World B where
  db := db
  channel := Outbox.emitAll tick.platform.now tick.createdAt
    (db.outbox.drop w.db.outbox.length) w.channel

def World.onQueue (w : World B) (op : Op ℕ Outbox.DomainEventEnvelope) : World B :=
  { w with channel := { w.channel with queue := B.perform op w.channel.queue } }

/-- Where a worker goes on after a step of a call. -/
def resume (jobId token : ℕ) (rest : List Work) : Option Platform.Task → Task
  | some task => .calling jobId token task rest
  | none => .working jobId token rest

variable (drawHash : ℕ → ℕ → String)

def step (tick : Tick) (t : Task) (w : World B) : World B × Option Task :=
  match t with
  | .api task =>
    (w.commit tick (Platform.step drawHash tick.platform task w.db).1,
      (Platform.step drawHash tick.platform task w.db).2.map .api)
  | .elsewhere =>
    (w.commit tick (tick.change.apply w.db), if tick.more then some .elsewhere else none)
  | .relay task =>
    ({ w with channel := (Outbox.step tick.platform.now tick.answer task w.channel).1 },
      (Outbox.step tick.platform.now tick.answer task w.channel).2.map .relay)
  | .stalledCheck jobId => (w.onQueue (.stall jobId), none)
  | .taking jobId =>
    (w.onQueue (.take jobId), (B.take jobId w.channel.queue).map (fun locked =>
      .working jobId locked.1 (route locked.2.event)))
  | .working jobId token [] =>
    match tick.answer with
    | .done | .lost _ => (w.onQueue (.complete jobId token), none)
    | .refused _ => (w, none)
  | .working jobId token (.call call :: rest) => (w, some (.calling jobId token (.ready call) rest))
  | .working jobId token (_ :: rest) => (w, some (.beside jobId token rest))
  | .calling jobId token task rest =>
    match Platform.action drawHash tick.platform task w.db, tick.answer with
    | .ok (next, db), .done => (w.commit tick db, some (resume jobId token rest next))
    | .ok (_, db), .lost _ => (w.commit tick db, some (.failing jobId token))
    | .ok _, .refused _ => (w, some (.failing jobId token))
    | .error _, _ => (w, some (.failing jobId token))
  | .beside jobId token rest =>
    match tick.answer with
    | .done => (w.commit tick (tick.change.apply w.db),
      some (if tick.more then .beside jobId token rest else .working jobId token rest))
    | .lost _ => (w.commit tick (tick.change.apply w.db), some (.failing jobId token))
    | .refused _ => (w, some (.failing jobId token))
  | .failing jobId token => (w.onQueue (.fail jobId token), none)

variable (B) in
def protocol : Protocol (World B) Call Task Tick := ⟨init, step drawHash⟩

/-- What one step does, by the task that takes it. -/
inductive Effect (tick : Tick) (w : World B) : Task → World B → Option Task → Prop
  | api (task : Platform.Task) :
    Effect tick w (.api task) (w.commit tick (Platform.step drawHash tick.platform task w.db).1)
      ((Platform.step drawHash tick.platform task w.db).2.map .api)
  | elsewhere :
    Effect tick w .elsewhere (w.commit tick (tick.change.apply w.db))
      (if tick.more then some .elsewhere else none)
  | relay (task : Outbox.Task) :
    Effect tick w (.relay task)
      { w with channel := (Outbox.step tick.platform.now tick.answer task w.channel).1 }
      ((Outbox.step tick.platform.now tick.answer task w.channel).2.map .relay)
  | stall (jobId : ℕ) : Effect tick w (.stalledCheck jobId) (w.onQueue (.stall jobId)) none
  | miss (jobId : ℕ) : Effect tick w (.taking jobId) (w.onQueue (.take jobId)) none
  | take (jobId token : ℕ) (payload : Outbox.DomainEventEnvelope)
    (h : B.take jobId w.channel.queue = some (token, payload)) :
    Effect tick w (.taking jobId) (w.onQueue (.take jobId))
      (some (.working jobId token (route payload.event)))
  | complete (jobId token : ℕ) :
    Effect tick w (.working jobId token []) (w.onQueue (.complete jobId token)) none
  | forget (jobId token : ℕ) : Effect tick w (.working jobId token []) w none
  | call (jobId token : ℕ) (call : Platform.Call) (rest : List Work) :
    Effect tick w (.working jobId token (.call call :: rest)) w
      (some (.calling jobId token (.ready call) rest))
  | aside (jobId token : ℕ) (x : Work) (rest : List Work) (hx : ∀ call, x ≠ .call call) :
    Effect tick w (.working jobId token (x :: rest)) w (some (.beside jobId token rest))
  | beside (jobId token : ℕ) (rest : List Work) :
    Effect tick w (.beside jobId token rest) (w.commit tick (tick.change.apply w.db))
      (some (if tick.more then .beside jobId token rest else .working jobId token rest))
  | besideLost (jobId token : ℕ) (rest : List Work) :
    Effect tick w (.beside jobId token rest) (w.commit tick (tick.change.apply w.db))
      (some (.failing jobId token))
  | giveUp (t : Task) (jobId token : ℕ) : Effect tick w t w (some (.failing jobId token))
  | lost (jobId token : ℕ) (task : Platform.Task) (rest : List Work) (db : Db)
    (next : Option Platform.Task)
    (hok : Platform.action drawHash tick.platform task w.db = .ok (next, db)) :
    Effect tick w (.calling jobId token task rest) (w.commit tick db)
      (some (.failing jobId token))
  | run (jobId token : ℕ) (task : Platform.Task) (rest : List Work) (db : Db)
    (next : Option Platform.Task)
    (hok : Platform.action drawHash tick.platform task w.db = .ok (next, db)) :
    Effect tick w (.calling jobId token task rest) (w.commit tick db)
      (some (resume jobId token rest next))
  | fail (jobId token : ℕ) :
    Effect tick w (.failing jobId token) (w.onQueue (.fail jobId token)) none

theorem effect_step (tick : Tick) (t : Task) (w : World B) :
    Effect drawHash tick w t (step drawHash tick t w).1 (step drawHash tick t w).2 := by
  cases t with
  | api task => exact Effect.api task
  | elsewhere => exact Effect.elsewhere
  | relay task => exact Effect.relay task
  | stalledCheck jobId => exact Effect.stall jobId
  | taking jobId =>
    simp only [step]
    cases h : B.take jobId w.channel.queue with
    | none => exact Effect.miss jobId
    | some locked => exact Effect.take jobId locked.1 locked.2 h
  | working jobId token work =>
    cases work with
    | nil =>
      cases hanswer : tick.answer with
      | done | lost _ =>
        simp only [step, hanswer]
        exact Effect.complete jobId token
      | refused _ =>
        simp only [step, hanswer]
        exact Effect.forget jobId token
    | cons x rest =>
      cases x with
      | call call => exact Effect.call jobId token call rest
      | pushLive _ _ | recomputeForContest _ | computeForFixture _ | settleWithdrawal _ _ _ =>
        exact Effect.aside jobId token _ rest (fun _ hx => by cases hx)
  | beside jobId token rest =>
    cases hanswer : tick.answer with
    | done =>
      simp only [step, hanswer]
      exact Effect.beside jobId token rest
    | lost _ =>
      simp only [step, hanswer]
      exact Effect.besideLost jobId token rest
    | refused _ =>
      simp only [step, hanswer]
      exact Effect.giveUp _ jobId token
  | calling jobId token task rest =>
    cases hok : Platform.action drawHash tick.platform task w.db with
    | error e =>
      cases hanswer : tick.answer <;>
        simp only [step, hok, hanswer] <;> exact Effect.giveUp _ jobId token
    | ok r =>
      cases hanswer : tick.answer with
      | done =>
        simp only [step, hok, hanswer]
        exact Effect.run jobId token task rest r.2 r.1 hok
      | lost _ =>
        simp only [step, hok, hanswer]
        exact Effect.lost jobId token task rest r.2 r.1 hok
      | refused _ =>
        simp only [step, hok, hanswer]
        exact Effect.giveUp _ jobId token
  | failing jobId token => exact Effect.fail jobId token

end Model

section Consistency
variable {B : Broker ℕ Outbox.DomainEventEnvelope}

/-- The outbox table is the outbox of the database, and the channel is sound. -/
structure Consistent (w : World B) : Prop where
  channel : Outbox.Sound w.channel
  mirror : w.channel.rows.rows.map (fun r => r.payload.event) = w.db.outbox
  templates : TemplatesKnown w.db

/-- The row with this id announces this event. -/
def RowOf (w : World B) (id : ℕ) (event : DomainEvent) : Prop :=
  ∃ r ∈ w.channel.rows.rows, r.id = id ∧ r.payload.event = event

/-- Rows and events stay. -/
structure Grows (w w' : World B) : Prop where
  channel : Outbox.Grows w.channel w'.channel
  outbox : w.db.outbox <+: w'.db.outbox

def FromApiTask : Platform.Task → Prop
  | .ready call => FromApi call
  | .scoring _ => False
  | _ => True

/-- The task is a step of this call of a handler. -/
def Follows (call : Platform.Call) : Platform.Task → Prop
  | .ready call' => call' = call
  | .scoring job => call = .resultFinalized job.fixtureId
  | .distributeTx snap => call = .distribute snap.contest.id
  | _ => False

/-- What a task knows: the work of a worker is what is left of the route of a row. -/
def Knows (w : World B) : Task → Prop
  | .api task => FromApiTask task
  | .relay task => Outbox.Knows w.channel task
  | .working jobId _ work => ∃ event, RowOf w jobId event ∧ work <:+ route event
  | .beside jobId _ rest => ∃ event, RowOf w jobId event ∧ rest <:+ route event
  | .calling jobId _ task rest => ∃ event call, RowOf w jobId event ∧
      Work.call call :: rest <:+ route event ∧ Follows call task
  | _ => True

variable {w w' w'' : World B}

theorem Grows.refl (w : World B) : Grows w w := ⟨Outbox.Grows.refl _, List.prefix_rfl⟩

theorem RowOf.grows {id : ℕ} {event : DomainEvent} (h : RowOf w id event)
    (hg : Outbox.Grows w.channel w'.channel) : RowOf w' id event := by
  obtain ⟨r, hr, hid, hevent⟩ := h
  obtain ⟨r', hr', hid', hpayload⟩ := hg.rows r hr
  exact ⟨r', hr', hid'.trans hid, by rw [hpayload, hevent]⟩

theorem RowOf.event_eq {id : ℕ} {event event' : DomainEvent} (h : RowOf w id event)
    (h' : RowOf w id event') : event = event' := by
  obtain ⟨r, hr, hid, rfl⟩ := h
  obtain ⟨r', hr', hid', rfl⟩ := h'
  rw [w.channel.rows.eq_of_id_eq hr hr' (hid.trans hid'.symm)]

theorem Consistent.mem_outbox (hw : Consistent w) {id : ℕ} {event : DomainEvent}
    (h : RowOf w id event) : event ∈ w.db.outbox := by
  obtain ⟨r, hr, _, rfl⟩ := h
  rw [← hw.mirror]
  exact List.mem_map_of_mem hr

theorem Knows.grows {t : Task} (h : Knows w t) (hg : Outbox.Grows w.channel w'.channel) :
    Knows w' t := by
  cases t with
  | api task => exact h
  | relay task => exact Outbox.Knows.grows h hg
  | working jobId token work =>
    obtain ⟨event, hrow, hwork⟩ := h
    exact ⟨event, hrow.grows hg, hwork⟩
  | beside jobId token rest =>
    obtain ⟨event, hrow, hwork⟩ := h
    exact ⟨event, hrow.grows hg, hwork⟩
  | calling jobId token task rest =>
    obtain ⟨event, call, hrow, hwork⟩ := h
    exact ⟨event, call, hrow.grows hg, hwork⟩
  | elsewhere | stalledCheck | taking | failing => trivial

/-- A commit of an announced change keeps table and outbox in step. -/
theorem Consistent.commit (hw : Consistent w) (tick : Tick) {db : Db} (h : Announces w.db db) :
    Consistent (w.commit tick db) where
  channel := Outbox.sound_emitAll _ _ _ hw.channel
  mirror := by
    obtain ⟨events, hevents⟩ := h.outbox
    refine (Outbox.events_emitAll _ _ _ w.channel).trans ?_
    rw [hw.mirror, ← hevents, List.drop_left]
    exact hevents
  templates := h.templates hw.templates

theorem grows_commit (tick : Tick) {db : Db} (h : Announces w.db db) : Grows w (w.commit tick db) :=
  ⟨Outbox.grows_emitAll _ _ _ w.channel, h.outbox⟩

section Queueing
variable (hB : B.Documented Outbox.options)
include hB

theorem Consistent.onQueue (hw : Consistent w) {op : Op ℕ Outbox.DomainEventEnvelope}
    (hop : ∀ id payload, op ≠ .add id payload) : Consistent (w.onQueue op) where
  channel := hw.channel.perform hB (fun id payload h => absurd h (hop id payload))
  mirror := hw.mirror
  templates := hw.templates

theorem grows_onQueue (w : World B) (op : Op ℕ Outbox.DomainEventEnvelope) :
    Grows w (w.onQueue op) := ⟨Outbox.grows_perform hB w.channel op, List.prefix_rfl⟩

/-- The job that a worker takes carries the event of its row. -/
theorem rowOf_take (hw : Consistent w) {jobId token : ℕ} {payload : Outbox.DomainEventEnvelope}
    (h : B.take jobId w.channel.queue = some (token, payload)) : RowOf w jobId payload.event := by
  obtain ⟨j, hj, hid, hdata⟩ := hB.hands w.channel.queue jobId token payload h
  obtain ⟨r, hr, hrid, hpayload⟩ := hw.channel.authentic.jobs j hj
  exact ⟨r, hr, hrid.trans hid, by rw [hpayload, hdata]⟩

end Queueing

/-- A run starts with an empty outbox and an empty queue, and no contest in SCORED. -/
structure Opening (w : World B) : Prop where
  channel : w.channel = ⟨Table.empty, B.empty⟩
  outbox : w.db.outbox = []
  unscored : ∀ c ∈ w.db.contests.rows, c.status ≠ .scored
  templates : TemplatesKnown w.db

theorem Opening.consistent (hB : B.Documented Outbox.options) (h : Opening w) : Consistent w where
  channel := by
    rw [h.channel]
    refine ⟨?_, ⟨?_, ?_⟩, by rintro r ⟨⟩, by rintro r ⟨⟩⟩
    · rw [hB.completions_empty]
      intro xs ys zs id h
      simp at h
    · simp [hB.jobs_empty]
    · simp [hB.completions_empty]
  mirror := by
    rw [h.channel, h.outbox]
    rfl
  templates := h.templates

end Consistency

section Continuations
variable {drawHash : ℕ → ℕ → String} {tick : Platform.Tick} {db db' : Db}

/-- A request never turns into a call of a handler. -/
theorem fromApi_next {call : Platform.Call} (hcall : FromApi call) {next : Option Platform.Task}
    (h : Platform.begin_ drawHash tick call db = .ok (next, db')) {t : Platform.Task}
    (ht : next = some t) : FromApiTask t := by
  subst ht
  cases call with
  | deposit reference verification =>
    simp only [Platform.begin_, bind_ok_iff, pure_ok_iff] at h
    obtain ⟨_, _, _, hnext, _⟩ := h
    obtain ⟨_, _, rfl⟩ := Option.map_eq_some_iff.1 hnext
    trivial
  | create adminId dto =>
    simp only [Platform.begin_, bind_ok_iff, pure_ok_iff] at h
    obtain ⟨_, _, _, hnext, _⟩ := h
    cases hnext
  | lock contestId =>
    simp only [Platform.begin_, bind_ok_iff, pure_ok_iff] at h
    obtain ⟨_, _, _, hnext, _⟩ := h
    cases hnext
  | publish _ | submitSlip _ _ | cancel _ _ | finalize _ _ =>
    simp only [Platform.begin_, bind_ok_iff, pure_ok_iff] at h
    obtain ⟨_, _, _, hnext, _⟩ := h
    cases hnext
    trivial
  | resultFinalized fixtureId => exact absurd hcall id
  | distribute contestId => exact absurd hcall id

theorem fromApiTask_step {t t' : Platform.Task} (ht : FromApiTask t)
    (h : (Platform.step drawHash tick t db).2 = some t') : FromApiTask t' := by
  rcases Platform.step_cases drawHash tick t db with ⟨next, db', hok, hs⟩ | ⟨_, hs⟩
  · rw [hs] at h
    cases t with
    | ready call => exact fromApi_next ht hok h
    | scoring job => exact absurd ht id
    | settle _ _ | publishTx _ _ | submitTx _ | cancelTx _ _ | finalizeTx _ _ | distributeTx _ =>
      obtain ⟨hn, _⟩ := Platform.action_ok drawHash hok
      cases hn.symm.trans h
  · rw [hs] at h
    cases t with
    | scoring job => exact absurd ht id
    | _ => cases h

theorem follows_job {job : Platform.ScoringJob} {next : Option Platform.Task}
    (h : job.action tick db = .ok (next, db')) {t : Platform.Task} (ht : next = some t) :
    Follows (.resultFinalized job.fixtureId) t := by
  have hgo : ∀ stage, next = job.goto stage → Follows (.resultFinalized job.fixtureId) t := by
    intro stage hn
    rw [← Option.some.inj (hn.symm.trans ht)]
    rfl
  have hmatch : ∀ cms, next = job.next cms → Follows (.resultFinalized job.fixtureId) t := by
    intro cms hn
    obtain ⟨cm, rest, _, rfl⟩ := Platform.ScoringJob.next_some (hn.symm.trans ht)
    rfl
  have hjob := Platform.ScoringJob.action_ok h
  cases hstage : job.stage with
  | readMatches | complete _ _ =>
    rw [hstage] at hjob
    exact hmatch _ hjob.2
  | scoreMatch _ _ | count _ _ =>
    rw [hstage] at hjob
    exact hgo _ hjob.2
  | countOther cm rest predictionsFirst first =>
    rw [hstage] at hjob
    by_cases hpos : 0 < first ∨ 0 < Platform.countPending (!predictionsFirst) db cm.contestId
    · exact hmatch rest (hjob.2.trans (if_pos hpos))
    · exact hgo _ (hjob.2.trans (if_neg hpos))

/-- A handler's call goes on as itself. -/
theorem follows_action {call : Platform.Call} (hcall : ¬ FromApi call) {t : Platform.Task}
    (ht : Follows call t) {next : Option Platform.Task}
    (h : Platform.action drawHash tick t db = .ok (next, db')) {t' : Platform.Task}
    (hnext : next = some t') : Follows call t' := by
  cases t with
  | ready call' =>
    cases ht
    cases call with
    | resultFinalized fixtureId =>
      simp only [Platform.action, Platform.begin_, bind_ok_iff, get_ok_iff, pure_ok_iff] at h
      obtain ⟨_, _, ⟨rfl, rfl⟩, rfl, _⟩ := h
      obtain ⟨result, _, rfl⟩ := Option.map_eq_some_iff.1 hnext
      rfl
    | distribute contestId =>
      simp only [Platform.action, Platform.begin_, bind_ok_iff, get_ok_iff, pure_ok_iff] at h
      obtain ⟨_, _, ⟨rfl, rfl⟩, rfl, _⟩ := h
      obtain ⟨snap, hsnap, rfl⟩ := Option.map_eq_some_iff.1 hnext
      exact congrArg Platform.Call.distribute (Settlement.distributeRead_some hsnap).2.1.symm
    | _ => exact absurd trivial hcall
  | scoring job =>
    cases ht
    exact follows_job h hnext
  | distributeTx snap =>
    obtain ⟨hn, _⟩ := Platform.action_ok drawHash h
    cases hn.symm.trans hnext
  | settle _ _ | publishTx _ _ | submitTx _ | cancelTx _ _ | finalizeTx _ _ => exact absurd ht id

end Continuations

section Steps
variable {B : Broker ℕ Outbox.DomainEventEnvelope} (hB : B.Documented Outbox.options)
  (drawHash : ℕ → ℕ → String) {w w' : World B} {tick : Tick} {t : Task} {next : Option Task}
include hB

theorem Consistent.step (hw : Consistent w) (ht : Knows w t)
    (h : Effect drawHash tick w t w' next) : Consistent w' ∧ Grows w w' := by
  have hqueue : ∀ op, (∀ id payload, op ≠ .add id payload) →
      Consistent (w.onQueue op) ∧ Grows w (w.onQueue op) :=
    fun op hop => ⟨hw.onQueue hB hop, grows_onQueue hB w op⟩
  cases h with
  | api task =>
    have hannounces := Platform.announces_step drawHash tick.platform task w.db
    exact ⟨hw.commit tick hannounces, grows_commit tick hannounces⟩
  | elsewhere | beside | besideLost =>
    have hannounces := tick.change.announces w.db
    exact ⟨hw.commit tick hannounces, grows_commit tick hannounces⟩
  | relay task =>
    obtain ⟨hsound, hgrows, _⟩ := Outbox.step_sound hB tick.platform.now tick.answer hw.channel ht
    refine ⟨⟨hsound, ?_, hw.templates⟩, ⟨hgrows, List.prefix_rfl⟩⟩
    have hsame := Outbox.same_step tick.platform.now tick.answer task w.channel
    have hevents := congrArg (List.map Outbox.DomainEventEnvelope.event) hsame
    rw [List.map_map, List.map_map] at hevents
    exact hevents.trans hw.mirror
  | stall jobId => exact hqueue _ (fun _ _ hop => by cases hop)
  | miss jobId => exact hqueue _ (fun _ _ hop => by cases hop)
  | take jobId token payload htake => exact hqueue _ (fun _ _ hop => by cases hop)
  | complete jobId token => exact hqueue _ (fun _ _ hop => by cases hop)
  | fail jobId token => exact hqueue _ (fun _ _ hop => by cases hop)
  | forget | call | aside | giveUp => exact ⟨hw, Grows.refl w⟩
  | lost jobId token task rest db next hok =>
    have hannounces := Platform.announces_action drawHash hok
    exact ⟨hw.commit tick hannounces, grows_commit tick hannounces⟩
  | run jobId token task rest db next hok =>
    have hannounces := Platform.announces_action drawHash hok
    exact ⟨hw.commit tick hannounces, grows_commit tick hannounces⟩

/-- A continuation knows what its task knew. -/
theorem knows_next (hw : Consistent w) (ht : Knows w t)
    (h : Effect drawHash tick w t w' next) {t' : Task} (hnext : next = some t') : Knows w' t' := by
  have hgrows := (hw.step hB drawHash ht h).2.channel
  cases h with
  | api task =>
    obtain ⟨task', htask, rfl⟩ := Option.map_eq_some_iff.1 hnext
    exact fromApiTask_step ht htask
  | relay task =>
    obtain ⟨task', htask, rfl⟩ := Option.map_eq_some_iff.1 hnext
    exact (Outbox.step_sound hB tick.platform.now tick.answer hw.channel ht).2.2 task' htask
  | elsewhere =>
    cases hmore : tick.more <;> simp only [hmore, Bool.false_eq_true, if_true, if_false] at hnext
    · cases hnext
    · rw [← Option.some.inj hnext]
      trivial
  | stall | miss | complete | fail | forget => cases hnext
  | take jobId token payload htake =>
    rw [← Option.some.inj hnext]
    exact ⟨payload.event, (rowOf_take hB hw htake).grows hgrows, List.suffix_rfl⟩
  | call jobId token call rest =>
    obtain ⟨event, hrow, hwork⟩ := ht
    rw [← Option.some.inj hnext]
    exact ⟨event, call, hrow, hwork, rfl⟩
  | aside jobId token x rest hx =>
    obtain ⟨event, hrow, hwork⟩ := ht
    rw [← Option.some.inj hnext]
    exact ⟨event, hrow, (List.suffix_cons x rest).trans hwork⟩
  | beside jobId token rest =>
    obtain ⟨event, hrow, hwork⟩ := ht
    rw [← Option.some.inj hnext]
    cases tick.more <;> exact ⟨event, hrow.grows hgrows, hwork⟩
  | giveUp | lost | besideLost =>
    rw [← Option.some.inj hnext]
    trivial
  | run jobId token task rest db next hok =>
    obtain ⟨event, call, hrow, hwork, hfollows⟩ := ht
    rw [← Option.some.inj hnext]
    cases next with
    | none => exact ⟨event, hrow.grows hgrows, (List.suffix_cons _ rest).trans hwork⟩
    | some task' =>
      refine ⟨event, call, hrow.grows hgrows, hwork, ?_⟩
      refine follows_action ?_ hfollows hok rfl
      rcases call_of_route (hwork.subset List.mem_cons_self) with ⟨_, rfl⟩ | ⟨_, rfl⟩
      · exact id
      · exact id

/-- Channel, outbox and tasks fit together in every run. -/
theorem consistent_inductive (F : Tick → Task → World B → Prop) :
    (protocol B drawHash).Inductive F Consistent Knows where
  init w k _ := by
    cases k with
    | api call fromApi => exact fromApi
    | elsewhere | relay | worker _ | stalledCheck _ => trivial
  shared tick t w hw ht _ := (hw.step hB drawHash ht (effect_step drawHash tick t w)).1
  cont tick t w t' hw ht _ hnext :=
    knows_next hB drawHash hw ht (effect_step drawHash tick t w) hnext
  stable tick t w u hw ht _ hu :=
    hu.grows (hw.step hB drawHash ht (effect_step drawHash tick t w)).2.channel

end Steps

section Plain
variable (drawHash : ℕ → ℕ → String)

inductive PlainCall where
  | contest (call : Platform.Call)
  | elsewhere

inductive PlainTask where
  | contest (task : Platform.Task)
  | elsewhere

/-- The contest calls, and what the other modules do, without relay, queue and workers. -/
def plain : Protocol Db PlainCall PlainTask (Platform.Tick × Change) where
  init
    | .contest call => .contest (.ready call)
    | .elsewhere => .elsewhere
  step tick t db :=
    match t with
    | .contest task =>
      ((Platform.step drawHash tick.1 task db).1,
        (Platform.step drawHash tick.1 task db).2.map .contest)
    | .elsewhere => (tick.2.apply db, some .elsewhere)

/-- A call of a handler runs only after the event that it handles, and the other modules do
nothing but these changes. -/
def Caused (changes : Set Change) (tick : Platform.Tick × Change) (t : PlainTask) (db : Db) :
    Prop :=
  match t with
  | .contest (.ready (.distribute contestId)) => .contestScored contestId ∈ db.outbox
  | .contest (.ready (.resultFinalized fixtureId)) => .matchResultFinalized fixtureId ∈ db.outbox
  | .contest _ => True
  | .elsewhere => tick.2 ∈ changes

end Plain

section Refinement
variable {B : Broker ℕ Outbox.DomainEventEnvelope} (hB : B.Documented Outbox.options)
  (drawHash : ℕ → ℕ → String) {changes : Set Change}

/-- What a task does without relay, queue and workers. -/
def plainTask : Task → Option PlainTask
  | .api task => some (.contest task)
  | .calling _ _ task _ => some (.contest task)
  | .elsewhere | .beside _ _ _ => some .elsewhere
  | _ => none

theorem caused_of_knows {w : World B} (hw : Consistent w) {t : Task} (ht : Knows w t)
    {task : PlainTask} (htask : plainTask t = some task) {tick : Platform.Tick × Change}
    (htick : tick.2 ∈ changes) : Caused changes tick task w.db := by
  cases t with
  | api task' =>
    rw [← Option.some.inj htask]
    cases task' with
    | ready call =>
      cases call with
      | resultFinalized _ | distribute _ => exact absurd ht id
      | _ => trivial
    | _ => trivial
  | calling jobId token task' rest =>
    obtain ⟨event, call, hrow, hwork, hfollows⟩ := ht
    have hevent := hw.mem_outbox hrow
    have hmem := hwork.subset List.mem_cons_self
    rw [← Option.some.inj htask]
    cases task' with
    | ready call' =>
      rw [show call' = call from hfollows]
      rcases call_of_route hmem with ⟨contestId, rfl⟩ | ⟨fixtureId, rfl⟩
      · rwa [event_of_distribute hmem] at hevent
      · rwa [event_of_resultFinalized hmem] at hevent
    | _ => trivial
  | elsewhere | beside =>
    rw [← Option.some.inj htask]
    exact htick
  | _ => cases htask

/-- Each step is a step of the plain platform, or none. -/
theorem mimics_effect {w w' : World B} (hw : Consistent w) {tick : Tick}
    (htick : tick.change ∈ changes) {t : Task} (ht : Knows w t) {next : Option Task}
    (h : Effect drawHash tick w t w' next) :
    Protocol.Mimics (plain drawHash) (Caused changes) w.db w'.db (plainTask t)
      (next.bind plainTask) := by
  have hcaused : ∀ task, plainTask t = some task →
      Caused changes (tick.platform, tick.change) task w.db :=
    fun task htask => caused_of_knows hw ht htask htick
  cases h with
  | api task =>
    refine Protocol.Mimics.step (tick.platform, tick.change) (.contest task) rfl
      (hcaused _ rfl) rfl (Or.inr ?_)
    change _ = (Platform.step drawHash tick.platform task w.db).2.map PlainTask.contest
    cases (Platform.step drawHash tick.platform task w.db).2 <;> rfl
  | elsewhere =>
    refine Protocol.Mimics.step (tick.platform, tick.change) .elsewhere rfl (hcaused _ rfl) rfl ?_
    cases tick.more
    · exact Or.inl rfl
    · exact Or.inr rfl
  | relay task =>
    refine Protocol.Mimics.drop rfl ?_
    cases (Outbox.step tick.platform.now tick.answer task w.channel).2 <;> rfl
  | stall | miss | take | complete | forget | giveUp | fail =>
    exact Protocol.Mimics.drop rfl rfl
  | call jobId token call rest => exact Protocol.Mimics.start (.contest call) rfl rfl
  | aside => exact Protocol.Mimics.start .elsewhere rfl rfl
  | beside =>
    refine Protocol.Mimics.step (tick.platform, tick.change) .elsewhere rfl (hcaused _ rfl) rfl ?_
    cases tick.more
    · exact Or.inl rfl
    · exact Or.inr rfl
  | besideLost =>
    exact Protocol.Mimics.step (tick.platform, tick.change) .elsewhere rfl (hcaused _ rfl) rfl
      (Or.inl rfl)
  | lost jobId token task rest db next hok =>
    refine Protocol.Mimics.step (tick.platform, tick.change) (.contest task) rfl
      (hcaused _ rfl) ?_ (Or.inl rfl)
    change db = (Platform.step drawHash tick.platform task w.db).1
    simp only [Platform.step, hok]
  | run jobId token task rest db next hok =>
    have hstep : Platform.step drawHash tick.platform task w.db = (db, next) := by
      simp only [Platform.step, hok]
    refine Protocol.Mimics.step (tick.platform, tick.change) (.contest task) rfl
      (hcaused _ rfl) ?_ (Or.inr ?_)
    · exact (congrArg Prod.fst hstep).symm
    · change _ = (Platform.step drawHash tick.platform task w.db).2.map PlainTask.contest
      rw [hstep]
      cases next <;> rfl

include hB in
/-- Whatever the relay, the queue and the workers do, the database goes through a run of the
contest calls and of the other modules' changes in which each handler of a contest runs
after its event. -/
theorem runs_platform {w : World B} (hw : Consistent w) {as : List (Act Call Tick)}
    (hchanges : ∀ i tick, .resume i tick ∈ as → tick.change ∈ changes) :
    ∃ bs, (plain drawHash).Along (Caused changes) ⟨w.db, []⟩ bs ∧
      ((plain drawHash).run ⟨w.db, []⟩ bs).shared =
        ((protocol B drawHash).run ⟨w, []⟩ as).shared.db := by
  have hinit : ∀ call, plainTask ((protocol B drawHash).init call) = none ∨
      ∃ call', plainTask ((protocol B drawHash).init call) =
        some ((plain drawHash).init call') := by
    intro call
    cases call with
    | api call fromApi => exact Or.inr ⟨.contest call, rfl⟩
    | elsewhere => exact Or.inr ⟨.elsewhere, rfl⟩
    | relay | worker _ | stalledCheck _ => exact Or.inl rfl
  obtain ⟨bs, hcaused, hcovers⟩ :=
    (consistent_inductive hB drawHash (fun tick _ _ => tick.change ∈ changes)).embeds hinit
      (fun tick t s hs ht htick => mimics_effect drawHash hs htick ht (effect_step drawHash tick t s))
      (c := ⟨w, []⟩) (d := ⟨w.db, []⟩) ⟨hw, by simp⟩ ⟨rfl, le_refl _⟩
      ((protocol B drawHash).along_of_inputs (fun i tick hmem _ _ => hchanges i tick hmem) _)
  exact ⟨bs, hcaused, hcovers.shared⟩

end Refinement

section Sample

def locked (c : Contest) : Contest := { c with status := .locked }

/-- A withdrawal whose transfer is on its way. -/
def transfer : Withdrawal :=
  ⟨5, 7, 5, 50, 0, .processing, some 100, some "PAYSTACK", some "tr-5", none, none⟩

/-- A locked contest on one fixture, without entries, beside the withdrawal and its hold. -/
def lockedWorld : World Outbox.eventQueue where
  db := { Db.empty with
    ledger :=
      { accounts := ⟨[⟨1, .userWithdrawalPending, some 7, none, "NGN", 50⟩,
          ⟨2, .external, none, none, "NGN", -50⟩], by decide⟩
        journal := Table.empty }
    withdrawals := ⟨[transfer], by decide⟩
    contests := ⟨[locked (Platform.openContest 1)], by decide⟩
    contestMatches := ⟨[⟨1, 1, 1, 0⟩], by decide⟩
    fixtures := ⟨[⟨1, 100, .scheduled, none, none, none, none, none, none⟩], by decide⟩
    ruleSets := ⟨[⟨1, true, []⟩], by decide⟩
    payoutTemplates := Platform.openDb.payoutTemplates }
  channel := ⟨Table.empty, Outbox.eventQueue.empty⟩

/-- The webhook that reports the transfer, and what it calls for. -/
def reported : Change := .emitting (.paymentWebhookReceived "PAYSTACK" "transfer.success" 5)

def transferred : Change := .settled 200 transfer

def answered (answer : Outbox.Answer) (change : Change) : Tick :=
  ⟨⟨200, false, false⟩, 200, answer, change, false⟩

def onTime : Tick := answered .done .none

/-- A call that makes this many steps, with nothing between them. -/
def called (call : Call) (steps : ℕ) : List (Act Call Tick) :=
  .start call :: List.replicate steps (.resume 0 onTime)

/-- The webhook arrives. -/
def webhook : List (Act Call Tick) := [.start .elsewhere, .resume 0 (answered .done reported)]

/-- Its worker settles the withdrawal, loses the answer and gives up. -/
def death : List (Act Call Tick) :=
  [.start (.worker 0), .resume 0 onTime, .resume 0 onTime,
    .resume 0 (answered (.lost "timeout") transferred), .resume 0 onTime]

/-- The worker of the payout stalls, and another one takes over. -/
def takeover : List (Act Call Tick) :=
  [.start (.worker 4), .resume 0 onTime, .start (.stalledCheck 4), .resume 1 onTime,
    .start (.worker 4), .resume 1 onTime]

/-- The result is finalized and relayed behind the webhook, and both are worked on. -/
def matchday : List (Act Call Tick) :=
  webhook ++ called (.api (.finalize 1 ⟨2, 1, 1, 0, .home⟩) trivial) 2 ++ called .relay 5 ++
    death ++ called (.worker 0) 4 ++ called (.worker 1) 9 ++ called .relay 7 ++ takeover

theorem opening_lockedWorld : Opening lockedWorld where
  channel := rfl
  outbox := rfl
  unscored := by decide
  templates := by
    unfold TemplatesKnown
    decide

theorem runs_platform_matchday :
    ∃ bs, (plain (fun _ _ => "")).Along (Caused {Change.none, reported, transferred})
        ⟨lockedWorld.db, []⟩ bs ∧
      ((plain (fun _ _ => "")).run ⟨lockedWorld.db, []⟩ bs).shared =
        ((protocol Outbox.eventQueue (fun _ _ => "")).run ⟨lockedWorld, []⟩ matchday).shared.db := by
  have hchanges : ∀ i tick, Act.resume i tick ∈ matchday →
      tick.change ∈ ({Change.none, reported, transferred} : Set Change) := by
    intro i tick hmem
    simp only [matchday, webhook, called, death, takeover, List.mem_append, List.mem_cons,
      List.mem_replicate, List.not_mem_nil, reduceCtorEq, false_or, or_false,
      Act.resume.injEq] at hmem
    simp only [Set.mem_insert_iff, Set.mem_singleton_iff]
    aesop
  exact runs_platform Outbox.documented_eventQueue _
    (opening_lockedWorld.consistent Outbox.documented_eventQueue) hchanges

end Sample

end Pipeline
end FootballIQ
