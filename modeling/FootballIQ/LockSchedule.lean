import FootballIQ.Announcements
import FootballIQ.Outbox

/-!
# The lock job of a contest

Publishing a contest commits first and then adds a delayed job that locks it, so a call
that dies in between leaves no job. The queue hands the job to a worker, and a failed
attempt is repeated twice. The same lock can also be called by an administrator.
-/

namespace FootballIQ
namespace LockSchedule

open Transaction Relational Interleaving Contests Jobs

section Model

/-- The database and the lock jobs, each under the id of its contest and with the time
up to which it is delayed. -/
structure World (B : Broker ℕ DateTime) where
  db : Db
  queue : B.Store

inductive Call where
  | api (call : Platform.Call)
  | worker (contestId : ℕ)
  | stalledCheck (contestId : ℕ)
  deriving DecidableEq

/-- A call of the API, which schedules the lock after its publication; a worker with its
job before the lock and before each of its reports; a check for a stalled job. -/
inductive Task where
  | api (task : Platform.Task)
  | schedule (contestId : ℕ) (lockAt : DateTime)
  | taking (contestId : ℕ)
  | locking (contestId token : ℕ)
  | reporting (contestId token : ℕ)
  | failing (contestId token : ℕ)
  | stalledCheck (contestId : ℕ)
  deriving DecidableEq

structure Tick where
  platform : Platform.Tick
  answer : Outbox.Answer
  deriving DecidableEq

def options : Options := ⟨3, 1000, 1⟩

def init : Call → Task
  | .api call => .api (.ready call)
  | .worker contestId => .taking contestId
  | .stalledCheck contestId => .stalledCheck contestId

variable {B : Broker ℕ DateTime}

def World.onQueue (w : World B) (op : Op ℕ DateTime) : World B :=
  { w with queue := B.perform op w.queue }

/-- What a committed step of a call goes on with. -/
def after : Platform.Task → Option Platform.Task → Option Task
  | .publishTx contest lockAt, _ => some (.schedule contest.id lockAt)
  | _, next => next.map .api

variable (drawHash : ℕ → ℕ → String)

def step (tick : Tick) (t : Task) (w : World B) : World B × Option Task :=
  match t with
  | .api task =>
    match Platform.action drawHash tick.platform task w.db with
    | .ok (next, db) => ({ w with db := db }, after task next)
    | .error _ => (w, (Platform.retry task).map .api)
  | .schedule contestId lockAt =>
    match tick.answer with
    | .done | .lost _ => (w.onQueue (.add contestId (max lockAt tick.platform.now)), none)
    | .refused _ => (w, none)
  | .taking contestId =>
    -- the queue sees to the delay
    (w.onQueue (.take contestId),
      (B.take contestId w.queue).map (fun locked => .locking contestId locked.1))
  | .locking contestId token =>
    match tick.answer with
    | .done => ({ w with db := commit (lock tick.platform.now contestId) w.db },
        some (.reporting contestId token))
    | .lost _ => ({ w with db := commit (lock tick.platform.now contestId) w.db },
        some (.failing contestId token))
    | .refused _ => (w, some (.failing contestId token))
  | .reporting contestId token =>
    match tick.answer with
    | .done | .lost _ => (w.onQueue (.complete contestId token), none)
    | .refused _ => (w, none)
  | .failing contestId token => (w.onQueue (.fail contestId token), none)
  | .stalledCheck contestId => (w.onQueue (.stall contestId), none)

variable (B) in
def protocol : Protocol (World B) Call Task Tick := ⟨init, step drawHash⟩

end Model

section Contests

/-- Not locked yet. -/
def IsOpen (s : ContestStatus) : Prop := s = .draft ∨ s = .published

/-- Contests stay, keep the time they were published with and are not opened again, and
no contest but the new one becomes published. -/
structure Publishes (new : Option (ℕ × DateTime)) (db db' : Db) : Prop where
  kept : ∀ c ∈ db.contests.rows, ∃ c' ∈ db'.contests.rows, c'.id = c.id ∧
    (c.status ≠ .draft → c'.status ≠ .draft ∧ c'.lockAt = c.lockAt) ∧
    (¬ IsOpen c.status → ¬ IsOpen c'.status)
  published : ∀ c' ∈ db'.contests.rows, c'.status = .published →
    c' ∈ db.contests.rows ∨ ∃ lockAt, new = some (c'.id, lockAt) ∧ c'.lockAt = some lockAt

variable {db db' : Db}

theorem publishes_of_eq (h : db'.contests = db.contests) : Publishes none db db' where
  kept c hc := ⟨c, h ▸ hc, rfl, fun hs => ⟨hs, rfl⟩, id⟩
  published _ hc' _ := Or.inl (h ▸ hc')

theorem Publishes.refl (db : Db) : Publishes none db db := publishes_of_eq rfl

/-- A write that closes some contests. -/
theorem publishes_close {p : Contest → Prop} [DecidablePred p] {f : Contest → Contest}
    (hf : ∀ c, Row.id (f c) = Row.id c) (hclosed : ∀ c, ¬ IsOpen (f c).status)
    (hlock : ∀ c, (f c).lockAt = c.lockAt)
    (h : db'.contests = db.contests.updateWhere p f hf) : Publishes none db db' where
  kept c hc := by
    refine ⟨if p c then f c else c, ?_, ?_⟩
    · rw [h]
      exact (Table.mem_updateWhere _ _ f hf _).2 ⟨c, hc, rfl⟩
    · by_cases hp : p c
      · rw [if_pos hp]
        exact ⟨hf c, fun _ => ⟨fun hs => hclosed c (Or.inl hs), hlock c⟩, fun _ => hclosed c⟩
      · rw [if_neg hp]
        exact ⟨rfl, fun hs => ⟨hs, rfl⟩, id⟩
  published c' hc' hs := by
    rw [h] at hc'
    obtain ⟨c, hc, rfl⟩ := (Table.mem_updateWhere _ _ f hf c').1 hc'
    by_cases hp : p c
    · rw [if_pos hp] at hs
      exact absurd (Or.inr hs) (hclosed c)
    · rw [if_neg hp]
      exact Or.inl hc

theorem publishes_lock (now contestId : ℕ) (db : Db) :
    Publishes none db (commit (lock now contestId) db) := by
  rcases lock_cases now contestId db with ⟨_, _, _, hrun⟩ | ⟨_, hrun⟩
  · rw [commit_of_ok hrun]
    exact publishes_close (by intro c; rfl) (by rintro c (hs | hs) <;> cases hs) (by intro c; rfl) rfl
  · rw [commit_of_ok hrun]
    exact Publishes.refl db

theorem publishes_create {now adminId id : ℕ} {dto : CreateContestRequest}
    (h : create now adminId dto db = .ok (id, db')) : Publishes none db db' := by
  obtain ⟨ruleSet, template, _, _, rfl⟩ := create_ok h
  have hmem := Table.mem_insert db.contests _ (id_draftContest dto ruleSet template adminId)
  refine ⟨fun c hc => ⟨c, (hmem c).2 (Or.inl hc), rfl, fun hs => ⟨hs, rfl⟩, fun hs => hs⟩, ?_⟩
  intro c' hc' hs
  rcases (hmem c').1 hc' with hold | rfl
  · exact Or.inl hold
  · cases hs

theorem publishes_publishTx {now : DateTime} {contest : Contest} {lockAt : DateTime}
    {r : PUnit × Db} (h : publishTx now contest lockAt db = .ok r)
    (hdraft : ∀ c, db.contests.find contest.id = some c → c.status = .draft) :
    Publishes (some (contest.id, lockAt)) db r.2 ∧
      ∃ c ∈ r.2.contests.rows, c.id = contest.id ∧ c.status ≠ .draft ∧ c.lockAt = some lockAt := by
  obtain ⟨hex, hr⟩ := (publishTx_ok_iff now contest lockAt db r).1 h
  have hmem : ∀ c', c' ∈ r.2.contests.rows ↔ ∃ c ∈ db.contests.rows,
      (if Row.id c = contest.id then
        { c with status := .published, lockAt := some lockAt, publishedAt := some now }
      else c) = c' := by
    intro c'
    rw [hr]
    exact Table.mem_updateWhere _ _ _ (by intro c; rfl) c'
  refine ⟨⟨?_, ?_⟩, ?_⟩
  · intro c hc
    by_cases hid : Row.id c = contest.id
    · have hs := hdraft c ((Table.find_eq_some_iff _ _ c).2 ⟨hc, hid⟩)
      exact ⟨_, (hmem _).2 ⟨c, hc, if_pos hid⟩, rfl, fun hne => absurd hs hne,
        fun hne => absurd (Or.inl hs) hne⟩
    · exact ⟨c, (hmem c).2 ⟨c, hc, if_neg hid⟩, rfl, fun hs => ⟨hs, rfl⟩, id⟩
  · intro c' hc' _
    obtain ⟨c, hc, rfl⟩ := (hmem c').1 hc'
    by_cases hid : Row.id c = contest.id
    · rw [if_pos hid]
      exact Or.inr ⟨lockAt, by rw [show c.id = contest.id from hid], rfl⟩
    · rw [if_neg hid]
      exact Or.inl hc
  · obtain ⟨c, hc⟩ := Option.ne_none_iff_exists'.1 hex
    obtain ⟨hrow, hid⟩ := (Table.find_eq_some_iff _ _ c).1 hc
    exact ⟨_, (hmem _).2 ⟨c, hrow, if_pos hid⟩, hid, ContestStatus.noConfusion, rfl⟩

theorem publishes_job {tick : Platform.Tick} {job : Platform.ScoringJob}
    {next : Option Platform.Task} (h : job.action tick db = .ok (next, db')) :
    Publishes none db db' := by
  have hjob := Platform.ScoringJob.action_ok h
  cases hstage : job.stage with
  | readMatches | count _ _ | countOther _ _ _ _ =>
    rw [hstage] at hjob
    exact hjob.1 ▸ Publishes.refl db
  | scoreMatch cm rest =>
    rw [hstage] at hjob
    obtain ⟨_, _, _, _, hr⟩ := (Scoring.scoreContestMatch_ok_iff _ _ _ _ _ _).1 hjob.1
    rw [show db' = _ from hr]
    exact publishes_close Scoring.id_scoring (by rintro c (hs | hs) <;> cases hs)
      (by intro c; rfl) rfl
  | complete cm rest =>
    rw [hstage] at hjob
    rw [← commit_of_ok hjob.1]
    rcases Scoring.markScored_cases tick.now cm.contestId db with ⟨_, _, _, hrun⟩ | ⟨_, hrun⟩
    · rw [hrun]
      exact publishes_close (by intro c; rfl) (by rintro c (hs | hs) <;> cases hs)
        (by intro c; rfl) rfl
    · rw [hrun]
      exact Publishes.refl db

variable {drawHash : ℕ → ℕ → String}

/-- No step but the transaction of a publication publishes a contest. -/
theorem publishes_action {tick : Platform.Tick} {task : Platform.Task}
    {next : Option Platform.Task} (h : Platform.action drawHash tick task db = .ok (next, db'))
    (hother : ∀ contest lockAt, task ≠ .publishTx contest lockAt) : Publishes none db db' := by
  have haction := Platform.action_ok drawHash h
  cases task with
  | ready call =>
    rcases Platform.begin_ok drawHash haction with ⟨_, _, _, _, hcreate, _⟩ | ⟨k, _, hlock, _⟩ | ⟨rfl, _⟩
    · exact publishes_create hcreate
    · exact commit_of_ok hlock ▸ publishes_lock tick.now k db
    · exact Publishes.refl db'
  | scoring job => exact publishes_job haction
  | settle intent verification =>
    obtain ⟨_, _, hrun⟩ := haction
    obtain ⟨_, _, _, rfl, _⟩ := Deposits.settleTx_ok hrun
    exact publishes_of_eq rfl
  | publishTx contest lockAt => exact absurd rfl (hother contest lockAt)
  | submitTx slip =>
    obtain ⟨_, _, hrun⟩ := haction
    obtain ⟨_, _, _, _, _, _, _, _, rfl, _⟩ := (Entries.submitTx_ok_iff _ _ _ _ _).1 hrun
    exact publishes_of_eq rfl
  | cancelTx snap reason =>
    obtain ⟨_, _, hrun⟩ := haction
    obtain ⟨db₁, hloop, _, hr⟩ := cancelTx_ok hrun
    obtain ⟨_, _, _, hdb⟩ := refunds_writes snap.entries hloop
    have hcontests : db₁.contests = db.contests := by rw [show db₁ = _ from hdb]
    apply publishes_close (p := fun c => Row.id c = snap.contest.id)
      (f := fun c => { c with status := .cancelled, cancelledAt := some tick.now })
      (by intro c; rfl) (by rintro c (hs | hs) <;> cases hs) (by intro c; rfl)
    rw [show db' = _ from hr, ← hcontests]
    rfl
  | finalizeTx fixtureId result =>
    obtain ⟨_, _, hrun⟩ := haction
    obtain ⟨_, hr⟩ := (Results.finalizeTx_ok_iff _ _ _ _ _).1 hrun
    rw [show db' = _ from hr]
    exact publishes_of_eq rfl
  | distributeTx snap =>
    obtain ⟨_, _, hrun⟩ := haction
    obtain ⟨_, _, db₁, _, _, hpay, _, hr⟩ := (Settlement.distributeTx_ok_iff _ _ _ _).1 hrun
    have hcontests : db₁.contests = db.contests := by
      rcases hpay with ⟨_, _, hpay⟩ | ⟨_, rfl⟩
      · obtain ⟨_, _, _, _, _, _, _, _, _, hdb⟩ := Settlement.payOut_ok hpay
        rw [show db₁ = _ from hdb]
      · rfl
    apply publishes_close (p := fun c => Row.id c = snap.contest.id)
      (f := fun c => { c with status := .settled, settledAt := some tick.now })
      (by intro c; rfl) (by rintro c (hs | hs) <;> cases hs) (by intro c; rfl)
    rw [show db' = _ from hr, ← hcontests]
    rfl

end Contests

section Facts
variable {B : Broker ℕ DateTime}

/-- The contest was published with this time. -/
def Promised (db : Db) (contestId : ℕ) (lockAt : DateTime) : Prop :=
  ∃ c ∈ db.contests.rows, c.id = contestId ∧ c.status ≠ .draft ∧ c.lockAt = some lockAt

/-- The contest is locked, or past that. -/
def Closed (db : Db) (contestId : ℕ) : Prop :=
  ∃ c ∈ db.contests.rows, c.id = contestId ∧ ¬ IsOpen c.status

/-- Jobs are for published contests and not due before their time, and a contest whose
job has completed is closed. -/
structure Sound (w : World B) : Prop where
  jobs : ∀ j ∈ B.jobs w.queue, ∃ lockAt, Promised w.db j.id lockAt ∧ lockAt ≤ j.data
  completions : ∀ id ∈ B.completions w.queue, Closed w.db id

/-- What a pending task knows. -/
def Knows (w : World B) : Task → Prop
  | .schedule contestId lockAt => Promised w.db contestId lockAt
  | .locking contestId _ => ∃ lockAt, Promised w.db contestId lockAt
  | .reporting contestId _ => Closed w.db contestId
  | _ => True

/-- A publication finds its contest still a draft. -/
def FindsDraft (_ : Tick) (t : Task) (w : World B) : Prop :=
  match t with
  | .api (.publishTx contest _) =>
    ∀ c, w.db.contests.find contest.id = some c → c.status = .draft
  | _ => True

instance (tick : Tick) (t : Task) (w : World B) : Decidable (FindsDraft tick t w) := by
  unfold FindsDraft
  split
  · exact inferInstanceAs (Decidable (∀ c ∈ w.db.contests.find _, c.status = .draft))
  · exact .isTrue trivial

variable {w w' : World B} {db db' : Db} {contestId : ℕ} {lockAt : DateTime}
  {new : Option (ℕ × DateTime)}

theorem Promised.publishes (h : Promised db contestId lockAt) (hp : Publishes new db db') :
    Promised db' contestId lockAt := by
  obtain ⟨c, hc, hid, hs, hlock⟩ := h
  obtain ⟨c', hc', hid', hkept, _⟩ := hp.kept c hc
  obtain ⟨hs', hlock'⟩ := hkept hs
  exact ⟨c', hc', hid'.trans hid, hs', hlock'.trans hlock⟩

theorem Closed.publishes (h : Closed db contestId) (hp : Publishes new db db') :
    Closed db' contestId := by
  obtain ⟨c, hc, hid, hs⟩ := h
  obtain ⟨c', hc', hid', _, hclosed⟩ := hp.kept c hc
  exact ⟨c', hc', hid'.trans hid, hclosed hs⟩

theorem Knows.publishes {t : Task} (h : Knows w t) (hp : Publishes new w.db w'.db) :
    Knows w' t := by
  cases t with
  | schedule contestId lockAt => exact Promised.publishes h hp
  | locking contestId token => exact h.imp (fun _ hpromised => hpromised.publishes hp)
  | reporting contestId token => exact Closed.publishes h hp
  | _ => trivial

theorem Sound.publishes (hw : Sound w) (hp : Publishes new w.db db') :
    Sound { w with db := db' } where
  jobs j hj := (hw.jobs j hj).imp (fun _ h => ⟨h.1.publishes hp, h.2⟩)
  completions id hid := (hw.completions id hid).publishes hp

/-- Queue operations add jobs of published contests and complete those of closed ones. -/
theorem Sound.onQueue (hB : B.Documented options) (hw : Sound w) {op : Op ℕ DateTime}
    (hadd : ∀ id due, op = .add id due → ∃ lockAt, Promised w.db id lockAt ∧ lockAt ≤ due)
    (hcomplete : ∀ id token, op = .complete id token → Closed w.db id) :
    Sound (w.onQueue op) where
  jobs j' hj' := by
    rcases hB.faithful op w.queue j' hj' with hop | ⟨j, hj, hid, hdata⟩
    · exact hadd j'.id j'.data hop
    · rw [← hid, ← hdata]
      exact hw.jobs j hj
  completions id hid := by
    rcases hB.completes op w.queue with hsame | ⟨k, token, hop, _, happend⟩
    · exact hw.completions id (hsame ▸ hid)
    · have hmem : id ∈ B.completions w.queue ++ [k] := happend ▸ hid
      rcases List.mem_append.1 hmem with hmem | hmem
      · exact hw.completions id hmem
      · rw [List.mem_singleton.1 hmem]
        exact hcomplete k token hop

end Facts

section Steps
variable {B : Broker ℕ DateTime} (drawHash : ℕ → ℕ → String) {w : World B}

/-- The step writes to the contests or operates on the queue. -/
def Writes (tick : Tick) (t : Task) (w : World B) : Prop :=
  (∃ new db, (step drawHash tick t w).1 = { w with db := db } ∧ Publishes new w.db db ∧
      ∀ id lockAt, new = some (id, lockAt) →
        (step drawHash tick t w).2 = some (.schedule id lockAt)) ∨
    ∃ op, (step drawHash tick t w).1 = w.onQueue op ∧
      (∀ id due, op = .add id due → ∃ lockAt, Promised w.db id lockAt ∧ lockAt ≤ due) ∧
      ∀ id token, op = .complete id token → Closed w.db id

variable {drawHash} in
theorem writes_of_stays {tick : Tick} {t : Task} (h : (step drawHash tick t w).1 = w) :
    Writes drawHash tick t w :=
  Or.inl ⟨none, w.db, h, Publishes.refl w.db, fun _ _ hnew => by cases hnew⟩

theorem writes_api (tick : Tick) {task : Platform.Task} (hg : FindsDraft tick (.api task) w) :
    Writes drawHash tick (.api task) w := by
  cases hok : Platform.action drawHash tick.platform task w.db with
  | error e => exact writes_of_stays (by simp only [step, hok])
  | ok r =>
    by_cases hpublish : ∃ contest lockAt, task = .publishTx contest lockAt
    · obtain ⟨contest, lockAt, rfl⟩ := hpublish
      obtain ⟨_, _, hrun⟩ := Platform.action_ok drawHash hok
      refine Or.inl ⟨some (contest.id, lockAt), r.2, by simp only [step, hok],
        (publishes_publishTx hrun hg).1, ?_⟩
      rintro id lockAt' ⟨⟩
      simp only [step, hok, after]
    · refine Or.inl ⟨none, r.2, by simp only [step, hok], publishes_action hok ?_, ?_⟩
      · exact fun contest lockAt heq => hpublish ⟨contest, lockAt, heq⟩
      · rintro _ _ ⟨⟩

theorem step_writes (tick : Tick) {t : Task} (ht : Knows w t) (hg : FindsDraft tick t w) :
    Writes drawHash tick t w := by
  cases t with
  | api task => exact writes_api drawHash tick hg
  | schedule contestId lockAt =>
    cases hanswer : tick.answer with
    | done | lost _ =>
      right
      refine ⟨.add contestId (max lockAt tick.platform.now), by simp only [step, hanswer], ?_, ?_⟩
      · rintro _ _ ⟨⟩
        exact ⟨lockAt, ht, le_max_left _ _⟩
      · rintro _ _ ⟨⟩
    | refused _ => exact writes_of_stays (by simp only [step, hanswer])
  | taking contestId =>
    refine Or.inr ⟨.take contestId, rfl, ?_, ?_⟩
    · rintro _ _ ⟨⟩
    · rintro _ _ ⟨⟩
  | locking contestId token =>
    have hlock := publishes_lock tick.platform.now contestId w.db
    cases hanswer : tick.answer with
    | done | lost _ =>
      refine Or.inl ⟨none, _, by simp only [step, hanswer], hlock, ?_⟩
      rintro _ _ ⟨⟩
    | refused _ => exact writes_of_stays (by simp only [step, hanswer])
  | reporting contestId token =>
    cases hanswer : tick.answer with
    | done | lost _ =>
      right
      refine ⟨.complete contestId token, by simp only [step, hanswer], ?_, ?_⟩
      · rintro _ _ ⟨⟩
      · rintro _ _ ⟨⟩
        exact ht
    | refused _ => exact writes_of_stays (by simp only [step, hanswer])
  | failing contestId token =>
    refine Or.inr ⟨.fail contestId token, rfl, ?_, ?_⟩
    · rintro _ _ ⟨⟩
    · rintro _ _ ⟨⟩
  | stalledCheck contestId =>
    refine Or.inr ⟨.stall contestId, rfl, ?_, ?_⟩
    · rintro _ _ ⟨⟩
    · rintro _ _ ⟨⟩

theorem sound_step (hB : B.Documented options) (tick : Tick) {t : Task} (hw : Sound w)
    (ht : Knows w t) (hg : FindsDraft tick t w) : Sound (step drawHash tick t w).1 := by
  rcases step_writes drawHash tick ht hg with ⟨new, db, hstep, hp, _⟩ | ⟨op, hstep, hadd, hcomplete⟩
  · rw [hstep]
    exact hw.publishes hp
  · rw [hstep]
    exact hw.onQueue hB hadd hcomplete

/-- What other tasks know stays true. -/
theorem knows_stable (tick : Tick) {t u : Task} (ht : Knows w t) (hg : FindsDraft tick t w)
    (hu : Knows w u) : Knows (step drawHash tick t w).1 u := by
  rcases step_writes drawHash tick ht hg with ⟨new, db, hstep, hp, _⟩ | ⟨op, hstep, _, _⟩
  · rw [hstep]
    let w' : World B := { w with db := db }
    have hknown : Knows w' u := hu.publishes hp
    exact hknown
  · rw [hstep]
    cases u with
    | _ => exact hu

/-- A lock leaves its contest closed. -/
theorem closed_lock (now : DateTime) {db : Db} {contestId : ℕ} {lockAt : DateTime}
    (h : Promised db contestId lockAt) : Closed (commit (lock now contestId) db) contestId := by
  obtain ⟨c, hc, hid, hs, _⟩ := h
  have hfind : db.contests.find contestId = some c := (Table.find_eq_some_iff _ _ c).2 ⟨hc, hid⟩
  rcases lock_cases now contestId db with ⟨_, _, _, hrun⟩ | ⟨hno, hrun⟩
  · rw [commit_of_ok hrun]
    refine ⟨_, (Table.mem_updateWhere _ _ _ (by intro c; rfl) _).2 ⟨c, hc, if_pos hid⟩, hid, ?_⟩
    rintro (hs | hs) <;> cases hs
  · rw [commit_of_ok hrun]
    refine ⟨c, hc, hid, ?_⟩
    rintro (hdraft | hpublished)
    · exact hs hdraft
    · exact hno c hfind hpublished

theorem knows_next (hB : B.Documented options) (tick : Tick) {t t' : Task} (hw : Sound w)
    (ht : Knows w t) (hg : FindsDraft tick t w) (h : (step drawHash tick t w).2 = some t') :
    Knows (step drawHash tick t w).1 t' := by
  cases t with
  | api task =>
    cases hok : Platform.action drawHash tick.platform task w.db with
    | error e =>
      simp only [step, hok] at h
      obtain ⟨_, _, rfl⟩ := Option.map_eq_some_iff.1 h
      trivial
    | ok r =>
      by_cases hpublish : ∃ contest lockAt, task = .publishTx contest lockAt
      · obtain ⟨contest, lockAt, rfl⟩ := hpublish
        obtain ⟨_, _, hrun⟩ := Platform.action_ok drawHash hok
        simp only [step, hok, after, Option.some.injEq] at h ⊢
        subst h
        exact (publishes_publishTx hrun hg).2
      · have hafter : after task r.1 = r.1.map .api := by
          cases task with
          | publishTx contest lockAt => exact absurd ⟨contest, lockAt, rfl⟩ hpublish
          | _ => rfl
        simp only [step, hok, hafter] at h
        obtain ⟨_, _, rfl⟩ := Option.map_eq_some_iff.1 h
        trivial
  | schedule contestId lockAt =>
    cases hanswer : tick.answer <;> simp only [step, hanswer, reduceCtorEq] at h
  | taking contestId =>
    obtain ⟨⟨token, due⟩, htake, rfl⟩ := Option.map_eq_some_iff.1 h
    obtain ⟨j, hj, rfl, _⟩ := hB.hands w.queue contestId token due htake
    exact (hw.jobs j hj).imp (fun _ hpromised => hpromised.1)
  | locking contestId token =>
    obtain ⟨lockAt, hpromised⟩ := ht
    cases hanswer : tick.answer with
    | done =>
      simp only [step, hanswer, Option.some.injEq] at h ⊢
      subst h
      exact closed_lock tick.platform.now hpromised
    | lost _ | refused _ =>
      simp only [step, hanswer, Option.some.injEq] at h
      subst h
      trivial
  | reporting contestId token =>
    cases hanswer : tick.answer <;> simp only [step, hanswer, reduceCtorEq] at h
  | failing contestId token => cases h
  | stalledCheck contestId => cases h

theorem sound_inductive (hB : B.Documented options) :
    (protocol B drawHash).Inductive FindsDraft Sound Knows where
  init w call _ := by cases call <;> trivial
  shared tick t w hw ht hg := sound_step drawHash hB tick hw ht hg
  cont tick t w t' hw ht hg h := knows_next drawHash hB tick hw ht hg h
  stable tick t w u _ ht hg hu := knows_stable drawHash tick ht hg hu

end Steps

section Runs
variable {B : Broker ℕ DateTime} (hB : B.Documented options) (drawHash : ℕ → ℕ → String)

/-- The call that published the contest is about to add its job, or the job was added. -/
def Attended (c : Interleaving.Config (World B) Task) : Prop :=
  ∀ contest ∈ c.shared.db.contests.rows, contest.status = .published →
    (∃ lockAt, Task.schedule contest.id lockAt ∈ c.pending) ∨
      B.Accepted contest.id c.shared.queue

/-- The call to the queue had no effect. -/
def Refused : Outbox.Answer → Prop
  | .refused _ => True
  | _ => False

instance : DecidablePred Refused
  | .refused _ => .isTrue trivial
  | .done | .lost _ => .isFalse id

/-- The job of a contest that is still published reaches the queue. -/
def Reaches (tick : Tick) (t : Task) (w : World B) : Prop :=
  match t with
  | .schedule contestId _ => Refused tick.answer →
    ∀ c ∈ w.db.contests.rows, c.id = contestId → c.status ≠ .published
  | _ => True

instance (tick : Tick) (t : Task) (w : World B) : Decidable (Reaches tick t w) :=
  match t with
  | .schedule contestId _ => inferInstanceAs (Decidable (Refused tick.answer →
      ∀ c ∈ w.db.contests.rows, c.id = contestId → c.status ≠ .published))
  | .api _ | .taking _ | .locking _ _ | .reporting _ _ | .failing _ _ | .stalledCheck _ =>
    .isTrue trivial

include hB in
theorem attended_resume {c : Interleaving.Config (World B) Task} (hc : Protocol.Holds Sound Knows c)
    (h : Attended c) {i : ℕ} {tick : Tick} {t : Task} (hi : c.pending[i]? = some t)
    (hg : FindsDraft tick t c.shared) (hr : Reaches tick t c.shared) :
    Attended ((protocol B drawHash).next c (.resume i tick)) := by
  obtain ⟨l, r, hpending, hnext⟩ := (protocol B drawHash).next_resume_some tick hi
  have ht : Knows c.shared t := hc.2 t (List.mem_of_getElem? hi)
  have haccepted : ∀ id, B.Accepted id c.shared.queue →
      B.Accepted id (step drawHash tick t c.shared).1.queue := by
    intro id hid
    rcases step_writes drawHash tick ht hg with ⟨_, _, hstep, _, _⟩ | ⟨op, hstep, _, _⟩
    · rwa [hstep]
    · rw [hstep]
      exact hB.accepted_perform hid op
  -- a contest that was published before is attended as before, or by this very step
  have hold : ∀ contest ∈ c.shared.db.contests.rows, contest.status = .published →
      (∃ lockAt, Task.schedule contest.id lockAt ∈
          l ++ (step drawHash tick t c.shared).2.toList ++ r) ∨
        B.Accepted contest.id (step drawHash tick t c.shared).1.queue := by
    intro contest hcontest hs
    rcases h contest hcontest hs with ⟨lockAt, hmem⟩ | hid
    · rw [hpending, List.mem_append, List.mem_cons] at hmem
      rcases hmem with hmem | rfl | hmem
      · exact Or.inl ⟨lockAt, by simp [hmem]⟩
      · right
        cases hanswer : tick.answer with
        | done | lost _ =>
          simp only [step, hanswer]
          exact hB.accepted_add _ _ _
        | refused message =>
          have hrefused : Refused tick.answer := hanswer ▸ trivial
          exact absurd hs (hr hrefused contest hcontest rfl)
      · exact Or.inl ⟨lockAt, by simp [hmem]⟩
    · exact Or.inr (haccepted contest.id hid)
  rw [hnext]
  intro contest hcontest hs
  change contest ∈ (step drawHash tick t c.shared).1.db.contests.rows at hcontest
  rcases step_writes drawHash tick ht hg with ⟨new, db, hstep, hp, hschedule⟩ | ⟨op, hstep, _, _⟩
  · rw [hstep] at hcontest
    rcases hp.published contest hcontest hs with hcontest | ⟨lockAt, hnew, _⟩
    · exact hold contest hcontest hs
    · refine Or.inl ⟨lockAt, ?_⟩
      have hmem := hschedule contest.id lockAt hnew
      change _ ∈ l ++ (step drawHash tick t c.shared).2.toList ++ r
      simp [hmem]
  · rw [hstep] at hcontest
    exact hold contest hcontest hs

/-- Nothing is published and no job is there. -/
structure Opening (w : World B) : Prop where
  queue : w.queue = B.empty
  contests : ∀ c ∈ w.db.contests.rows, c.status ≠ .published

theorem Opening.sound (hB : B.Documented options) {w : World B} (h : Opening w) : Sound w where
  jobs := by simp [h.queue, hB.jobs_empty]
  completions := by simp [h.queue, hB.completions_empty]

include hB

theorem attended_run {c : Interleaving.Config (World B) Task} (hc : Protocol.Holds Sound Knows c)
    (h : Attended c) {as : List (Act Call Tick)} (hg : (protocol B drawHash).Along FindsDraft c as)
    (hr : (protocol B drawHash).Along Reaches c as) :
    Protocol.Holds Sound Knows ((protocol B drawHash).run c as) ∧
      Attended ((protocol B drawHash).run c as) := by
  induction as generalizing c with
  | nil => exact ⟨hc, h⟩
  | cons a as ih =>
    cases a with
    | start call =>
      refine ih ((sound_inductive drawHash hB).next_start hc call) ?_ hg hr
      intro contest hcontest hs
      rcases h contest hcontest hs with ⟨lockAt, hmem⟩ | hid
      · exact Or.inl ⟨lockAt, List.mem_append_left _ hmem⟩
      · exact Or.inr hid
    | resume i tick =>
      refine ih ((sound_inductive drawHash hB).next_resume hc i tick hg.1) ?_ hg.2 hr.2
      cases hi : c.pending[i]? with
      | none => rwa [Protocol.next_resume_none _ hi]
      | some t => exact attended_resume hB drawHash hc h hi (hg.1 t hi) (hr.1 t hi)

/-- Where every publication finds its contest a draft and every job reaches the queue, a
contest that is still published has its publication about to add the job, or a job that is
not due before the contest locks and that may still run or has used up its attempts. -/
theorem lock_pending {w : World B} (h : Opening w) {as : List (Act Call Tick)}
    (hg : (protocol B drawHash).Along FindsDraft ⟨w, []⟩ as)
    (hr : (protocol B drawHash).Along Reaches ⟨w, []⟩ as) {contest : Contest}
    (hcontest : contest ∈ ((protocol B drawHash).run ⟨w, []⟩ as).shared.db.contests.rows)
    (hs : contest.status = .published) :
    (∃ lockAt, Task.schedule contest.id lockAt ∈ ((protocol B drawHash).run ⟨w, []⟩ as).pending) ∨
      ∃ j ∈ B.jobs ((protocol B drawHash).run ⟨w, []⟩ as).shared.queue, j.id = contest.id ∧
        (∃ lockAt, contest.lockAt = some lockAt ∧ lockAt ≤ j.data) ∧
        (j.state = .waiting ∨ (∃ token, j.state = .active token) ∨
          (j.state = .failed ∧ (j.attemptsMade = 3 ∨ 1 < j.stalledCounter))) := by
  have hstart : Attended (⟨w, []⟩ : Interleaving.Config (World B) Task) :=
    fun c hc hpublished => absurd hpublished (h.contests c hc)
  obtain ⟨⟨hsound, _⟩, hattended⟩ :=
    attended_run hB drawHash ⟨h.sound hB, by simp⟩ hstart hg hr
  have hopen : ¬ Closed ((protocol B drawHash).run ⟨w, []⟩ as).shared.db contest.id := by
    rintro ⟨c, hc, hid, hclosed⟩
    rw [Table.eq_of_id_eq _ hc hcontest hid] at hclosed
    exact hclosed (Or.inr hs)
  rcases hattended contest hcontest hs with hpending | ⟨j, hj, hid⟩ | hcompleted
  · exact Or.inl hpending
  · refine Or.inr ⟨j, hj, hid, ?_, ?_⟩
    · obtain ⟨lockAt, ⟨c, hc, hcid, _, hlock⟩, hle⟩ := hsound.jobs j hj
      rw [Table.eq_of_id_eq _ hc hcontest (hcid.trans hid)] at hlock
      exact ⟨lockAt, hlock, hle⟩
    · have hwithin := hB.attempts _ j hj
      cases hstate : j.state with
      | waiting => exact Or.inl rfl
      | active token => exact Or.inr (Or.inl ⟨token, rfl⟩)
      | completed =>
        exact absurd (hid ▸ hsound.completions _ (hB.recorded _ j hj hstate)) hopen
      | failed =>
        simp only [Job.Within, hstate] at hwithin
        exact Or.inr (Or.inr ⟨rfl, hwithin⟩)
  · exact absurd (hsound.completions _ hcompleted) hopen

end Runs

section Sample

/-- A queue in memory for the locks. -/
def lockQueue : Broker ℕ DateTime := Queue.broker options (by decide)

theorem documented_lockQueue : lockQueue.Documented options :=
  Queue.documented_broker options (by decide)

def drafted (c : Contest) : Contest := { c with status := .draft, lockAt := none }

/-- A draft whose first fixture kicks off at 100. -/
def draftWorld : World lockQueue where
  db := { Platform.openDb with contests := ⟨[drafted (Platform.openContest 1)], by decide⟩ }
  queue := lockQueue.empty

def timed (now : DateTime) (answer : Outbox.Answer) : Tick := ⟨⟨now, false, false⟩, answer⟩

/-- It is published at 10; the answer to the scheduling gets lost. The first attempt at the
lock fails, and the worker of the second one stalls. -/
def publication : List (Act Call Tick) :=
  [.start (.api (.publish 1)), .resume 0 (timed 10 .done), .resume 0 (timed 10 .done),
    .resume 0 (timed 10 (.lost "timeout")), .start (.worker 1), .resume 0 (timed 100 .done),
    .resume 0 (timed 100 (.refused "timeout")), .resume 0 (timed 101 .done),
    .start (.worker 1), .resume 0 (timed 110 .done), .start (.stalledCheck 1),
    .resume 1 (timed 120 .done)]

theorem lock_pending_publication :
    (∃ lockAt, Task.schedule 1 lockAt ∈
        ((protocol lockQueue (fun _ _ => "")).run ⟨draftWorld, []⟩ publication).pending) ∨
      ∃ j ∈ lockQueue.jobs
          ((protocol lockQueue (fun _ _ => "")).run ⟨draftWorld, []⟩ publication).shared.queue,
        j.id = 1 ∧ (∃ lockAt, some 100 = some lockAt ∧ lockAt ≤ j.data) ∧
        (j.state = .waiting ∨ (∃ token, j.state = .active token) ∨
          (j.state = .failed ∧ (j.attemptsMade = 3 ∨ 1 < j.stalledCounter))) := by
  have hpublished : ∃ contest ∈ ((protocol lockQueue (fun _ _ => "")).run ⟨draftWorld, []⟩
      publication).shared.db.contests.rows, contest.id = 1 ∧ contest.status = .published ∧
      contest.lockAt = some 100 := by decide +kernel
  obtain ⟨contest, hcontest, hid, hs, hlock⟩ := hpublished
  have hjob := lock_pending documented_lockQueue (fun _ _ => "") ⟨rfl, by decide⟩
    (by decide +kernel) (by decide +kernel) hcontest hs
  rwa [hid, hlock] at hjob

end Sample

end LockSchedule
end FootballIQ
