import FootballIQ.JobQueue
import FootballIQ.Schema
import Mathlib.Data.List.Sort

/-!
# The transactional outbox and its relay

An event is a row written with the change that it announces. The relay polls the rows
that are not published yet, oldest first, and adds each to the queue under the row's id
before it marks the row; a crash or a lost answer between the two leaves the row to a
later poll. Several processes relay at the same time.
-/

namespace FootballIQ
namespace Outbox

open Relational Jobs

/-- The payload of a row and of its job. -/
structure DomainEventEnvelope where
  eventId : ℕ
  occurredAt : DateTime
  event : DomainEvent
  deriving DecidableEq

structure OutboxEvent where
  id : ℕ
  payload : DomainEventEnvelope
  createdAt : DateTime
  publishedAt : Option DateTime
  attempts : ℕ
  lastError : Option String
  deriving DecidableEq

instance : Row OutboxEvent := ⟨OutboxEvent.id⟩

/-- The outbox table and the queue that it is relayed to, as the broker stores it. -/
structure Channel (B : Broker ℕ DomainEventEnvelope) where
  rows : Table OutboxEvent
  queue : B.Store

section Model
variable {B : Broker ℕ DomainEventEnvelope}

def newEvent (occurredAt createdAt : DateTime) (event : DomainEvent) (id : ℕ) : OutboxEvent where
  id := id
  payload := ⟨id, occurredAt, event⟩
  createdAt := createdAt
  publishedAt := none
  attempts := 0
  lastError := none

theorem id_newEvent (occurredAt createdAt : DateTime) (event : DomainEvent) (id : ℕ) :
    Row.id (newEvent occurredAt createdAt event id) = id := rfl

def emit (occurredAt createdAt : DateTime) (rows : Table OutboxEvent) (event : DomainEvent) :
    Table OutboxEvent :=
  rows.insert (newEvent occurredAt createdAt event) (id_newEvent occurredAt createdAt event)

/-- The job options of the relay; a stalled job is taken back once. -/
def options : Options := ⟨5, 10000, 1⟩

def batchSize : ℕ := 100

/-- The unpublished rows, oldest first. -/
def backlog (rows : Table OutboxEvent) : List OutboxEvent :=
  (rows.findMany (fun r => r.publishedAt = none)).insertionSort
    (fun r r' => r.createdAt ≤ r'.createdAt)

def batch (rows : Table OutboxEvent) : List OutboxEvent := (backlog rows).take batchSize

def addJob (event : OutboxEvent) (c : Channel B) : Channel B :=
  { c with queue := B.perform (.add event.id event.payload) c.queue }

def published (now : DateTime) (r : OutboxEvent) : OutboxEvent := { r with publishedAt := some now }

theorem id_published (now : DateTime) (r : OutboxEvent) : Row.id (published now r) = Row.id r := rfl

def markPublished (now : DateTime) (event : OutboxEvent) (c : Channel B) : Channel B :=
  { c with rows := c.rows.update event.id (published now) (id_published now) }

def erred (message : String) (r : OutboxEvent) : OutboxEvent :=
  { r with attempts := r.attempts + 1, lastError := some message }

theorem id_erred (message : String) (r : OutboxEvent) : Row.id (erred message r) = Row.id r := rfl

def noteError (event : OutboxEvent) (message : String) (c : Channel B) : Channel B :=
  { c with rows := c.rows.update event.id (erred message) (id_erred message) }

/-- What a call to Redis or to the database comes back with: an answer, an error after
it took effect, or an error without effect. -/
inductive Answer where
  | done
  | lost (message : String)
  | refused (message : String)
  deriving DecidableEq

/-- Where a tick of the relay stands. -/
inductive Task where
  | read
  | publish (event : OutboxEvent) (rest : List OutboxEvent)
  | mark (event : OutboxEvent) (rest : List OutboxEvent)
  | note (event : OutboxEvent) (message : String) (rest : List OutboxEvent)
  deriving DecidableEq

def nextEvent : List OutboxEvent → Option Task
  | [] => none
  | event :: rest => some (.publish event rest)

/-- One step of `relay`; the loop survives every error but those of its catch block. -/
def step (now : DateTime) (answer : Answer) (t : Task) (c : Channel B) : Channel B × Option Task :=
  match t with
  | .read =>
    match answer with
    | .done => (c, nextEvent (batch c.rows))
    | .lost _ | .refused _ => (c, none)
  | .publish event rest =>
    match answer with
    | .done => (addJob event c, some (.mark event rest))
    | .lost message => (addJob event c, some (.note event message rest))
    | .refused message => (c, some (.note event message rest))
  | .mark event rest =>
    match answer with
    | .done => (markPublished now event c, nextEvent rest)
    | .lost message => (markPublished now event c, some (.note event message rest))
    | .refused message => (c, some (.note event message rest))
  | .note event message rest =>
    match answer with
    | .done => (noteError event message c, nextEvent rest)
    | .lost _ => (noteError event message c, none)
    | .refused _ => (c, none)

end Model

section Relations
variable {B : Broker ℕ DomainEventEnvelope} {c c' c'' : Channel B}

/-- The row of an event as it was read; of a row only its marks change. -/
def IsRow (c : Channel B) (event : OutboxEvent) : Prop :=
  ∃ r ∈ c.rows.rows, r.id = event.id ∧ r.payload = event.payload

/-- What holds of the table and the queue together: the jobs are rows, and a published
row has been added. -/
structure Sound (c : Channel B) : Prop where
  spaced : Spaced options.removeOnComplete (B.completions c.queue)
  authentic : B.Carries (fun id payload => ∃ r ∈ c.rows.rows, r.id = id ∧ r.payload = payload) c.queue
  published : ∀ r ∈ c.rows.rows, r.publishedAt ≠ none → B.Accepted r.id c.queue
  labelled : ∀ r ∈ c.rows.rows, r.payload.eventId = r.id

/-- Rows stay with their payload, and what was added stays added. -/
structure Grows (c c' : Channel B) : Prop where
  rows : Table.Keeps OutboxEvent.payload c.rows c'.rows
  accepted : ∀ id, B.Accepted id c.queue → B.Accepted id c'.queue

theorem Grows.refl (c : Channel B) : Grows c c := ⟨Table.Keeps.refl _ _, fun _ => id⟩

theorem Grows.trans (h : Grows c c') (h' : Grows c' c'') : Grows c c'' :=
  ⟨h.rows.trans h'.rows, fun id hid => h'.accepted id (h.accepted id hid)⟩

theorem IsRow.grows {event : OutboxEvent} (h : IsRow c event) (hg : Grows c c') :
    IsRow c' event := by
  obtain ⟨r, hr, hid, hpayload⟩ := h
  obtain ⟨r', hr', hid', hpayload'⟩ := hg.rows r hr
  exact ⟨r', hr', hid'.trans hid, hpayload'.trans hpayload⟩

/-- What a tick of the relay knows of the rows that it has read. -/
def Knows (c : Channel B) : Task → Prop
  | .read => True
  | .publish event rest => IsRow c event ∧ ∀ x ∈ rest, IsRow c x
  | .mark event rest => B.Accepted event.id c.queue ∧ ∀ x ∈ rest, IsRow c x
  | .note _ _ rest => ∀ x ∈ rest, IsRow c x

theorem Knows.grows {t : Task} (h : Knows c t) (hg : Grows c c') : Knows c' t := by
  cases t with
  | read => trivial
  | publish event rest => exact ⟨h.1.grows hg, fun x hx => (h.2 x hx).grows hg⟩
  | mark event rest => exact ⟨hg.accepted _ h.1, fun x hx => (h.2 x hx).grows hg⟩
  | note event message rest => exact fun x hx => (h x hx).grows hg

theorem knows_nextEvent {events : List OutboxEvent} (h : ∀ x ∈ events, IsRow c x) {t : Task}
    (ht : nextEvent events = some t) : Knows c t := by
  cases events with
  | nil => cases ht
  | cons event rest =>
    rw [← Option.some.inj ht]
    exact ⟨h event List.mem_cons_self, fun x hx => h x (List.mem_cons_of_mem _ hx)⟩

theorem mem_backlog {rows : Table OutboxEvent} {r : OutboxEvent} :
    r ∈ backlog rows ↔ r ∈ rows.rows ∧ r.publishedAt = none := by
  unfold backlog
  rw [List.mem_insertionSort, Table.mem_findMany]

theorem isRow_of_batch {event : OutboxEvent} (h : event ∈ batch c.rows) : IsRow c event :=
  ⟨event, (mem_backlog.1 (List.mem_of_mem_take h)).1, rfl, rfl⟩

end Relations

section Steps
variable {B : Broker ℕ DomainEventEnvelope} (hB : B.Documented options) {c : Channel B}

section Queueing
include hB

theorem grows_perform (c : Channel B) (op : Op ℕ DomainEventEnvelope) :
    Grows c { c with queue := B.perform op c.queue } :=
  ⟨Table.Keeps.refl _ _, fun _ hid => hB.accepted_perform hid op⟩

/-- An operation of the queue that adds nothing but rows keeps channel and rows together. -/
theorem Sound.perform (hs : Sound c) {op : Op ℕ DomainEventEnvelope}
    (hop : ∀ id payload, op = .add id payload →
      ∃ r ∈ c.rows.rows, r.id = id ∧ r.payload = payload) :
    Sound { c with queue := B.perform op c.queue } where
  spaced := hB.spaced_perform hs.spaced op
  authentic := hB.carries_perform hs.authentic hop
  published r hr hp := hB.accepted_perform (hs.published r hr hp) op
  labelled := hs.labelled

theorem sound_addJob (hs : Sound c) {event : OutboxEvent} (h : IsRow c event) :
    Sound (addJob event c) := by
  have hop : ∀ id payload,
      (.add event.id event.payload : Op ℕ DomainEventEnvelope) = .add id payload →
        ∃ r ∈ c.rows.rows, r.id = id ∧ r.payload = payload := by
    rintro id payload ⟨⟩
    exact h
  exact hs.perform hB hop

theorem accepted_addJob (event : OutboxEvent) (c : Channel B) :
    B.Accepted event.id (addJob event c).queue := hB.accepted_add _ _ _

theorem grows_addJob (event : OutboxEvent) (c : Channel B) : Grows c (addJob event c) :=
  grows_perform hB c (.add event.id event.payload)

end Queueing

/-- Marks on one row leave the payloads alone. -/
theorem grows_update (c : Channel B) (id : ℕ) {f : OutboxEvent → OutboxEvent}
    (hf : ∀ r, Row.id (f r) = Row.id r) (hp : ∀ r, (f r).payload = r.payload) :
    Grows c { c with rows := c.rows.update id f hf } :=
  ⟨Table.keeps_updateWhere _ _ _ _ hf hp, fun _ => fun h => h⟩

theorem sound_update (hs : Sound c) {id : ℕ} {f : OutboxEvent → OutboxEvent}
    (hf : ∀ r, Row.id (f r) = Row.id r) (hp : ∀ r, (f r).payload = r.payload)
    (hpublished : ∀ r, (f r).publishedAt ≠ none → r.publishedAt ≠ none ∨ B.Accepted id c.queue) :
    Sound { c with rows := c.rows.update id f hf } where
  spaced := hs.spaced
  authentic := by
    have hrow : ∀ k payload, (∃ r ∈ c.rows.rows, r.id = k ∧ r.payload = payload) →
        ∃ r ∈ (c.rows.update id f hf).rows, r.id = k ∧ r.payload = payload := by
      rintro k payload ⟨r, hr, rfl, rfl⟩
      exact (grows_update c id hf hp).rows r hr
    exact ⟨fun j hj => hrow _ _ (hs.authentic.jobs j hj),
      fun k hk => (hs.authentic.completions k hk).imp (fun payload => hrow k payload)⟩
  published r' hr' hp' := by
    obtain ⟨r, hr, rfl⟩ := (Table.mem_updateWhere _ _ f hf _).1 hr'
    by_cases hid : Row.id r = id
    · rw [if_pos hid] at hp' ⊢
      have hsame : (f r).id = id := (hf r).trans hid
      rcases hpublished r hp' with hold | hadded
      · rw [show (f r).id = r.id from hf r]
        exact hs.published r hr hold
      · rwa [hsame]
    · rw [if_neg hid] at hp' ⊢
      exact hs.published r hr hp'
  labelled r' hr' := by
    obtain ⟨r, hr, rfl⟩ := (Table.mem_updateWhere _ _ f hf _).1 hr'
    split_ifs
    · rw [hp, show (f r).id = r.id from hf r]
      exact hs.labelled r hr
    · exact hs.labelled r hr

theorem sound_markPublished (hs : Sound c) {event : OutboxEvent}
    (h : B.Accepted event.id c.queue) (now : DateTime) : Sound (markPublished now event c) :=
  sound_update hs (id_published now) (fun _ => rfl) (fun _ _ => Or.inr h)

theorem sound_noteError (hs : Sound c) (event : OutboxEvent) (message : String) :
    Sound (noteError event message c) :=
  sound_update hs (id_erred message) (fun _ => rfl) (fun _ h => Or.inl h)

theorem grows_emit (occurredAt createdAt : DateTime) (event : DomainEvent) (c : Channel B) :
    Grows c { c with rows := emit occurredAt createdAt c.rows event } :=
  ⟨Table.keeps_insert _ _ _ (id_newEvent occurredAt createdAt event), fun _ h => h⟩

theorem sound_emit (hs : Sound c) (occurredAt createdAt : DateTime) (event : DomainEvent) :
    Sound { c with rows := emit occurredAt createdAt c.rows event } where
  spaced := hs.spaced
  authentic := by
    have hrow : ∀ k payload, (∃ r ∈ c.rows.rows, r.id = k ∧ r.payload = payload) →
        ∃ r ∈ (emit occurredAt createdAt c.rows event).rows, r.id = k ∧ r.payload = payload := by
      rintro k payload ⟨r, hr, rfl, rfl⟩
      exact (grows_emit occurredAt createdAt event c).rows r hr
    exact ⟨fun j hj => hrow _ _ (hs.authentic.jobs j hj),
      fun k hk => (hs.authentic.completions k hk).imp (fun payload => hrow k payload)⟩
  published r hr hp := by
    rcases (Table.mem_insert _ _ (id_newEvent occurredAt createdAt event) _).1 hr with hr | rfl
    · exact hs.published r hr hp
    · exact absurd rfl hp
  labelled r hr := by
    rcases (Table.mem_insert _ _ (id_newEvent occurredAt createdAt event) _).1 hr with hr | rfl
    · exact hs.labelled r hr
    · rfl

section Emissions
variable (occurredAt createdAt : DateTime) (events : List DomainEvent)

/-- The events that a transaction has written, in the order of their emission. -/
def emitAll (c : Channel B) : Channel B :=
  { c with rows := events.foldl (emit occurredAt createdAt) c.rows }

theorem grows_emitAll (c : Channel B) : Grows c (emitAll occurredAt createdAt events c) := by
  induction events generalizing c with
  | nil => exact Grows.refl c
  | cons event events ih => exact (grows_emit occurredAt createdAt event c).trans (ih _)

theorem sound_emitAll (hs : Sound c) : Sound (emitAll occurredAt createdAt events c) := by
  induction events generalizing c with
  | nil => exact hs
  | cons event events ih => exact ih (sound_emit hs occurredAt createdAt event)

theorem events_emitAll (c : Channel B) :
    (emitAll occurredAt createdAt events c).rows.rows.map (fun r => r.payload.event) =
      c.rows.rows.map (fun r => r.payload.event) ++ events := by
  induction events generalizing c with
  | nil => exact (List.append_nil _).symm
  | cons event events ih =>
    refine (ih { c with rows := emit occurredAt createdAt c.rows event }).trans ?_
    simp [emit, newEvent]

/-- Each of the events has a row now, under an id that no row had. -/
theorem row_of_emitted {event : DomainEvent} (h : event ∈ events) (c : Channel B) :
    ∃ r ∈ (emitAll occurredAt createdAt events c).rows.rows, r.payload.event = event ∧
      ∀ r' ∈ c.rows.rows, r'.id ≠ r.id := by
  induction events generalizing c with
  | nil => cases h
  | cons first events ih =>
    have hmem := Table.mem_insert c.rows _ (id_newEvent occurredAt createdAt first)
    let c₁ : Channel B := { c with rows := emit occurredAt createdAt c.rows first }
    rcases List.mem_cons.1 h with rfl | h
    · have hnew := (hmem (newEvent occurredAt createdAt event c.rows.fresh)).2 (Or.inr rfl)
      obtain ⟨r, hr, hid, hpayload⟩ := (grows_emitAll occurredAt createdAt events c₁).rows _ hnew
      refine ⟨r, hr, by rw [hpayload]; rfl, ?_⟩
      intro r' hr'
      rw [show r.id = c.rows.fresh from hid]
      exact c.rows.fresh_ne hr'
    · obtain ⟨r, hr, hevent, hfresh⟩ := ih h c₁
      exact ⟨r, hr, hevent, fun r' hr' => hfresh r' ((hmem r').2 (Or.inl hr'))⟩

end Emissions

include hB in
/-- A step of the relay keeps the channel sound, only lets it grow, and goes on with
rows that it has read. -/
theorem step_sound (now : DateTime) (answer : Answer) {t : Task} (hs : Sound c)
    (ht : Knows c t) :
    Sound (step now answer t c).1 ∧ Grows c (step now answer t c).1 ∧
      ∀ t', (step now answer t c).2 = some t' → Knows (step now answer t c).1 t' := by
  cases t with
  | read =>
    have hrest : ∀ x ∈ batch c.rows, IsRow c x := fun x hx => isRow_of_batch hx
    cases answer with
    | done => exact ⟨hs, Grows.refl c, fun t' h => knows_nextEvent hrest h⟩
    | lost _ => exact ⟨hs, Grows.refl c, fun t' h => by cases h⟩
    | refused _ => exact ⟨hs, Grows.refl c, fun t' h => by cases h⟩
  | publish event rest =>
    have hadd := grows_addJob hB event c
    have hrest : ∀ x ∈ rest, IsRow (addJob event c) x := fun x hx => (ht.2 x hx).grows hadd
    cases answer with
    | done =>
      refine ⟨sound_addJob hB hs ht.1, hadd, ?_⟩
      rintro t' ⟨⟩
      exact ⟨accepted_addJob hB event c, hrest⟩
    | lost message =>
      refine ⟨sound_addJob hB hs ht.1, hadd, ?_⟩
      rintro t' ⟨⟩
      exact hrest
    | refused message =>
      refine ⟨hs, Grows.refl c, ?_⟩
      rintro t' ⟨⟩
      exact ht.2
  | mark event rest =>
    have hmark : Grows c (markPublished now event c) :=
      grows_update c event.id (id_published now) (fun _ => rfl)
    have hrest : ∀ x ∈ rest, IsRow (markPublished now event c) x :=
      fun x hx => (ht.2 x hx).grows hmark
    cases answer with
    | done =>
      exact ⟨sound_markPublished hs ht.1 now, hmark, fun t' h => knows_nextEvent hrest h⟩
    | lost message =>
      refine ⟨sound_markPublished hs ht.1 now, hmark, ?_⟩
      rintro t' ⟨⟩
      exact hrest
    | refused message =>
      refine ⟨hs, Grows.refl c, ?_⟩
      rintro t' ⟨⟩
      exact ht.2
  | note event message rest =>
    have hnote : Grows c (noteError event message c) :=
      grows_update c event.id (id_erred message) (fun _ => rfl)
    have hrest : ∀ x ∈ rest, IsRow (noteError event message c) x :=
      fun x hx => (ht x hx).grows hnote
    cases answer with
    | done => exact ⟨sound_noteError hs event message, hnote, fun t' h => knows_nextEvent hrest h⟩
    | lost _ => exact ⟨sound_noteError hs event message, hnote, fun t' h => by cases h⟩
    | refused _ => exact ⟨hs, Grows.refl c, fun t' h => by cases h⟩

/-- The relay only marks rows. -/
theorem same_step (now : DateTime) (answer : Answer) (t : Task) (c : Channel B) :
    Table.Same OutboxEvent.payload c.rows (step now answer t c).1.rows := by
  have hmark : ∀ event, Table.Same OutboxEvent.payload c.rows (markPublished now event c).rows :=
    fun event => Table.same_update (id_published now) (fun _ _ _ => rfl)
  have hnote : ∀ event message,
      Table.Same OutboxEvent.payload c.rows (noteError event message c).rows :=
    fun event message => Table.same_update (id_erred message) (fun _ _ _ => rfl)
  cases t with
  | read | publish _ _ => cases answer <;> exact Table.Same.refl _ _
  | mark event rest =>
    cases answer with
    | done | lost _ => exact hmark event
    | refused _ => exact Table.Same.refl _ _
  | note event message rest =>
    cases answer with
    | done | lost _ => exact hnote event message
    | refused _ => exact Table.Same.refl _ _

include hB in
/-- The relay completes nothing. -/
theorem completions_step (now : DateTime) (answer : Answer) (t : Task) (c : Channel B) :
    B.completions (step now answer t c).1.queue = B.completions c.queue := by
  have hadd : ∀ event, B.completions (addJob event c).queue = B.completions c.queue :=
    fun event => hB.completions_of_ne nofun
  cases t with
  | read | mark _ _ | note _ _ _ => cases answer <;> rfl
  | publish event rest =>
    cases answer with
    | done | lost _ => exact hadd event
    | refused _ => rfl

end Steps

section Sample

/-- A queue in memory for the events. -/
def eventQueue : Broker ℕ DomainEventEnvelope := Queue.broker options (by decide)

theorem documented_eventQueue : eventQueue.Documented options :=
  Queue.documented_broker options (by decide)

end Sample

end Outbox
end FootballIQ
