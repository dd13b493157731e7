import FootballIQ.Backlog
import FootballIQ.Interleaving
import FootballIQ.Outbox

/-!
# The relay works off its backlog

One process relays: its ticks run to the end, one after the other, between emissions
whose timestamps do not go back. A row that fails stays at the head of the backlog, so
a batch full of failing rows keeps everything behind it from being published.
-/

namespace FootballIQ
namespace Outbox

open Relational Interleaving

variable {B : Jobs.Broker ℕ DomainEventEnvelope}

section Ticks

/-- One pass of the loop body; `outcome` is the error that publishing a row meets. -/
def publishOne (now : DateTime) (outcome : ℕ → Option String) (c : Channel B) (event : OutboxEvent) :
    Channel B :=
  match outcome event.id with
  | none => markPublished now event (addJob event c)
  | some message => noteError event message c

/-- A tick that runs alone and to its end. -/
def relay (now : DateTime) (outcome : ℕ → Option String) (c : Channel B) : Channel B :=
  (batch c.rows).foldl (publishOne now outcome) c

variable (B) in
def protocol : Protocol (Channel B) Unit Task (DateTime × Answer) :=
  ⟨fun _ => .read, fun inp t c => step inp.1 inp.2 t c⟩

/-- The answers that a tick gets when publishing fails for the rows with an outcome. -/
def answers (now : DateTime) (outcome : ℕ → Option String) :
    List OutboxEvent → List (Act Unit (DateTime × Answer))
  | [] => []
  | event :: rest =>
    (match outcome event.id with
      | none => [.resume 0 (now, .done), .resume 0 (now, .done)]
      | some message => [.resume 0 (now, .refused message), .resume 0 (now, .done)]) ++
      answers now outcome rest

theorem run_answers (now : DateTime) (outcome : ℕ → Option String) (events : List OutboxEvent)
    (c : Channel B) : (protocol B).run ⟨c, (nextEvent events).toList⟩ (answers now outcome events) =
      ⟨events.foldl (publishOne now outcome) c, []⟩ := by
  induction events generalizing c with
  | nil => rfl
  | cons event rest ih =>
    rw [answers, Protocol.run_append, List.foldl_cons, ← ih]
    cases h : outcome event.id with
    | none =>
      have hone : publishOne now outcome c event = markPublished now event (addJob event c) := by
        simp only [publishOne, h]
      rw [hone]
      cases rest <;> rfl
    | some message =>
      have hone : publishOne now outcome c event = noteError event message c := by
        simp only [publishOne, h]
      rw [hone]
      cases rest <;> rfl

/-- The steps of a tick amount to `relay`. -/
theorem run_tick (now : DateTime) (outcome : ℕ → Option String) (c : Channel B) :
    (protocol B).run ⟨c, []⟩ (.start () :: .resume 0 (now, .done) ::
      answers now outcome (batch c.rows)) = ⟨relay now outcome c, []⟩ := by
  have hread : (protocol B).next ((protocol B).next ⟨c, []⟩ (.start ())) (.resume 0 (now, .done)) =
      ⟨c, (nextEvent (batch c.rows)).toList⟩ := by
    cases h : batch c.rows with
    | nil => simp [Protocol.next, protocol, step, h, nextEvent]
    | cons event rest => simp [Protocol.next, protocol, step, h, nextEvent]
  rw [Protocol.run_cons, Protocol.run_cons, hread]
  exact run_answers now outcome _ c

end Ticks

section Line

/-- The ids of the backlog, in its order. -/
def line (c : Channel B) : List ℕ := (backlog c.rows).map OutboxEvent.id

/-- What a tick makes of a row of its batch. -/
def served (now : DateTime) (outcome : ℕ → Option String) (r : OutboxEvent) : OutboxEvent :=
  match outcome r.id with
  | none => published now r
  | some message => erred message r

variable (now : DateTime) (outcome : ℕ → Option String)

theorem id_served (r : OutboxEvent) : (served now outcome r).id = r.id := by
  unfold served
  cases outcome r.id <;> rfl

theorem createdAt_served (r : OutboxEvent) : (served now outcome r).createdAt = r.createdAt := by
  unfold served
  cases outcome r.id <;> rfl

theorem publishedAt_served (r : OutboxEvent) :
    (served now outcome r).publishedAt = none ↔ outcome r.id ≠ none ∧ r.publishedAt = none := by
  unfold served
  cases h : outcome r.id with
  | none => simp [published]
  | some message => simp [erred]

theorem rows_publishOne (c : Channel B) (event : OutboxEvent) :
    (publishOne now outcome c event).rows.rows =
      c.rows.rows.map (fun r => if r.id = event.id then served now outcome r else r) := by
  have hone : ∀ (f : OutboxEvent → OutboxEvent) (hf : ∀ r, Row.id (f r) = Row.id r),
      (∀ r, r.id = event.id → f r = served now outcome r) →
      (c.rows.update event.id f hf).rows =
        c.rows.rows.map (fun r => if r.id = event.id then served now outcome r else r) := by
    intro f hf hserved
    rw [Table.update, Table.rows_updateWhere]
    apply List.map_congr_left
    intro r _
    change (if r.id = event.id then f r else r) = _
    by_cases hid : r.id = event.id
    · rw [if_pos hid, if_pos hid, hserved r hid]
    · rw [if_neg hid, if_neg hid]
  unfold publishOne
  cases h : outcome event.id with
  | none =>
    refine hone _ (id_published now) ?_
    intro r hid
    simp only [served, hid, h]
  | some message =>
    refine hone _ (id_erred message) ?_
    intro r hid
    simp only [served, hid, h]

/-- A row after these ids were served. -/
def marked (ids : List ℕ) (r : OutboxEvent) : OutboxEvent :=
  if r.id ∈ ids then served now outcome r else r

/-- The id is still in line after these were served. -/
def stays (ids : List ℕ) (id : ℕ) : Bool := ¬ (id ∈ ids ∧ outcome id = none)

theorem id_marked (ids : List ℕ) (r : OutboxEvent) : (marked now outcome ids r).id = r.id := by
  unfold marked
  split_ifs
  · exact id_served now outcome r
  · rfl

theorem createdAt_marked (ids : List ℕ) (r : OutboxEvent) :
    (marked now outcome ids r).createdAt = r.createdAt := by
  unfold marked
  split_ifs
  · exact createdAt_served now outcome r
  · rfl

theorem publishedAt_marked (ids : List ℕ) (r : OutboxEvent) :
    (marked now outcome ids r).publishedAt = none ↔
      stays outcome ids r.id = true ∧ r.publishedAt = none := by
  unfold marked stays
  by_cases hmem : r.id ∈ ids
  · rw [if_pos hmem, publishedAt_served]
    simp [hmem]
  · rw [if_neg hmem]
    simp [hmem]

theorem rows_foldl (events : List OutboxEvent) (hnd : (events.map OutboxEvent.id).Nodup)
    (c : Channel B) : (events.foldl (publishOne now outcome) c).rows.rows =
      c.rows.rows.map (marked now outcome (events.map OutboxEvent.id)) := by
  induction events generalizing c with
  | nil => exact (List.map_id _).symm
  | cons event events ih =>
    rw [List.map_cons, List.nodup_cons] at hnd
    rw [List.foldl_cons, ih hnd.2, rows_publishOne, List.map_map]
    apply List.map_congr_left
    intro r _
    simp only [marked, Function.comp_apply, List.map_cons, List.mem_cons]
    by_cases hid : r.id = event.id
    · rw [if_pos hid, if_pos (Or.inl hid), id_served, hid, if_neg hnd.1]
    · simp only [hid, if_false, false_or]

theorem nodup_line (c : Channel B) : (line c).Nodup := by
  have hperm := List.perm_insertionSort (fun r r' : OutboxEvent => r.createdAt ≤ r'.createdAt)
    (c.rows.findMany (fun r => r.publishedAt = none))
  have hids : ((c.rows.findMany (fun r => r.publishedAt = none)).map OutboxEvent.id).Nodup :=
    c.rows.nodup_ids.sublist (List.filter_sublist.map _)
  exact (hperm.map OutboxEvent.id).nodup_iff.2 hids

theorem mem_line {c : Channel B} {id : ℕ} :
    id ∈ line c ↔ ∃ r ∈ c.rows.rows, r.id = id ∧ r.publishedAt = none := by
  unfold line
  rw [List.mem_map]
  constructor
  · rintro ⟨r, hr, rfl⟩
    obtain ⟨hmem, hnone⟩ := mem_backlog.1 hr
    exact ⟨r, hmem, rfl, hnone⟩
  · rintro ⟨r, hmem, rfl, hnone⟩
    exact ⟨r, mem_backlog.2 ⟨hmem, hnone⟩, rfl⟩

theorem rows_relay (c : Channel B) : (relay now outcome c).rows.rows =
    c.rows.rows.map (marked now outcome ((line c).take batchSize)) := by
  have hbatch : (batch c.rows).map OutboxEvent.id = (line c).take batchSize := by
    rw [batch, line, List.map_take]
  have hnd : ((batch c.rows).map OutboxEvent.id).Nodup :=
    hbatch ▸ (nodup_line c).sublist (List.take_sublist _ _)
  rw [relay, rows_foldl now outcome _ hnd, hbatch]

/-- A tick changes neither the order of the rows that stay nor what they are sorted by. -/
theorem backlog_relay (c : Channel B) : backlog (relay now outcome c).rows =
    ((backlog c.rows).filter (fun r => stays outcome ((line c).take batchSize) r.id)).map
      (marked now outcome ((line c).take batchSize)) := by
  have hpending : (relay now outcome c).rows.findMany (fun r => r.publishedAt = none) =
      ((c.rows.findMany (fun r => r.publishedAt = none)).filter
        (fun r => stays outcome ((line c).take batchSize) r.id)).map
          (marked now outcome ((line c).take batchSize)) := by
    unfold Table.findMany
    rw [rows_relay, List.filter_map, List.filter_filter]
    congr 1
    apply List.filter_congr
    intro r _
    simp only [Function.comp_apply, publishedAt_marked, Bool.decide_and, Bool.decide_eq_true]
  unfold backlog
  rw [hpending, ← List.map_insertionSort (fun r r' : OutboxEvent => r.createdAt ≤ r'.createdAt)
    (fun r r' : OutboxEvent => r.createdAt ≤ r'.createdAt) (marked now outcome _) _
    (fun a _ b _ => by rw [createdAt_marked, createdAt_marked])]
  rw [Backlog.filter_insertionSort]

/-- Where the first of a line were served, those of them stay that failed, and all the rest. -/
theorem filter_stays {ids : List ℕ} (hnd : ids.Nodup) (n : ℕ) :
    ids.filter (stays outcome (ids.take n)) =
      Backlog.round n (fun id => outcome id ≠ none) ids := by
  rw [Backlog.round]
  conv_lhs => arg 2; rw [← List.take_append_drop n ids]
  rw [List.filter_append]
  congr 1
  · apply List.filter_congr
    intro id hmem
    simp [stays, hmem]
  · rw [List.filter_eq_self]
    intro id hmem
    have hout : id ∉ ids.take n := by
      rw [← List.take_append_drop n ids, List.nodup_append] at hnd
      exact fun hin => hnd.2.2 id hin id hmem rfl
    simp [stays, hout]

/-- A tick is one round of service at the head of the line. -/
theorem line_relay (c : Channel B) :
    line (relay now outcome c) = Backlog.round batchSize (fun id => outcome id ≠ none) (line c) := by
  have hline : line (relay now outcome c) =
      (line c).filter (stays outcome ((line c).take batchSize)) := by
    unfold line
    rw [backlog_relay, List.map_map, List.filter_map]
    apply List.map_congr_left
    intro r _
    exact id_marked now outcome _ r
  rw [hline, filter_stays outcome (nodup_line c)]

/-- A new row queues up at the end. -/
theorem line_emit {c : Channel B} {createdAt : DateTime} (occurredAt : DateTime) (event : DomainEvent)
    (h : ∀ r ∈ c.rows.rows, r.createdAt ≤ createdAt) :
    line { c with rows := emit occurredAt createdAt c.rows event } = line c ++ [c.rows.fresh] := by
  have hpending : (emit occurredAt createdAt c.rows event).findMany (fun r => r.publishedAt = none) =
      c.rows.findMany (fun r => r.publishedAt = none) ++
        [newEvent occurredAt createdAt event c.rows.fresh] := by
    unfold Table.findMany emit
    rw [Table.rows_insert, List.filter_append]
    rfl
  unfold line backlog
  rw [hpending, Backlog.insertionSort_concat, List.map_append]
  · rfl
  · intro r hr
    exact h r ((Table.mem_findMany _ _ r).1 hr).1

end Line

section Runs

/-- A tick of the relay, or the commit of a transaction with one event. -/
inductive Event where
  | tick (now : DateTime)
  | emit (occurredAt createdAt : DateTime) (event : DomainEvent)
  deriving DecidableEq

variable (outcome : ℕ → Option String)

def perform : Event → Channel B → Channel B
  | .tick now, c => relay now outcome c
  | .emit occurredAt createdAt event, c =>
    { c with rows := emit occurredAt createdAt c.rows event }

/-- No row is older than one that is there already. -/
def Clocked : Event → Channel B → Prop
  | .tick _, _ => True
  | .emit _ createdAt _, c => ∀ r ∈ c.rows.rows, r.createdAt ≤ createdAt

instance : ∀ (e : Event) (c : Channel B), Decidable (Clocked e c)
  | .tick _, _ => .isTrue trivial
  | .emit _ createdAt _, c => inferInstanceAs (Decidable (∀ r ∈ c.rows.rows, r.createdAt ≤ createdAt))

def ticks (es : List Event) : ℕ := es.countP (fun e => match e with
  | .tick _ => true
  | .emit _ _ _ => false)

@[simp] theorem ticks_tick (now : DateTime) (es : List Event) :
    ticks (.tick now :: es) = ticks es + 1 := List.countP_cons_of_pos rfl

@[simp] theorem ticks_emit (occurredAt createdAt : DateTime) (event : DomainEvent)
    (es : List Event) : ticks (.emit occurredAt createdAt event :: es) = ticks es :=
  List.countP_cons_of_neg (by simp)

theorem keeps_perform (e : Event) (c : Channel B) :
    Table.Keeps (fun _ => ()) c.rows (perform outcome e c).rows := by
  cases e with
  | tick now =>
    intro r hr
    refine ⟨marked now outcome ((line c).take batchSize) r, ?_, id_marked now outcome _ r, rfl⟩
    exact rows_relay now outcome c ▸ List.mem_map_of_mem hr
  | emit occurredAt createdAt event =>
    exact Table.keeps_insert _ _ _ (id_newEvent occurredAt createdAt event)

/-- The line of a run is the line served in rounds, as new ids arrive at its end. -/
theorem line_run {c : Channel B} {es : List Event} (h : Sequential.Along (perform outcome) Clocked c es) :
    ∃ fs, line (Sequential.run (perform outcome) c es) =
        Sequential.run (Backlog.step batchSize (fun id => outcome id ≠ none)) (line c) fs ∧
      Backlog.rounds fs = ticks es ∧ ∀ r ∈ c.rows.rows, .arrive r.id ∉ fs := by
  induction es generalizing c with
  | nil => exact ⟨[], rfl, rfl, by simp⟩
  | cons e es ih =>
    obtain ⟨fs, hline, hrounds, harrive⟩ := ih h.2
    have hold : ∀ r ∈ c.rows.rows, .arrive r.id ∉ fs := by
      intro r hr
      obtain ⟨r', hr', hid, _⟩ := keeps_perform outcome e c r hr
      rw [show r.id = r'.id from hid.symm]
      exact harrive r' hr'
    cases e with
    | tick now =>
      refine ⟨.round :: fs, ?_, by rw [Backlog.rounds_round, ticks_tick, hrounds], ?_⟩
      · rw [Sequential.run_cons, hline, Sequential.run_cons]
        exact congrArg (fun xs => Sequential.run _ xs fs) (line_relay now outcome c)
      · intro r hr hmem
        rcases List.mem_cons.1 hmem with hmem | hmem
        · cases hmem
        · exact hold r hr hmem
    | emit occurredAt createdAt event =>
      refine ⟨.arrive c.rows.fresh :: fs, ?_,
        by rw [Backlog.rounds_arrive, ticks_emit, hrounds], ?_⟩
      · rw [Sequential.run_cons, hline, Sequential.run_cons]
        exact congrArg (fun xs => Sequential.run _ xs fs) (line_emit occurredAt event h.1)
      · intro r hr hmem
        rcases List.mem_cons.1 hmem with hmem | hmem
        · exact c.rows.fresh_ne hr (Backlog.Event.arrive.inj hmem)
        · exact hold r hr hmem

/-- The row with this id has been published. -/
def Published (c : Channel B) (id : ℕ) : Prop :=
  ∃ r ∈ c.rows.rows, r.id = id ∧ r.publishedAt ≠ none

theorem published_iff_not_mem_line {c : Channel B} {r : OutboxEvent} (hr : r ∈ c.rows.rows) :
    Published c r.id ↔ r.id ∉ line c := by
  rw [mem_line]
  constructor
  · rintro ⟨r₁, hr₁, hid, hpublished⟩ ⟨r₂, hr₂, hid', hnone⟩
    rw [c.rows.eq_of_id_eq hr₁ hr₂ (hid.trans hid'.symm)] at hpublished
    exact hpublished hnone
  · intro h
    exact ⟨r, hr, rfl, fun hnone => h ⟨r, hr, rfl, hnone⟩⟩

theorem keeps_run (es : List Event) (c : Channel B) :
    Table.Keeps (fun _ => ()) c.rows (Sequential.run (perform outcome) c es).rows := by
  induction es generalizing c with
  | nil => exact Table.Keeps.refl _ _
  | cons e es ih => exact (keeps_perform outcome e c).trans (ih _)

/-- Once there were ticks enough for the publishable rows before it, a publishable row is
published exactly when fewer rows that keep failing are before it than a batch takes. -/
theorem published_iff {c : Channel B} {ahead behind : List OutboxEvent} {r : OutboxEvent}
    (hbacklog : backlog c.rows = ahead ++ r :: behind) (hr : outcome r.id = none) {es : List Event}
    (hclock : Sequential.Along (perform outcome) Clocked c es)
    (hticks : ahead.countP (fun x => outcome x.id ≠ none) < 100 →
      ahead.countP (fun x => outcome x.id = none) <
        ticks es * (100 - ahead.countP (fun x => outcome x.id ≠ none))) :
    Published (Sequential.run (perform outcome) c es) r.id ↔
      ahead.countP (fun x => outcome x.id ≠ none) < 100 := by
  obtain ⟨fs, hline, hrounds, harrive⟩ := line_run outcome hclock
  have hrow : r ∈ c.rows.rows := (mem_backlog.1 (hbacklog ▸ List.mem_append_right _
    List.mem_cons_self)).1
  obtain ⟨r', hr', hid, _⟩ := keeps_run outcome es c r hrow
  have hids : line c = ahead.map OutboxEvent.id ++ r.id :: behind.map OutboxEvent.id := by
    rw [line, hbacklog, List.map_append, List.map_cons]
  have hnd := nodup_line c
  rw [hids, List.nodup_append, List.nodup_cons] at hnd
  have hcount : ∀ p : ℕ → Bool, (ahead.map OutboxEvent.id).countP p = ahead.countP (fun x => p x.id) :=
    fun p => List.countP_map
  rw [show r.id = r'.id from hid.symm, published_iff_not_mem_line hr', hline,
    show r'.id = r.id from hid, hids]
  constructor
  · intro hgone
    by_contra hfull
    apply hgone
    apply Backlog.starved
    rw [hcount]
    exact not_lt.1 hfull
  · intro hroom
    refine Backlog.served (by simp [hr]) ?_ hnd.2.1.1 (harrive r hrow) ?_
    · intro hmem
      exact hnd.2.2 r.id hmem r.id List.mem_cons_self rfl
    · rw [hcount, hcount, hrounds]
      have hneg : ahead.countP (fun x => decide (¬ outcome x.id ≠ none)) =
          ahead.countP (fun x => decide (outcome x.id = none)) := by
        apply List.countP_congr
        intro x _
        simp
      rw [hneg]
      exact hticks hroom

/-- Two lock events, of which the older one is never accepted by the queue. -/
def twoLocks : Channel eventQueue where
  rows := ⟨[newEvent 10 10 (.contestLocked 1) 1, newEvent 20 20 (.contestLocked 2) 2], by decide⟩
  queue := eventQueue.empty

theorem published_iff_twoLocks :
    Published (Sequential.run (perform fun id => if id = 1 then some "too large" else none)
      twoLocks [.emit 30 30 (.contestLocked 3), .tick 40]) 2 ↔
      [newEvent 10 10 (.contestLocked 1) 1].countP
        (fun x => (if x.id = 1 then some "too large" else none) ≠ none) < 100 := by
  have hbacklog : backlog twoLocks.rows = [newEvent 10 10 (.contestLocked 1) 1] ++
      newEvent 20 20 (.contestLocked 2) 2 :: [] := by decide
  exact published_iff _ hbacklog (by decide) (by decide) (by decide)

end Runs

end Outbox
end FootballIQ
