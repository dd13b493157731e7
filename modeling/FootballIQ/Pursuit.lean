import FootballIQ.EventPipeline

/-!
# No scored contest is forgotten

A contest in SCORED has an announcement whose job has not completed and whose payout no
worker has passed by. So it is paid out sooner or later, or its job has used up its
attempts and stays visible as failed.
-/

namespace FootballIQ
namespace Pipeline

open Transaction Relational Interleaving Jobs
open Platform (Announces TemplatesKnown)

section Distribution
variable {drawHash : ℕ → ℕ → String} {tick : Platform.Tick} {db db' : Db}

/-- A payout that has run to its end leaves its contest in another status than SCORED. -/
theorem not_scored_of_distributed {contestId : ℕ} (htemplates : TemplatesKnown db)
    {t : Platform.Task} (ht : Follows (.distribute contestId) t)
    (h : Platform.action drawHash tick t db = .ok (none, db')) :
    ∀ c, db'.contests.find contestId = some c → c.status ≠ .scored := by
  intro c hc hs
  cases t with
  | ready call =>
    rw [show call = .distribute contestId from ht] at h
    simp only [Platform.action, Platform.begin_, bind_ok_iff, get_ok_iff, pure_ok_iff] at h
    obtain ⟨_, _, ⟨rfl, rfl⟩, hnone, rfl⟩ := h
    rw [Option.map_eq_none_iff] at hnone
    have htemplate := htemplates c ((Table.find_eq_some_iff _ _ _).1 hc).1
    obtain ⟨template, htemplate⟩ := Option.ne_none_iff_exists'.1 htemplate
    simp [Settlement.distributeRead, hc, htemplate, hs] at hnone
  | distributeTx snap =>
    obtain ⟨_, _, hrun⟩ := Platform.action_ok drawHash h
    obtain ⟨c', hc', hsettled⟩ := Platform.settled_of_distributeTx hrun
    rw [show contestId = snap.contest.id from Platform.Call.distribute.inj ht] at hc
    rw [Option.some.inj (hc'.symm.trans hc), hs] at hsettled
    cases hsettled
  | scoring job => cases ht
  | settle _ _ | publishTx _ _ | submitTx _ | cancelTx _ _ | finalizeTx _ _ => exact absurd ht id

end Distribution

section Invariant
variable {B : Broker ℕ Outbox.DomainEventEnvelope}

/-- The worker of this job has no payout before it any more. -/
def Past (id : ℕ) : Task → Prop
  | .working jobId _ work | .beside jobId _ work =>
    jobId = id ∧ ∀ contestId, Work.call (.distribute contestId) ∉ work
  | _ => False

/-- The row announces the contest as scored and is still to be acted on. -/
structure Chases (c : Config (World B) Task) (contestId : ℕ) (r : Outbox.OutboxEvent) : Prop where
  row : r ∈ c.shared.channel.rows.rows
  event : r.payload.event = .contestScored contestId
  incomplete : r.id ∉ B.completions c.shared.channel.queue
  ahead : ∀ t ∈ c.pending, ¬ Past r.id t

/-- Every contest in SCORED is chased by an announcement. -/
def Pursued (c : Config (World B) Task) : Prop :=
  ∀ contestId contest, c.shared.db.contests.find contestId = some contest →
    contest.status = .scored → ∃ r, Chases c contestId r

variable {w w' : World B} {l r : List Task} {t : Task} {next : Option Task}

theorem rowOf_of_past (hw : Knows w t) {id : ℕ} (h : Past id t) : ∃ event, RowOf w id event := by
  cases t with
  | working jobId token work | beside jobId token work =>
    obtain ⟨event, hrow, _⟩ := hw
    exact ⟨event, h.1 ▸ hrow⟩
  | _ => exact False.elim h

/-- Only rows complete. -/
theorem rowOf_of_completed (hw : Consistent w) {id : ℕ}
    (h : id ∈ B.completions w.channel.queue) : ∃ event, RowOf w id event := by
  obtain ⟨_, r, hr, hid, _⟩ := hw.channel.authentic.completions id h
  exact ⟨r.payload.event, r, hr, hid, rfl⟩

/-- What one step has to leave alone for the announcements to go on chasing: a contest
newly scored is announced under a new id, only a job past its payout completes, and a
worker passes the payout only when the contest is not in SCORED any more. -/
structure Minds (w w' : World B) (t : Task) (next : Option Task) : Prop where
  grows : Outbox.Grows w.channel w'.channel
  scored : ∀ contestId c', w'.db.contests.find contestId = some c' → c'.status = .scored →
    (∃ c, w.db.contests.find contestId = some c ∧ c.status = .scored) ∨
      ∃ r ∈ w'.channel.rows.rows, r.payload.event = .contestScored contestId ∧
        ∀ r' ∈ w.channel.rows.rows, r'.id ≠ r.id
  completions : ∀ id ∈ B.completions w'.channel.queue,
    id ∈ B.completions w.channel.queue ∨ Past id t
  known : ∀ u ∈ next, ∀ id, Past id u → ∃ event, RowOf w id event
  passes : ∀ u ∈ next, ∀ contestId, ∀ r ∈ w.channel.rows.rows,
    r.payload.event = .contestScored contestId → Past r.id u → Past r.id t ∨
      ∀ c', w'.db.contests.find contestId = some c' → c'.status ≠ .scored

theorem Pursued.minds (h : Pursued ⟨w, l ++ t :: r⟩) (hw : Consistent w)
    (hknows : ∀ u ∈ l ++ t :: r, Knows w u) (hm : Minds w w' t next) :
    Pursued ⟨w', l ++ next.toList ++ r⟩ := by
  have hmem : ∀ u ∈ l ++ next.toList ++ r, u ∈ l ++ t :: r ∨ u ∈ next := by
    intro u hu
    rw [List.mem_append, List.mem_append, Option.mem_toList] at hu
    rcases hu with (hu | hu) | hu
    · exact Or.inl (List.mem_append_left _ hu)
    · exact Or.inr hu
    · exact Or.inl (List.mem_append_right _ (List.mem_cons_of_mem _ hu))
  have ht : t ∈ l ++ t :: r := List.mem_append_right _ List.mem_cons_self
  intro contestId contest hcontest hs
  rcases hm.scored contestId contest hcontest hs with ⟨c, hc, hcs⟩ | ⟨row, hrow, hevent, hfresh⟩
  · obtain ⟨row, hrow⟩ := h contestId c hc hcs
    obtain ⟨row', hmem', hid, hpayload⟩ := hm.grows.rows row hrow.row
    have hid' : row'.id = row.id := hid
    refine ⟨row', hmem', by rw [hpayload, hrow.event], ?_, ?_⟩
    · rw [hid']
      intro hdone
      rcases hm.completions row.id hdone with hdone | hpast
      · exact hrow.incomplete hdone
      · exact hrow.ahead t ht hpast
    · rw [hid']
      intro u hu hpast
      rcases hmem u hu with hu | hu
      · exact hrow.ahead u hu hpast
      · rcases hm.passes u hu contestId row hrow.row hrow.event hpast with hpast | hno
        · exact hrow.ahead t ht hpast
        · exact hno contest hcontest hs
  · have hnew : ∀ event, ¬ RowOf w row.id event := by
      rintro event ⟨r', hr', hid, _⟩
      exact hfresh r' hr' hid
    refine ⟨row, hrow, hevent, ?_, ?_⟩
    · intro hdone
      rcases hm.completions row.id hdone with hdone | hpast
      · obtain ⟨event, hrowOf⟩ := rowOf_of_completed hw hdone
        exact hnew event hrowOf
      · obtain ⟨event, hrowOf⟩ := rowOf_of_past (hknows t ht) hpast
        exact hnew event hrowOf
    · intro u hu hpast
      rcases hmem u hu with hu | hu
      · obtain ⟨event, hrowOf⟩ := rowOf_of_past (hknows u hu) hpast
        exact hnew event hrowOf
      · obtain ⟨event, hrowOf⟩ := hm.known u hu row.id hpast
        exact hnew event hrowOf

end Invariant

section Steps
variable {B : Broker ℕ Outbox.DomainEventEnvelope} (hB : B.Documented Outbox.options)
  (drawHash : ℕ → ℕ → String) {w w' : World B} {tick : Tick} {t : Task} {next : Option Task}

section Queueing
include hB

/-- A step on the queue that completes nothing and leaves no worker past its payout. -/
theorem minds_queue {op : Op ℕ Outbox.DomainEventEnvelope}
    (hop : ∀ id token, op ≠ .complete id token)
    (hknown : ∀ u ∈ next, ∀ id, Past id u → ∃ event, RowOf w id event)
    (hpasses : ∀ u ∈ next, ∀ contestId, ∀ r ∈ w.channel.rows.rows,
      r.payload.event = .contestScored contestId → ¬ Past r.id u) :
    Minds w (w.onQueue op) t next where
  grows := (grows_onQueue hB w op).channel
  scored _ c' hc' hs := Or.inl ⟨c', hc', hs⟩
  completions _ hid := Or.inl (hB.completions_of_ne hop ▸ hid)
  known := hknown
  passes u hu contestId r hr hevent hpast := absurd hpast (hpasses u hu contestId r hr hevent)

/-- The worker that takes the job of a scored contest has the payout before it. -/
theorem minds_take (hw : Consistent w) {jobId token : ℕ} {payload : Outbox.DomainEventEnvelope}
    (htake : B.take jobId w.channel.queue = some (token, payload)) :
    Minds w (w.onQueue (.take jobId)) t (some (.working jobId token (route payload.event))) := by
  have hrow := rowOf_take hB hw htake
  refine minds_queue hB nofun ?_ ?_
  · rintro u ⟨⟩ id hpast
    exact ⟨payload.event, hpast.1 ▸ hrow⟩
  · rintro u ⟨⟩ contestId r hr hevent hpast
    have hsame : payload.event = .contestScored contestId :=
      hrow.event_eq ⟨r, hr, hpast.1.symm, hevent⟩
    apply hpast.2 contestId
    rw [hsame]
    exact List.mem_cons_self

/-- A worker that completes its job has done all its work. -/
theorem minds_complete (jobId token : ℕ) :
    Minds w (w.onQueue (.complete jobId token)) (.working jobId token []) none where
  grows := (grows_onQueue hB w _).channel
  scored _ c' hc' hs := Or.inl ⟨c', hc', hs⟩
  completions id hid := by
    rcases hB.completes (.complete jobId token) w.channel.queue with
      hsame | ⟨k, _, hop, _, happend⟩
    · exact Or.inl (hsame ▸ hid)
    · cases hop
      have hid' : id ∈ B.completions w.channel.queue ++ [jobId] := happend ▸ hid
      rcases List.mem_append.1 hid' with hid' | hid'
      · exact Or.inl hid'
      · exact Or.inr ⟨(List.mem_singleton.1 hid').symm, fun _ hmem => by cases hmem⟩
  known := by rintro u ⟨⟩
  passes := by rintro u ⟨⟩

/-- The relay completes nothing and leaves the database alone. -/
theorem minds_relay (hw : Consistent w) {task : Outbox.Task} (ht : Outbox.Knows w.channel task) :
    Minds w
      { w with channel := (Outbox.step tick.platform.now tick.answer task w.channel).1 } t
      ((Outbox.step tick.platform.now tick.answer task w.channel).2.map .relay) := by
  have hrelay : ∀ u ∈ (Outbox.step tick.platform.now tick.answer task w.channel).2.map Task.relay,
      ∀ id, ¬ Past id u := by
    intro u hu id hpast
    obtain ⟨_, _, rfl⟩ := Option.map_eq_some_iff.1 hu
    exact hpast
  constructor
  · exact (Outbox.step_sound hB tick.platform.now tick.answer hw.channel ht).2.1
  · exact fun _ c' hc' hs => Or.inl ⟨c', hc', hs⟩
  · intro id hid
    rw [Outbox.completions_step hB] at hid
    exact Or.inl hid
  · exact fun u hu id hpast => absurd hpast (hrelay u hu id)
  · exact fun u hu _ r _ _ hpast => absurd hpast (hrelay u hu r.id)

end Queueing

/-- A step that commits an announced change. -/
theorem minds_commit {db : Db} (h : Announces w.db db)
    (hknown : ∀ u ∈ next, ∀ id, Past id u → ∃ event, RowOf w id event)
    (hpasses : ∀ u ∈ next, ∀ contestId, ∀ r ∈ w.channel.rows.rows,
      r.payload.event = .contestScored contestId → Past r.id u → Past r.id t ∨
        ∀ c', db.contests.find contestId = some c' → c'.status ≠ .scored) :
    Minds w (w.commit tick db) t next where
  grows := (grows_commit tick h).channel
  scored contestId c' hc' hs := by
    rcases h.scored contestId c' hc' hs with hold | hnew
    · exact Or.inl hold
    · exact Or.inr (Outbox.row_of_emitted _ _ _ hnew w.channel)
  completions _ hid := Or.inl hid
  known := hknown
  passes := hpasses

/-- A commit after which the task stands no further than before. -/
theorem minds_commit_of_past {db : Db} (h : Announces w.db db) (ht : Knows w t)
    (hnext : ∀ u ∈ next, ∀ id, Past id u → Past id t) : Minds w (w.commit tick db) t next :=
  minds_commit h (fun u hu id hpast => rowOf_of_past ht (hnext u hu id hpast))
    (fun u hu _ r _ _ hpast => Or.inl (hnext u hu r.id hpast))

theorem minds_stay (ht : Knows w t) (hnext : ∀ u ∈ next, ∀ id, Past id u → Past id t) :
    Minds w w t next where
  grows := Outbox.Grows.refl _
  scored _ c' hc' hs := Or.inl ⟨c', hc', hs⟩
  completions _ hid := Or.inl hid
  known u hu id hpast := rowOf_of_past ht (hnext u hu id hpast)
  passes u hu _ r _ _ hpast := Or.inl (hnext u hu r.id hpast)

/-- The worker is past the payout only when its call has run to its end. -/
theorem minds_run (hw : Consistent w) {jobId token : ℕ} {task : Platform.Task} {rest : List Work}
    (ht : Knows w (.calling jobId token task rest)) {db : Db} {next : Option Platform.Task}
    (hok : Platform.action drawHash tick.platform task w.db = .ok (next, db)) :
    Minds w (w.commit tick db) (.calling jobId token task rest)
      (some (resume jobId token rest next)) := by
  obtain ⟨event, call, hrow, hwork, hfollows⟩ := ht
  refine minds_commit (Platform.announces_action drawHash hok) ?_ ?_
  · rintro u ⟨⟩ id hpast
    cases next with
    | some task' => exact False.elim hpast
    | none => exact ⟨event, hpast.1 ▸ hrow⟩
  · rintro u ⟨⟩ contestId r hr hevent hpast
    cases next with
    | some task' => exact False.elim hpast
    | none =>
      have hsame : event = .contestScored contestId :=
        hrow.event_eq ⟨r, hr, hpast.1.symm, hevent⟩
      have hmem := hwork.subset List.mem_cons_self
      rcases call_of_route hmem with ⟨k, rfl⟩ | ⟨f, rfl⟩
      · cases hsame.symm.trans (event_of_distribute hmem)
        exact Or.inr (not_scored_of_distributed hw.templates hfollows hok)
      · cases hsame.symm.trans (event_of_resultFinalized hmem)

include hB in
theorem minds_effect (hw : Consistent w) (ht : Knows w t) (h : Effect drawHash tick w t w' next) :
    Minds w w' t next := by
  cases h with
  | api task =>
    refine minds_commit_of_past (Platform.announces_step drawHash tick.platform task w.db) ht ?_
    intro u hu id hpast
    obtain ⟨_, _, rfl⟩ := Option.map_eq_some_iff.1 hu
    exact hpast
  | elsewhere =>
    refine minds_commit_of_past (tick.change.announces w.db) ht ?_
    intro u hu id hpast
    cases hmore : tick.more <;> simp only [hmore, Bool.false_eq_true, if_true, if_false] at hu
    · cases hu
    · cases hu
      exact hpast
  | relay task => exact minds_relay hB hw ht
  | stall | miss | fail => exact minds_queue hB nofun (by rintro u ⟨⟩) (by rintro u ⟨⟩)
  | take jobId token payload htake => exact minds_take hB hw htake
  | complete jobId token => exact minds_complete hB jobId token
  | forget => exact minds_stay ht (by rintro u ⟨⟩)
  | call | giveUp =>
    refine minds_stay ht ?_
    rintro u ⟨⟩ id hpast
    exact False.elim hpast
  | aside jobId token x rest hx =>
    refine minds_stay ht ?_
    rintro u ⟨⟩ id ⟨hid, hrest⟩
    refine ⟨hid, ?_⟩
    intro contestId hmem
    rcases List.mem_cons.1 hmem with hmem | hmem
    · exact hx _ hmem.symm
    · exact hrest contestId hmem
  | beside jobId token rest =>
    refine minds_commit_of_past (tick.change.announces w.db) ht ?_
    rintro u ⟨⟩ id hpast
    cases hmore : tick.more <;> rw [hmore] at hpast <;> exact hpast
  | besideLost =>
    refine minds_commit_of_past (tick.change.announces w.db) ht ?_
    rintro u ⟨⟩ id hpast
    exact False.elim hpast
  | lost jobId token task rest db next hok =>
    refine minds_commit_of_past (Platform.announces_action drawHash hok) ht ?_
    rintro u ⟨⟩ id hpast
    exact False.elim hpast
  | run jobId token task rest db next hok => exact minds_run drawHash hw ht hok

include hB in
theorem pursued_next {c : Config (World B) Task} (hc : Protocol.Holds Consistent Knows c)
    (h : Pursued c) (a : Act Call Tick) : Pursued ((protocol B drawHash).next c a) := by
  cases a with
  | start call =>
    intro contestId contest hcontest hs
    obtain ⟨r, hr⟩ := h contestId contest hcontest hs
    refine ⟨r, hr.row, hr.event, hr.incomplete, ?_⟩
    intro t ht hpast
    rcases List.mem_append.1 ht with ht | ht
    · exact hr.ahead t ht hpast
    · rw [List.mem_singleton.1 ht] at hpast
      cases call <;> exact hpast
  | resume i tick =>
    cases hi : c.pending[i]? with
    | none => rwa [(protocol B drawHash).next_resume_none hi]
    | some t =>
      obtain ⟨l, r, hp, hn⟩ := (protocol B drawHash).next_resume_some tick hi
      rw [hn]
      have hc' : c = ⟨c.shared, l ++ t :: r⟩ := by rw [← hp]
      rw [hc'] at h
      have ht : Knows c.shared t := hc.2 t (by simp [hp])
      exact h.minds hc.1 (hp ▸ hc.2)
        (minds_effect hB drawHash hc.1 ht (effect_step drawHash tick t c.shared))

end Steps

section Delivery
variable {B : Broker ℕ Outbox.DomainEventEnvelope} (hB : B.Documented Outbox.options)
  (drawHash : ℕ → ℕ → String) {w : World B}

theorem Opening.pursued (h : Opening w) : Pursued ⟨w, []⟩ := by
  intro contestId contest hcontest hs
  exact absurd hs (h.unscored contest ((Table.find_eq_some_iff _ _ _).1 hcontest).1)

include hB in
theorem holds_run (h : Opening w) (as : List (Act Call Tick)) :
    Protocol.Holds Consistent Knows ((protocol B drawHash).run ⟨w, []⟩ as) ∧
      Pursued ((protocol B drawHash).run ⟨w, []⟩ as) := by
  have hkept := consistent_inductive hB drawHash (fun _ _ _ => True)
  have hall : ∀ (as : List (Act Call Tick)) (c : Config (World B) Task),
      Protocol.Holds Consistent Knows c → Pursued c →
      Protocol.Holds Consistent Knows ((protocol B drawHash).run c as) ∧
        Pursued ((protocol B drawHash).run c as) := by
    intro as
    induction as with
    | nil => exact fun c hc hp => ⟨hc, hp⟩
    | cons a as ih =>
      intro c hc hp
      refine ih _ ?_ (pursued_next hB drawHash hc hp a)
      cases a with
      | start call => exact hkept.next_start hc call
      | resume i tick => exact hkept.next_resume hc i tick (fun _ _ => trivial)
  exact hall as ⟨w, []⟩ ⟨h.consistent hB, by simp⟩ h.pursued

/-- A job that the workers still have, or one that failed for good. -/
def Outstanding (j : Job ℕ Outbox.DomainEventEnvelope) : Prop :=
  match j.state with
  | .waiting | .active _ => True
  | .completed => False
  | .failed => j.attemptsMade = 5 ∨ 1 < j.stalledCounter

/-- An accepted row that has not completed is a job, with the row's own payload. -/
theorem stored_of_published (hw : Consistent w) {r : Outbox.OutboxEvent}
    (hr : r ∈ w.channel.rows.rows) (hpublished : r.publishedAt ≠ none) :
    (∃ j ∈ B.jobs w.channel.queue, j.id = r.id ∧ j.data = r.payload) ∨
      r.id ∈ B.completions w.channel.queue := by
  refine (hw.channel.published r hr hpublished).imp_left ?_
  rintro ⟨j, hj, hid⟩
  obtain ⟨r', hr', hid', hpayload⟩ := hw.channel.authentic.jobs j hj
  refine ⟨j, hj, hid, ?_⟩
  rw [← hpayload, Table.eq_of_id_eq _ hr' hr (hid'.trans hid)]

include hB in
/-- Whatever crashes, gets lost or runs twice: a contest in SCORED always has its
announcement in the outbox unpublished, or in the queue as a job that is waiting, being
worked on, or failed after five attempts or a second stall. -/
theorem scored_pursued (h : Opening w) (as : List (Act Call Tick)) {contestId : ℕ}
    {contest : Contest}
    (hcontest : ((protocol B drawHash).run ⟨w, []⟩ as).shared.db.contests.find contestId =
      some contest) (hs : contest.status = .scored) :
    ∃ r ∈ ((protocol B drawHash).run ⟨w, []⟩ as).shared.channel.rows.rows,
      r.payload.event = .contestScored contestId ∧ (r.publishedAt = none ∨
        ∃ j ∈ B.jobs ((protocol B drawHash).run ⟨w, []⟩ as).shared.channel.queue,
          j.id = r.id ∧ j.data = r.payload ∧ Outstanding j) := by
  obtain ⟨⟨hw, _⟩, hpursued⟩ := holds_run hB drawHash h as
  obtain ⟨r, hr⟩ := hpursued contestId contest hcontest hs
  refine ⟨r, hr.row, hr.event, ?_⟩
  by_cases hpublished : r.publishedAt = none
  · exact Or.inl hpublished
  right
  rcases stored_of_published hw hr.row hpublished with ⟨j, hj, hid, hdata⟩ | hdone
  · refine ⟨j, hj, hid, hdata, ?_⟩
    have hwithin := hB.attempts _ j hj
    unfold Outstanding
    cases hstate : j.state with
    | waiting | active _ => trivial
    | completed => exact hr.incomplete (hid ▸ hB.recorded _ j hj hstate)
    | failed =>
      simp only [Job.Within, hstate] at hwithin
      exact hwithin
  · exact absurd hdone hr.incomplete

/-- How outbox and queue stand to each other: the table has a row for each event, in
order, each row is yet to be published, stored as a job, or completed, nothing but rows
is stored or completes, and two completions of one row are far apart. -/
structure Delivered (w : World B) : Prop where
  rows : w.channel.rows.rows.map (fun r => r.payload.event) = w.db.outbox
  accounted : ∀ r ∈ w.channel.rows.rows, r.publishedAt = none ∨
    (∃ j ∈ B.jobs w.channel.queue, j.id = r.id ∧ j.data = r.payload) ∨
      r.id ∈ B.completions w.channel.queue
  jobs : ∀ j ∈ B.jobs w.channel.queue, ∃ r ∈ w.channel.rows.rows, r.id = j.id ∧ r.payload = j.data
  completed : ∀ id ∈ B.completions w.channel.queue, ∃ r ∈ w.channel.rows.rows, r.id = id
  spaced : Spaced 10000 (B.completions w.channel.queue)

include hB in
/-- No event is lost, made up or altered on its way to the workers, and a row completes
a second time only after ten thousand other completions. -/
theorem delivered_of_run (h : Opening w) (as : List (Act Call Tick)) :
    Delivered ((protocol B drawHash).run ⟨w, []⟩ as).shared := by
  obtain ⟨⟨hw, _⟩, _⟩ := holds_run hB drawHash h as
  refine ⟨hw.mirror, ?_, hw.channel.authentic.jobs, ?_, hw.channel.spaced⟩
  · intro r hr
    by_cases hpublished : r.publishedAt = none
    · exact Or.inl hpublished
    · exact Or.inr (stored_of_published hw hr hpublished)
  · intro id hid
    obtain ⟨_, r, hr, hrid, _⟩ := hw.channel.authentic.completions id hid
    exact ⟨r, hr, hrid⟩

end Delivery

section Sample

theorem scored_pursued_matchday :
    ∃ r ∈ ((protocol Outbox.eventQueue (fun _ _ => "")).run ⟨lockedWorld, []⟩
        matchday).shared.channel.rows.rows,
      r.payload.event = .contestScored 1 ∧ (r.publishedAt = none ∨
        ∃ j ∈ Outbox.eventQueue.jobs ((protocol Outbox.eventQueue (fun _ _ => "")).run
            ⟨lockedWorld, []⟩ matchday).shared.channel.queue,
          j.id = r.id ∧ j.data = r.payload ∧ Outstanding j) := by
  have hscored : ∃ contest ∈ ((protocol Outbox.eventQueue (fun _ _ => "")).run ⟨lockedWorld, []⟩
      matchday).shared.db.contests.find 1, contest.status = .scored := by decide +kernel
  obtain ⟨contest, hcontest, hs⟩ := hscored
  exact scored_pursued Outbox.documented_eventQueue (fun _ _ => "") opening_lockedWorld matchday
    hcontest hs

theorem delivered_of_run_matchday :
    Delivered ((protocol Outbox.eventQueue (fun _ _ => "")).run ⟨lockedWorld, []⟩ matchday).shared :=
  delivered_of_run Outbox.documented_eventQueue (fun _ _ => "") opening_lockedWorld matchday

end Sample

end Pipeline
end FootballIQ
