import FootballIQ.Wallet
import Mathlib.Data.List.MinMax

/-!
# The contest lifecycle

Creation, publication, locking and cancellation. A cancellation reads the
contest with its active entries and its escrow first, and refunds what it read
in a later transaction.
-/

namespace FootballIQ
namespace Contests

open Transaction Relational WalletAccounts

structure ContestFixtureInput where
  fixtureId : ℕ
  order : ℕ
  deriving DecidableEq

structure ContestSlotInput where
  slotNo : ℕ
  fixtureId : ℕ
  tier : DifficultyTier
  deriving DecidableEq

structure CreateContestRequest where
  title : String
  entryFeeMinor : ℤ
  fee_pos : entryFeeMinor > 0
  currency : String
  maxEntries : Option ℕ
  fixtures : List ContestFixtureInput
  slots : List ContestSlotInput
  deriving DecidableEq

/-- `findUnique` by id among the contests that are not soft-deleted. -/
def findContest (db : Db) (contestId : ℕ) : Option Contest :=
  (db.contests.find contestId).filter (fun c => c.deletedAt = none)

section Create

def draftContest (dto : CreateContestRequest) (ruleSet : RuleSet) (template : PayoutTemplate)
    (adminId id : ℕ) : Contest where
  id := id
  title := dto.title
  status := .draft
  entryFeeMinor := dto.entryFeeMinor
  fee_pos := dto.fee_pos
  currency := dto.currency
  commissionBps := 1500
  maxEntries := dto.maxEntries
  lockAt := none
  publishedAt := none
  lockedAt := none
  scoredAt := none
  settledAt := none
  cancelledAt := none
  deletedAt := none
  ruleSetId := ruleSet.id
  payoutTemplateId := template.id
  createdById := adminId

theorem id_draftContest (dto : CreateContestRequest) (ruleSet : RuleSet)
    (template : PayoutTemplate) (adminId id : ℕ) :
    Row.id (draftContest dto ruleSet template adminId id) = id := rfl

def createMatch (contestId : ℕ) (f : ContestFixtureInput) : Tx Failure Db ℕ := do
  let db ← get
  throwIf (db.contestMatches.findFirst (fun m => m.contestId = contestId ∧
    (m.fixtureId = f.fixtureId ∨ m.order = f.order)) ≠ none) .uniqueViolation
  set { db with
    contestMatches := db.contestMatches.insert (fun id => ⟨id, contestId, f.fixtureId, f.order⟩)
      (fun _ => rfl) }
  return db.contestMatches.fresh

/-- The loop over the fixtures; the result maps each fixture to its match. -/
def createMatches (contestId : ℕ) : List ContestFixtureInput → Tx Failure Db (List (ℕ × ℕ))
  | [] => return []
  | f :: fs => do
    let matchId ← createMatch contestId f
    let matchByFixture ← createMatches contestId fs
    return (f.fixtureId, matchId) :: matchByFixture

def createSlot (contestId : ℕ) (matchByFixture : List (ℕ × ℕ)) (s : ContestSlotInput) :
    Tx Failure Db PUnit := do
  let contestMatchId ← orThrow (matchByFixture.lookup s.fixtureId) .foreignKeyViolation
  modify (fun db => { db with
    contestSlots := db.contestSlots.insert
      (fun id => ⟨id, contestId, contestMatchId, s.slotNo, s.tier⟩) (fun _ => rfl) })

/-- The transaction of `create`: the draft, its matches, then the slots on them. -/
def createTx (dto : CreateContestRequest) (ruleSet : RuleSet) (template : PayoutTemplate)
    (adminId : ℕ) : Tx Failure Db ℕ := do
  let db ← get
  set { db with
    contests := db.contests.insert (draftContest dto ruleSet template adminId)
      (id_draftContest dto ruleSet template adminId) }
  let matchByFixture ← createMatches db.contests.fresh dto.fixtures
  forM dto.slots (createSlot db.contests.fresh matchByFixture)
  return db.contests.fresh

def create (now : DateTime) (adminId : ℕ) (dto : CreateContestRequest) : Tx Failure Db ℕ := do
  let slotViolations := SlipValidator.validateSlotConfiguration
    (dto.slots.map (fun s => ⟨s.slotNo, s.tier⟩))
  throwIf (slotViolations ≠ []) (.invalidSlip "BAD_SLOT_CONFIG" slotViolations)
  let fixtureIds := (dto.fixtures.map (·.fixtureId)).dedup
  let orphans := dto.slots.filter (fun s => s.fixtureId ∉ fixtureIds)
  throwIf (orphans ≠ []) (.badRequest "SLOT_FIXTURE_NOT_IN_CONTEST"
    (orphans.head?.map (fun s => s!"Slot {s.slotNo} references a fixture not in this contest")))
  throwIf ((dto.slots.map (·.slotNo)).dedup.length ≠ 10)
    (.badRequest "DUPLICATE_SLOT_NO" (some "Slot numbers 1–10 must be unique"))
  let db ← get
  let fixtures := db.fixtures.findMany (fun f => f.id ∈ fixtureIds)
  throwIf (fixtures.length ≠ fixtureIds.length)
    (.badRequest "FIXTURE_NOT_FOUND" (some "One or more fixtures do not exist"))
  let unusable := fixtures.filter (fun f => f.status ≠ .scheduled ∨ f.kickoffAt ≤ now)
  throwIf (unusable ≠ []) (.badRequest "FIXTURE_NOT_SCHEDULABLE"
    (unusable.head?.map (fun f => s!"Fixture {f.id} has started or is not scheduled")))
  let missing := Failure.conflict "CONFIG_MISSING"
    (some "Active rule set / payout template not configured")
  let ruleSet ← orThrow (db.ruleSets.findFirst (fun r => r.isActive)) missing
  let template ← orThrow (db.payoutTemplates.findFirst (fun t => t.isActive)) missing
  createTx dto ruleSet template adminId

/-- The new matches are those of the contest. -/
theorem createMatches_ok {contestId : ℕ} {fs : List ContestFixtureInput} {db db' : Db}
    {ms : List (ℕ × ℕ)} (h : createMatches contestId fs db = .ok (ms, db')) :
    ∃ t, db' = { db with contestMatches := t } ∧
      ∀ m ∈ t.rows, m ∈ db.contestMatches.rows ∨ m.contestId = contestId := by
  induction fs generalizing db ms with
  | nil =>
    simp only [createMatches, pure_ok_iff] at h
    exact ⟨db.contestMatches, h.2.symm, fun m hm => Or.inl hm⟩
  | cons f fs ih =>
    simp only [createMatches, createMatch, bind_ok_iff, get_ok_iff, throwIf_ok_iff, set_ok_iff,
      pure_ok_iff] at h
    obtain ⟨_, _, ⟨_, _, ⟨rfl, rfl⟩, _, _, ⟨_, rfl⟩, _, _, rfl, rfl, rfl⟩, _, _, hrest, _, rfl⟩ := h
    obtain ⟨t, rfl, hrows⟩ := ih hrest
    refine ⟨t, rfl, fun m hm => ?_⟩
    rcases hrows m hm with hm | hm
    · rcases (Table.mem_insert _ _ (by intro k; rfl) m).1 hm with hm | rfl
      · exact Or.inl hm
      · exact Or.inr rfl
    · exact Or.inr hm

theorem createSlots_ok {contestId : ℕ} {ms : List (ℕ × ℕ)} {ss : List ContestSlotInput}
    {db : Db} {r : PUnit × Db}
    (h : (forM ss (createSlot contestId ms) : Tx Failure Db PUnit) db = .ok r) :
    ∃ t, r.2 = { db with contestSlots := t } := by
  induction ss generalizing db with
  | nil =>
    rw [forM_nil_ok_iff] at h
    exact ⟨db.contestSlots, h.symm⟩
  | cons s ss ih =>
    rw [forM_cons_ok_iff] at h
    simp only [createSlot, bind_ok_iff, orThrow_ok_iff, modify_ok_iff] at h
    obtain ⟨_, ⟨_, _, ⟨_, rfl⟩, rfl⟩, hrest⟩ := h
    obtain ⟨t, ht⟩ := ih hrest
    exact ⟨t, ht⟩

/-- The transaction of a creation inserts one draft under a fresh id and otherwise only
touches the matches, where it adds its own, and the slots. -/
theorem createTx_ok {adminId : ℕ} {dto : CreateContestRequest} {ruleSet : RuleSet}
    {template : PayoutTemplate} {db db' : Db} {id : ℕ}
    (h : createTx dto ruleSet template adminId db = .ok (id, db')) :
    ∃ ms ss, db' = { db with
      contests := db.contests.insert (draftContest dto ruleSet template adminId)
        (id_draftContest dto ruleSet template adminId)
      contestMatches := ms
      contestSlots := ss } ∧
      ∀ m ∈ ms.rows, m ∈ db.contestMatches.rows ∨ m.contestId = db.contests.fresh := by
  simp only [createTx, bind_ok_iff, get_ok_iff, set_ok_iff, pure_ok_iff] at h
  obtain ⟨_, _, ⟨rfl, rfl⟩, _, _, rfl, _, _, hms, _, _, hss, _, rfl⟩ := h
  obtain ⟨ms, rfl, hrows⟩ := createMatches_ok hms
  obtain ⟨ss, hss⟩ := createSlots_ok hss
  exact ⟨ms, ss, hss, hrows⟩

/-- A creation that passes its checks is its transaction. -/
theorem create_spec {now adminId : ℕ} {dto : CreateContestRequest} {db db' : Db} {id : ℕ}
    (h : create now adminId dto db = .ok (id, db')) :
    ∃ ruleSet template, createTx dto ruleSet template adminId db = .ok (id, db') := by
  simp only [create, bind_ok_iff, get_ok_iff, throwIf_ok_iff, orThrow_ok_iff] at h
  obtain ⟨_, _, ⟨_, rfl⟩, _, _, ⟨_, rfl⟩, _, _, ⟨_, rfl⟩, _, _, ⟨rfl, rfl⟩, _, _, ⟨_, rfl⟩, _, _,
    ⟨_, rfl⟩, ruleSet, _, ⟨_, rfl⟩, template, _, ⟨_, rfl⟩, htx⟩ := h
  exact ⟨ruleSet, template, htx⟩

theorem create_ok {now adminId : ℕ} {dto : CreateContestRequest} {db db' : Db} {id : ℕ}
    (h : create now adminId dto db = .ok (id, db')) :
    ∃ ruleSet template ms ss, db' = { db with
      contests := db.contests.insert (draftContest dto ruleSet template adminId)
        (id_draftContest dto ruleSet template adminId)
      contestMatches := ms
      contestSlots := ss } := by
  obtain ⟨ruleSet, template, htx⟩ := create_spec h
  obtain ⟨ms, ss, hdb, _⟩ := createTx_ok htx
  exact ⟨ruleSet, template, ms, ss, hdb⟩

end Create

section Status

/-- `updateMany` on one contest in a given status; the result is the row count. -/
def moveContest (contestId : ℕ) (source : ContestStatus) (f : Contest → Contest)
    (hf : ∀ c, Row.id (f c) = Row.id c) : Tx Failure Db ℕ := do
  let db ← get
  set { db with
    contests := db.contests.updateWhere (fun c => c.id = contestId ∧ c.status = source) f hf }
  return db.contests.count (fun c => c.id = contestId ∧ c.status = source)

/-- The guarded update hits the contest exactly when it is in the source status. -/
theorem moveContest_cases (contestId : ℕ) (source : ContestStatus) (f : Contest → Contest)
    (hf : ∀ c, Row.id (f c) = Row.id c) (db : Db) :
    (∃ c, db.contests.find contestId = some c ∧ c.status = source ∧
        moveContest contestId source f hf db =
          .ok (1, { db with contests := db.contests.update contestId f hf })) ∨
      ((∀ c, db.contests.find contestId = some c → c.status ≠ source) ∧
        moveContest contestId source f hf db = .ok (0, db)) := by
  have hrun : moveContest contestId source f hf db =
      .ok (db.contests.count (fun c => c.id = contestId ∧ c.status = source),
        { db with
          contests := db.contests.updateWhere (fun c => c.id = contestId ∧ c.status = source)
            f hf }) := rfl
  by_cases hc : ∃ c, db.contests.find contestId = some c ∧ c.status = source
  · obtain ⟨c, hc, hs⟩ := hc
    have hup : db.contests.updateWhere (fun c => c.id = contestId ∧ c.status = source) f hf =
        db.contests.update contestId f hf := Table.updateWhere_key_of_pos hc hs
    have hcount : db.contests.count (fun c => c.id = contestId ∧ c.status = source) = 1 :=
      Table.count_key_of_pos hc hs
    exact Or.inl ⟨c, hc, hs, by rw [hrun, hup, hcount]⟩
  · have hno : ∀ c, db.contests.find contestId = some c → c.status ≠ source :=
      fun c hfind hs => hc ⟨c, hfind, hs⟩
    have hup : db.contests.updateWhere (fun c => c.id = contestId ∧ c.status = source) f hf =
        db.contests := Table.updateWhere_key_of_neg hno
    have hcount : db.contests.count (fun c => c.id = contestId ∧ c.status = source) = 0 :=
      Table.count_key_of_neg hno
    exact Or.inr ⟨hno, by rw [hrun, hup, hcount]⟩

/-- The scheduled lock job: only a published contest is locked. -/
def lock (now : DateTime) (contestId : ℕ) : Tx Failure Db PUnit := do
  let count ← moveContest contestId .published
    (fun c => { c with status := .locked, lockedAt := some now }) (fun _ => rfl)
  if count = 1 then Db.emit (.contestLocked contestId) else pure ⟨⟩

/-- The contests after a lock that hit. -/
def locked (db : Db) (now contestId : ℕ) : Db :=
  { db with
    contests := db.contests.update contestId
      (fun c => { c with status := .locked, lockedAt := some now }) (fun _ => rfl)
    outbox := db.outbox ++ [.contestLocked contestId] }

theorem lock_cases (now contestId : ℕ) (db : Db) :
    (∃ c, db.contests.find contestId = some c ∧ c.status = .published ∧
        lock now contestId db = .ok (⟨⟩, locked db now contestId)) ∨
      ((∀ c, db.contests.find contestId = some c → c.status ≠ .published) ∧
        lock now contestId db = .ok (⟨⟩, db)) := by
  unfold lock
  rcases moveContest_cases contestId .published
    (fun c => { c with status := .locked, lockedAt := some now }) (fun _ => rfl) db with
    ⟨c, hc, hs, hmove⟩ | ⟨hno, hmove⟩
  · exact Or.inl ⟨c, hc, hs, by rw [bind_of_ok hmove]; rfl⟩
  · exact Or.inr ⟨hno, by rw [bind_of_ok hmove]; rfl⟩

end Status

section Publish

def kickoffs (db : Db) (contestId : ℕ) : List DateTime :=
  (db.contestMatches.findMany (fun m => m.contestId = contestId)).filterMap
    (fun m => (db.fixtures.find m.fixtureId).map (·.kickoffAt))

def escrowAccount (contestId : ℕ) (currency : String) (id : ℕ) : LedgerAccount where
  id := id
  type := .contestEscrow
  userId := none
  contestId := some contestId
  currency := currency
  balanceMinor := 0

theorem id_escrowAccount (contestId : ℕ) (currency : String) (id : ℕ) :
    Row.id (escrowAccount contestId currency id) = id := rfl

/-- The accounts of no contest with this id: a nested create first disconnects
an account that the contest already has. -/
def disconnect (accounts : Table LedgerAccount) (contestId : ℕ) : Table LedgerAccount :=
  accounts.updateWhere (fun a => a.contestId = some contestId)
    (fun a => { a with contestId := none }) (fun _ => rfl)

def createEscrow (contestId : ℕ) (currency : String) : Tx Failure Db PUnit :=
  modify (fun db => { db with
    ledger := { db.ledger with
      accounts := (disconnect db.ledger.accounts contestId).insert
        (escrowAccount contestId currency) (id_escrowAccount contestId currency) } })

/-- The contest must be a draft whose earliest fixture lies ahead. -/
def publishRead (now : DateTime) (contestId : ℕ) : Tx Failure Db (Contest × DateTime) := do
  let db ← get
  let contest ← orThrow (findContest db contestId) (.notFound "CONTEST_NOT_FOUND" none)
  throwIf (contest.status ≠ .draft)
    (.conflict "INVALID_STATUS" (some s!"Cannot publish from {contest.status.name}"))
  let lockAt ← orThrow (kickoffs db contestId).min? (.error "Invalid time value")
  throwIf (lockAt ≤ now)
    (.conflict "ALREADY_KICKED_OFF" (some "Earliest fixture has already kicked off"))
  return (contest, lockAt)

def publishTx (now : DateTime) (contest : Contest) (lockAt : DateTime) : Tx Failure Db PUnit := do
  Db.updateContest contest.id
    (fun c => { c with status := .published, lockAt := some lockAt, publishedAt := some now })
    (fun _ => rfl)
  createEscrow contest.id contest.currency
  Db.emit (.contestPublished contest.id lockAt)

theorem findContest_some {db : Db} {contestId : ℕ} {c : Contest}
    (h : findContest db contestId = some c) :
    db.contests.find contestId = some c ∧ c.id = contestId ∧ c.deletedAt = none := by
  obtain ⟨hc, hdel⟩ := Option.filter_eq_some_iff.1 h
  exact ⟨hc, ((Table.find_eq_some_iff _ _ _).1 hc).2, of_decide_eq_true hdel⟩

theorem publishRead_ok {now contestId : ℕ} {db db' : Db} {r : Contest × DateTime}
    (h : publishRead now contestId db = .ok (r, db')) :
    db' = db ∧ db.contests.find contestId = some r.1 ∧ r.1.id = contestId ∧ r.1.status = .draft := by
  simp only [publishRead, bind_ok_iff, get_ok_iff, orThrow_ok_iff, throwIf_ok_iff,
    pure_ok_iff] at h
  obtain ⟨_, _, ⟨rfl, rfl⟩, c, _, ⟨hfind, rfl⟩, _, _, ⟨hs, rfl⟩, lockAt, _, ⟨_, rfl⟩, _, _, ⟨_, rfl⟩,
    rfl, rfl⟩ := h
  obtain ⟨hc, hid, _⟩ := findContest_some hfind
  exact ⟨rfl, hc, hid, not_not.1 hs⟩

theorem publishRead_lockAt {now contestId : ℕ} {db db' : Db} {r : Contest × DateTime}
    (h : publishRead now contestId db = .ok (r, db')) :
    (kickoffs db contestId).min? = some r.2 := by
  simp only [publishRead, bind_ok_iff, get_ok_iff, orThrow_ok_iff, throwIf_ok_iff,
    pure_ok_iff] at h
  obtain ⟨_, _, ⟨rfl, rfl⟩, c, _, ⟨_, rfl⟩, _, _, ⟨_, rfl⟩, lockAt, _, ⟨hmin, rfl⟩, _, _, ⟨_, rfl⟩,
    rfl, rfl⟩ := h
  exact hmin

/-- The publication writes over whatever status the contest has by then. -/
theorem publishTx_ok_iff (now : DateTime) (c : Contest) (lockAt : DateTime) (db : Db)
    (r : PUnit × Db) :
    publishTx now c lockAt db = .ok r ↔ db.contests.find c.id ≠ none ∧ r.2 = { db with
      ledger := { db.ledger with
        accounts := (disconnect db.ledger.accounts c.id).insert
          (escrowAccount c.id c.currency) (id_escrowAccount c.id c.currency) }
      contests := db.contests.update c.id
        (fun c => { c with status := .published, lockAt := some lockAt, publishedAt := some now })
        (fun _ => rfl)
      outbox := db.outbox ++ [.contestPublished c.id lockAt] } := by
  simp only [publishTx, createEscrow, bind_ok_iff, Db.updateContest_ok_iff, modify_ok_iff,
    Db.emit_ok_iff]
  constructor
  · rintro ⟨_, _, ⟨hex, rfl⟩, _, _, rfl, hr⟩
    exact ⟨hex, hr.symm⟩
  · rintro ⟨hex, hr⟩
    exact ⟨⟨⟩, _, ⟨hex, rfl⟩, ⟨⟩, _, rfl, hr.symm⟩

end Publish

section Cancel

/-- What `cancel` reads before its transaction. -/
structure CancelSnapshot where
  contest : Contest
  entries : List Entry
  escrow : Option LedgerAccount
  deriving DecidableEq

def cancellable : List ContestStatus := [.draft, .published, .locked]

def activeEntries (db : Db) (contestId : ℕ) : List Entry :=
  db.entries.findMany (fun e => e.contestId = contestId ∧ e.status = .active)

def cancelRead (contestId : ℕ) : Tx Failure Db CancelSnapshot := do
  let db ← get
  let contest ← orThrow (findContest db contestId) (.notFound "CONTEST_NOT_FOUND" none)
  throwIf (contest.status ∉ cancellable) (.conflict "INVALID_STATUS"
    (some s!"Cannot cancel from {contest.status.name} — scoring has begun"))
  return ⟨contest, activeEntries db contestId, ofContest db.ledger.accounts contestId⟩

def refundKey (entryId : ℕ) : String := "refund:" ++ toString entryId

def refundInput (contest : Contest) (reason : String) (entry : Entry)
    (escrow wallet : LedgerAccount) : PostJournalInput where
  type := .entryRefund
  idempotencyKey := refundKey entry.id
  description := s!"Refund — {contest.title} cancelled"
  lines := [⟨escrow.id, -contest.entryFeeMinor⟩, ⟨wallet.id, contest.entryFeeMinor⟩]
  metadata := [("contestId", toString contest.id), ("entryId", toString entry.id),
    ("reason", reason)]

def refundNotice (contest : Contest) (reason : String) (entry : Entry) : Notification where
  userId := entry.userId
  type := "contest.cancelled"
  title := "Contest cancelled — entry refunded"
  body := s!"\"{contest.title}\" was cancelled ({reason}). Your entry fee is back in your wallet."
  data := [("contestId", toString contest.id)]

/-- One turn of the refund loop. -/
def refundEntry (snap : CancelSnapshot) (reason : String) (entry : Entry) :
    Tx Failure Db PUnit := do
  let db ← get
  let wallet ← orThrow
    (ofUser db.ledger.accounts entry.userId .userAvailable snap.contest.currency) .recordNotFound
  let escrow ← orThrow snap.escrow (.error "Cannot read properties of null (reading 'id')")
  let _ ← Db.post (refundInput snap.contest reason entry escrow wallet)
  Db.updateEntry entry.id (fun e => { e with status := .refunded }) (fun _ => rfl)
  Db.notify (refundNotice snap.contest reason entry)

/-- The escrow must be exactly zero after the money has moved. -/
def assertEscrowEmpty (operation : String) (contestId escrowId : ℕ) : Tx Failure Db PUnit := do
  let db ← get
  let escrowAfter ← orThrow (db.ledger.accounts.find escrowId) .recordNotFound
  throwIf (escrowAfter.balanceMinor ≠ 0)
    (.error s!"{operation} invariant violated: escrow {contestId} = {escrowAfter.balanceMinor}")

def cancelTx (now : DateTime) (snap : CancelSnapshot) (reason : String) : Tx Failure Db PUnit := do
  forM snap.entries (refundEntry snap reason)
  forM snap.escrow.toList (fun escrow => assertEscrowEmpty "cancel" snap.contest.id escrow.id)
  Db.updateContest snap.contest.id
    (fun c => { c with status := .cancelled, cancelledAt := some now }) (fun _ => rfl)
  Db.emit (.contestCancelled snap.contest.id reason)

theorem mem_activeEntries {db : Db} {contestId : ℕ} {e : Entry} :
    e ∈ activeEntries db contestId ↔
      e ∈ db.entries.rows ∧ e.contestId = contestId ∧ e.status = .active :=
  Table.mem_findMany _ _ _

theorem ids_activeEntries (db : Db) (contestId : ℕ) :
    ((activeEntries db contestId).map (·.id)).Nodup :=
  (List.filter_sublist.map Entry.id).nodup db.entries.nodup_ids

theorem find_of_active {db : Db} {contestId : ℕ} {e : Entry}
    (he : e ∈ activeEntries db contestId) : db.entries.find e.id = some e :=
  db.entries.find_id (mem_activeEntries.1 he).1

theorem cancelRead_ok {contestId : ℕ} {db db' : Db} {snap : CancelSnapshot}
    (h : cancelRead contestId db = .ok (snap, db')) :
    db.contests.find contestId = some snap.contest ∧ snap.contest.id = contestId ∧
      snap.contest.status ∈ cancellable ∧ snap.entries = activeEntries db contestId ∧
      snap.escrow = ofContest db.ledger.accounts contestId ∧ db' = db := by
  simp only [cancelRead, bind_ok_iff, get_ok_iff, orThrow_ok_iff, throwIf_ok_iff,
    pure_ok_iff] at h
  obtain ⟨_, _, ⟨rfl, rfl⟩, c, _, ⟨hfind, rfl⟩, _, _, ⟨hs, rfl⟩, rfl, rfl⟩ := h
  obtain ⟨hc, hid, _⟩ := findContest_some hfind
  exact ⟨hc, hid, not_not.1 hs, rfl, rfl, rfl⟩

theorem refundEntry_ok {snap : CancelSnapshot} {reason : String} {entry : Entry} {db : Db}
    {r : PUnit × Db} (h : refundEntry snap reason entry db = .ok r) :
    ∃ wallet escrow id l,
      ofUser db.ledger.accounts entry.userId .userAvailable snap.contest.currency = some wallet ∧
      snap.escrow = some escrow ∧
      Ledger.post (refundInput snap.contest reason entry escrow wallet) db.ledger = .ok (id, l) ∧
      r.2 = { db with
        ledger := l
        entries := db.entries.update entry.id (fun e => { e with status := .refunded })
          (fun _ => rfl)
        notifications := db.notifications ++ [refundNotice snap.contest reason entry] } := by
  simp only [refundEntry, bind_ok_iff, get_ok_iff, orThrow_ok_iff, Db.post_ok_iff,
    Db.updateEntry_ok_iff, Db.notify_ok_iff] at h
  obtain ⟨_, _, ⟨rfl, rfl⟩, wallet, _, ⟨hw, rfl⟩, escrow, _, ⟨he, rfl⟩, id, _, ⟨l, hpost, rfl⟩, _, _,
    ⟨_, rfl⟩, hr⟩ := h
  exact ⟨wallet, escrow, id, l, hw, he, hpost, hr.symm⟩

/-- The refund loop writes the ledger, the entries and the notifications. -/
theorem refunds_writes {snap : CancelSnapshot} {reason : String} (es : List Entry) {db : Db}
    {r : PUnit × Db} (h : (forM es (refundEntry snap reason) : Tx Failure Db PUnit) db = .ok r) :
    ∃ l entries ns,
      r.2 = { db with ledger := l, entries := entries, notifications := ns } := by
  induction es generalizing db with
  | nil =>
    rw [forM_nil_ok_iff] at h
    exact ⟨db.ledger, db.entries, db.notifications, h.symm⟩
  | cons e es ih =>
    obtain ⟨db₁, hone, hrest⟩ := (forM_cons_ok_iff _ _ _ _ _).1 h
    obtain ⟨_, _, _, _, _, _, _, hdb⟩ := refundEntry_ok hone
    obtain ⟨l, entries, ns, hr⟩ := ih hrest
    refine ⟨l, entries, ns, hr.trans ?_⟩
    rw [show db₁ = _ from hdb]

theorem assertEscrowEmpty_ok_iff (operation : String) (contestId escrowId : ℕ) (db : Db)
    (r : PUnit × Db) :
    assertEscrowEmpty operation contestId escrowId db = .ok r ↔
      (∃ a, db.ledger.accounts.find escrowId = some a ∧ a.balanceMinor = 0) ∧ db = r.2 := by
  simp only [assertEscrowEmpty, bind_ok_iff, get_ok_iff, orThrow_ok_iff, throwIf_ok_iff]
  constructor
  · rintro ⟨_, _, ⟨rfl, rfl⟩, a, _, ⟨ha, rfl⟩, hz, hr⟩
    exact ⟨⟨a, ha, not_not.1 hz⟩, hr⟩
  · rintro ⟨⟨a, ha, hz⟩, hr⟩
    exact ⟨db, db, ⟨rfl, rfl⟩, a, db, ⟨ha, rfl⟩, not_not.2 hz, hr⟩

/-- A committed cancellation ran the refund loop to the end, found the escrow
empty, and marked the contest. -/
theorem cancelTx_ok {now : ℕ} {snap : CancelSnapshot} {reason : String} {db : Db}
    {r : PUnit × Db} (h : cancelTx now snap reason db = .ok r) :
    ∃ db₁, (forM snap.entries (refundEntry snap reason) : Tx Failure Db PUnit) db = .ok (⟨⟩, db₁) ∧
      (∀ escrow, snap.escrow = some escrow →
        ∃ a, db₁.ledger.accounts.find escrow.id = some a ∧ a.balanceMinor = 0) ∧
      r.2 = { db₁ with
        contests := db₁.contests.update snap.contest.id
          (fun c => { c with status := .cancelled, cancelledAt := some now }) (fun _ => rfl)
        outbox := db₁.outbox ++ [.contestCancelled snap.contest.id reason] } := by
  simp only [cancelTx, bind_ok_iff, Db.updateContest_ok_iff, Db.emit_ok_iff] at h
  obtain ⟨_, db₁, hloop, _, db₂, hzero, _, _, ⟨_, rfl⟩, hr⟩ := h
  refine ⟨db₁, hloop, ?_⟩
  cases hesc : snap.escrow with
  | none =>
    rw [hesc, Option.toList_none, forM_nil_ok_iff] at hzero
    cases hzero
    refine ⟨?_, hr.symm⟩
    rintro _ ⟨⟩
  | some escrow =>
    rw [hesc, Option.toList_some, forM_cons_ok_iff] at hzero
    obtain ⟨_, hempty, hnil⟩ := hzero
    rw [forM_nil_ok_iff] at hnil
    cases hnil
    obtain ⟨ha, rfl⟩ := (assertEscrowEmpty_ok_iff _ _ _ _ _).1 hempty
    refine ⟨?_, hr.symm⟩
    rintro _ ⟨⟩
    exact ha

end Cancel

end Contests
end FootballIQ
