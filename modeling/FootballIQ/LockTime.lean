import FootballIQ.Platform
import FootballIQ.Sequential

/-!
# The lock time and the first kickoff

`publish` stores the earliest kickoff of a contest's fixtures as its lock time,
and submissions are checked against the stored time. The fixture sync moves
kickoffs without looking at contests: the stored time stays before the first
kickoff exactly as long as no sync moves a fixture of an open contest ahead of it.
-/

namespace FootballIQ
namespace LockTime

open Transaction Relational Contests Entries Results

section Calls

def publish (now contestId : ℕ) : Tx Failure Db PUnit := do
  let r ← publishRead now contestId
  publishTx now r.1 r.2

def submitSlip (now userId : ℕ) (dto : SubmitSlipRequest) : Tx Failure Db SubmitSlipResult := do
  let slip ← submitRead now userId dto
  submitTx now slip

/-- The upsert of one provider fixture; the result says whether it is new. -/
def upsertFixture (provider : String) (canonical : CanonicalFixture) : Tx Failure Db Bool := do
  let db ← get
  match findRef db provider canonical.providerRef with
  | some ref =>
    updateSynced ref.fixtureId canonical
    return false
  | none =>
    let fixtureId ← createSynced provider canonical
    Db.emit (.fixtureSynced fixtureId)
    return true

inductive Event where
  | create (now adminId : ℕ) (dto : CreateContestRequest)
  | publish (now contestId : ℕ)
  | sync (provider : String) (canonical : CanonicalFixture)
  | submit (now userId : ℕ) (dto : SubmitSlipRequest)
  | lock (now contestId : ℕ)
  deriving DecidableEq

/-- One call, run to completion. -/
def perform : Event → Db → Db
  | .create now adminId dto => commit (create now adminId dto)
  | .publish now contestId => commit (publish now contestId)
  | .sync provider canonical => commit (upsertFixture provider canonical)
  | .submit now userId dto => commit (submitSlip now userId dto)
  | .lock now contestId => commit (lock now contestId)

end Calls

/-- A published contest is locked no later than its first fixture kicks off. -/
def InTime (db : Db) : Prop :=
  ∀ c ∈ db.contests.rows, c.status = .published →
    ∃ lockAt, c.lockAt = some lockAt ∧ ∀ k ∈ kickoffs db c.id, lockAt ≤ k

/-- An accepted submission comes before every kickoff of its contest. -/
def AcceptedInTime (e : Event) (db : Db) : Prop :=
  ∀ now userId dto r, e = .submit now userId dto → submitSlip now userId dto db = .ok r →
    ∀ k ∈ kickoffs db dto.contestId, now < k

/-- The fixture takes its kickoff from the upsert. -/
def Reschedules (db : Db) (provider : String) (canonical : CanonicalFixture) (fixtureId : ℕ) :
    Prop :=
  match findRef db provider canonical.providerRef with
  | some ref => fixtureId = ref.fixtureId ∧ db.fixtures.find fixtureId ≠ none
  | none => fixtureId = db.fixtures.fresh

/-- No upsert moves a fixture of a published contest before the contest's lock time. -/
def KeepsLockTime (e : Event) (db : Db) : Prop :=
  match e with
  | .sync provider canonical =>
    ∀ c ∈ db.contests.rows, c.status = .published → ∀ m ∈ db.contestMatches.rows,
      m.contestId = c.id → Reschedules db provider canonical m.fixtureId →
        ∀ lockAt, c.lockAt = some lockAt → lockAt ≤ canonical.kickoffAt
  | _ => True

section Kickoffs
variable {db db' : Db}

theorem mem_kickoffs {contestId k : ℕ} : k ∈ kickoffs db contestId ↔
    ∃ m ∈ db.contestMatches.rows, m.contestId = contestId ∧
      (db.fixtures.find m.fixtureId).map (·.kickoffAt) = some k := by
  simp [kickoffs, and_assoc]

/-- The kickoff of a fixture after an upsert: the provider's if it was this fixture. -/
theorem kickoffAt_upsert {provider : String} {canonical : CanonicalFixture} {isNew : Bool}
    (h : upsertFixture provider canonical db = .ok (isNew, db')) (f : ℕ) :
    (Reschedules db provider canonical f →
        (db'.fixtures.find f).map (·.kickoffAt) = some canonical.kickoffAt) ∧
      (¬ Reschedules db provider canonical f →
        (db'.fixtures.find f).map (·.kickoffAt) = (db.fixtures.find f).map (·.kickoffAt)) ∧
      db'.contests = db.contests ∧ db'.contestMatches = db.contestMatches := by
  simp only [upsertFixture, bind_ok_iff, get_ok_iff] at h
  obtain ⟨_, _, ⟨rfl, rfl⟩, hrun⟩ := h
  unfold Reschedules
  cases href : findRef db provider canonical.providerRef with
  | some ref =>
    simp only [href, updateSynced, bind_ok_iff, Db.updateFixture_ok_iff, pure_ok_iff] at hrun
    obtain ⟨_, _, ⟨hex, rfl⟩, _, rfl⟩ := hrun
    refine ⟨?_, ?_, rfl, rfl⟩
    · rintro ⟨rfl, _⟩
      obtain ⟨x, hx⟩ := Option.ne_none_iff_exists'.1 hex
      rw [Table.find_update_self _ _ _ hx]
      rfl
    · intro hno
      rw [Table.find_update_of_ne]
      rintro rfl
      exact hno ⟨rfl, hex⟩
  | none =>
    simp only [href, bind_ok_iff, Db.emit_ok_iff, pure_ok_iff] at hrun
    obtain ⟨id, db₁, hcreate, _, _, rfl, _, rfl⟩ := hrun
    obtain ⟨_, rfl⟩ := createSynced_ok hcreate
    refine ⟨?_, ?_, rfl, rfl⟩
    · rintro rfl
      rw [Table.find_insert_fresh]
      rfl
    · intro hno
      cases hf : db.fixtures.find f with
      | some x => rw [Table.find_insert_of_some _ _ _ hf]
      | none =>
        have hnone : (db.fixtures.insert (newFixture canonical) (id_newFixture canonical)).find f =
            none := by
          rw [Table.find_eq_none_iff]
          intro r hr heq
          rcases (Table.mem_insert _ _ (id_newFixture canonical) r).1 hr with hr | rfl
          · exact (Table.find_eq_none_iff _ _).1 hf r hr heq
          · exact hno heq.symm
        rw [hnone]

end Kickoffs

section Steps
variable {db db' : Db}

theorem inTime_create (h : InTime db) {now adminId id : ℕ} {dto : CreateContestRequest}
    (hok : create now adminId dto db = .ok (id, db')) : InTime db' := by
  obtain ⟨ruleSet, template, htx⟩ := create_spec hok
  obtain ⟨ms, ss, rfl, hmatches⟩ := createTx_ok htx
  intro c hc hs
  rcases (Table.mem_insert _ _ (id_draftContest dto ruleSet template adminId) c).1 hc with hc | rfl
  · obtain ⟨lockAt, hlock, hle⟩ := h c hc hs
    refine ⟨lockAt, hlock, fun k hk => ?_⟩
    obtain ⟨m, hm, hid, hkick⟩ := mem_kickoffs.1 hk
    rcases hmatches m hm with hm | hm
    · exact hle k (mem_kickoffs.2 ⟨m, hm, hid, hkick⟩)
    · exact absurd (hid.symm.trans hm) (db.contests.fresh_ne hc)
  · cases hs

/-- The publication stores the minimum of the kickoffs that it has just read. -/
theorem inTime_publish (h : InTime db) {now contestId : ℕ} {r : PUnit × Db}
    (hok : publish now contestId db = .ok r) : InTime r.2 := by
  obtain ⟨q, db₁, hread, htx⟩ := (bind_ok_iff _ _ _ _).1 hok
  have hmin := publishRead_lockAt hread
  obtain ⟨rfl, _, hid, _⟩ := publishRead_ok hread
  obtain ⟨_, hr⟩ := (publishTx_ok_iff now q.1 q.2 db₁ r).1 htx
  rw [hr]
  intro c hc hs
  obtain ⟨c₀, hc₀, rfl⟩ := (Table.mem_updateWhere _ _ _ (by intro c; rfl) c).1 hc
  by_cases hcid : Row.id c₀ = q.1.id
  · refine ⟨q.2, by rw [if_pos hcid], fun k hk => ?_⟩
    have hk' : k ∈ kickoffs db₁ contestId := by
      rw [if_pos hcid] at hk
      rw [← hid, ← hcid]
      exact hk
    exact (List.min?_eq_some_iff.1 hmin).2 k hk'
  · rw [if_neg hcid] at hs ⊢
    exact h c₀ hc₀ hs

theorem inTime_lock (h : InTime db) {now contestId : ℕ} {r : PUnit × Db}
    (hok : lock now contestId db = .ok r) : InTime r.2 := by
  rcases lock_cases now contestId db with ⟨c, _, _, hlock⟩ | ⟨_, hlock⟩
  · rw [hlock, Except.ok.injEq] at hok
    subst hok
    intro c' hc' hs
    obtain ⟨c₀, hc₀, rfl⟩ := (Table.mem_updateWhere _ _ _ (by intro c; rfl) c').1 hc'
    by_cases hcid : Row.id c₀ = contestId
    · rw [if_pos hcid] at hs
      cases hs
    · rw [if_neg hcid] at hs ⊢
      exact h c₀ hc₀ hs
  · rw [hlock, Except.ok.injEq] at hok
    subst hok
    exact h

/-- An upsert keeps the lock times in time exactly when it moves no fixture ahead of one. -/
theorem inTime_sync_iff (h : InTime db) {provider : String} {canonical : CanonicalFixture}
    {isNew : Bool} (hok : upsertFixture provider canonical db = .ok (isNew, db')) :
    InTime db' ↔ KeepsLockTime (.sync provider canonical) db := by
  have hkick := fun f => kickoffAt_upsert hok f
  have hcontests := (hkick 0).2.2.1
  have hmatches := (hkick 0).2.2.2
  constructor
  · intro h' c hc hs m hm hid hre lockAt hlock
    obtain ⟨lockAt', hlock', hle⟩ := h' c (hcontests.symm ▸ hc) hs
    rw [hlock', Option.some.injEq] at hlock
    rw [← hlock]
    apply hle
    exact mem_kickoffs.2 ⟨m, hmatches.symm ▸ hm, hid, (hkick m.fixtureId).1 hre⟩
  · intro hkeep c hc hs
    rw [hcontests] at hc
    obtain ⟨lockAt, hlock, hle⟩ := h c hc hs
    refine ⟨lockAt, hlock, fun k hk => ?_⟩
    obtain ⟨m, hm, hid, hk⟩ := mem_kickoffs.1 hk
    rw [hmatches] at hm
    by_cases hre : Reschedules db provider canonical m.fixtureId
    · rw [(hkick m.fixtureId).1 hre, Option.some.injEq] at hk
      rw [← hk]
      exact hkeep c hc hs m hm hid hre lockAt hlock
    · rw [(hkick m.fixtureId).2.1 hre] at hk
      exact hle k (mem_kickoffs.2 ⟨m, hm, hid, hk⟩)

theorem upsertFixture_of_some {provider : String} {canonical : CanonicalFixture}
    {ref : FixtureProviderRef} (href : findRef db provider canonical.providerRef = some ref)
    (hex : db.fixtures.find ref.fixtureId ≠ none) :
    ∃ r, upsertFixture provider canonical db = .ok r := by
  have hupdate : updateSynced ref.fixtureId canonical db = .ok (⟨⟩, { db with
      fixtures := db.fixtures.update ref.fixtureId (synced canonical) (id_synced canonical) }) :=
    (Db.updateFixture_ok_iff db _ _ _ _).2 ⟨hex, rfl⟩
  have hbody : upsertFixture provider canonical db =
      (updateSynced ref.fixtureId canonical >>= fun _ => pure false) db := by
    unfold upsertFixture
    rw [bind_of_ok (show (get : Tx Failure Db Db) db = .ok (db, db) from rfl), href]
  exact ⟨_, hbody.trans (bind_of_ok hupdate)⟩

theorem upsertFixture_of_none {provider : String} {canonical : CanonicalFixture}
    (href : findRef db provider canonical.providerRef = none) :
    ∃ r, upsertFixture provider canonical db = .ok r := by
  have hread : (get : Tx Failure Db Db) db = .ok (db, db) := rfl
  have hfree : (throwIf (findRef db provider canonical.providerRef ≠ none) .uniqueViolation :
      Tx Failure Db PUnit) db = .ok (⟨⟩, db) :=
    (throwIf_ok_iff _ _ _ _).2 ⟨not_not.2 href, rfl⟩
  have hcreate : ∃ r, createSynced provider canonical db = .ok r := by
    unfold createSynced
    rw [bind_of_ok hread, bind_of_ok hfree]
    exact ⟨_, rfl⟩
  obtain ⟨r, hcreate⟩ := hcreate
  have hbody : upsertFixture provider canonical db =
      (createSynced provider canonical >>= fun fixtureId =>
        Db.emit (.fixtureSynced fixtureId) >>= fun _ => pure true) db := by
    unfold upsertFixture
    rw [bind_of_ok hread, href]
  exact ⟨_, hbody.trans (bind_of_ok hcreate)⟩

/-- A failed upsert is one of a mapping to a fixture that is not there. -/
theorem keepsLockTime_of_failed {provider : String} {canonical : CanonicalFixture} {e : Failure}
    (herr : upsertFixture provider canonical db = .error e) :
    KeepsLockTime (.sync provider canonical) db := by
  intro c _ _ m _ _ hre
  have hno : ¬ ∃ r, upsertFixture provider canonical db = .ok r := by
    rintro ⟨r, hr⟩
    rw [herr] at hr
    cases hr
  unfold Reschedules at hre
  cases href : findRef db provider canonical.providerRef with
  | some ref =>
    rw [href] at hre
    obtain ⟨hf, hex⟩ := hre
    exact absurd (upsertFixture_of_some href (hf ▸ hex)) hno
  | none => exact absurd (upsertFixture_of_none href) hno

theorem perform_inTime_iff (e : Event) (db : Db) (h : InTime db) :
    InTime (perform e db) ↔ KeepsLockTime e db := by
  cases e with
  | create now adminId dto =>
    refine iff_of_true ?_ trivial
    change InTime (commit (create now adminId dto) db)
    rcases commit_cases (create now adminId dto) db with ⟨id, db', hok, hc⟩ | ⟨_, _, hc⟩
    · exact hc ▸ inTime_create h hok
    · rwa [hc]
  | publish now contestId =>
    refine iff_of_true ?_ trivial
    change InTime (commit (publish now contestId) db)
    rcases commit_cases (publish now contestId) db with ⟨u, db', hok, hc⟩ | ⟨_, _, hc⟩
    · exact hc ▸ inTime_publish h hok
    · rwa [hc]
  | sync provider canonical =>
    change InTime (commit (upsertFixture provider canonical) db) ↔ _
    rcases commit_cases (upsertFixture provider canonical) db with ⟨isNew, db', hok, hc⟩ |
      ⟨_, herr, hc⟩
    · exact hc ▸ inTime_sync_iff h hok
    · exact iff_of_true (by rwa [hc]) (keepsLockTime_of_failed herr)
  | submit now userId dto =>
    refine iff_of_true ?_ trivial
    change InTime (commit (submitSlip now userId dto) db)
    rcases commit_cases (submitSlip now userId dto) db with ⟨res, db', hok, hc⟩ | ⟨_, _, hc⟩
    · obtain ⟨slip, db₁, hread, htx⟩ := (bind_ok_iff _ _ _ _).1 hok
      obtain ⟨_, _, _, _, _, rfl⟩ := submitRead_ok hread
      obtain ⟨_, _, _, _, _, _, _, _, rfl, _⟩ := (submitTx_ok_iff now slip db₁ db' res).1 htx
      exact hc ▸ h
    · rwa [hc]
  | lock now contestId =>
    refine iff_of_true ?_ trivial
    change InTime (commit (lock now contestId) db)
    rcases commit_cases (lock now contestId) db with ⟨u, db', hok, hc⟩ | ⟨_, _, hc⟩
    · exact hc ▸ inTime_lock h hok
    · rwa [hc]

theorem InTime.accepted (h : InTime db) (e : Event) : AcceptedInTime e db := by
  rintro now userId dto r _ hok k hk
  obtain ⟨slip, db₁, hread, _⟩ := (bind_ok_iff _ _ _ _).1 hok
  obtain ⟨lockAt, hlock, hlt⟩ := submitRead_lockAt hread
  obtain ⟨_, _, hfind, hid, hs, _⟩ := submitRead_ok hread
  obtain ⟨lockAt', hlock', hle⟩ := h slip.contest ((Table.find_eq_some_iff _ _ _).1 hfind).1 hs
  have heq : lockAt = lockAt' := Option.some.inj (hlock.symm.trans hlock')
  calc now < lockAt := hlt
    _ = lockAt' := heq
    _ ≤ k := hle k (by rwa [hid])

end Steps

/-- In every run of complete calls the lock times of open contests stay before their
kickoffs exactly when no sync moves a fixture ahead of one; and then every accepted
submission comes before the first kickoff of its contest. -/
theorem inTime_iff {db : Db} (h : InTime db) (evs : List Event) :
    (Sequential.Throughout perform InTime db evs ↔
        Sequential.Along perform KeepsLockTime db evs) ∧
      (Sequential.Along perform KeepsLockTime db evs →
        Sequential.Along perform AcceptedInTime db evs) := by
  constructor
  · exact Sequential.Along.throughout_iff (fun _ _ _ _ _ => trivial)
      (fun e s _ _ hs => perform_inTime_iff e s hs) (I := fun _ => True) trivial h
      (Sequential.along_of_forall (fun _ _ => trivial) db evs)
  · intro hkeep
    exact hkeep.imp (fun e s hG hs => (perform_inTime_iff e s hs).2 hG)
      (fun e s _ hs => hs.accepted e) h

section Reschedule

open Platform (sampleSlip standardTiers)

/-- Five fixtures, the first known to the provider, and two users with money. -/
def seededDb : Db :=
  { Platform.openDb with
    ledger := ⟨⟨Platform.openDb.ledger.accounts.rows.take 3, by decide⟩, Table.empty⟩
    contests := Table.empty
    contestMatches := Table.empty
    contestSlots := Table.empty
    fixtureProviderRefs := [⟨1, "FOOTBALL_DATA", "m1"⟩] }

def contestRequest : CreateContestRequest where
  title := "Matchday"
  entryFeeMinor := 1000
  fee_pos := by decide
  currency := "NGN"
  maxEntries := none
  fixtures := (List.range 5).map (fun i => ⟨i + 1, i⟩)
  slots := standardTiers.zipIdx.map (fun s => ⟨s.2 + 1, s.2 % 5 + 1, s.1⟩)

/-- The first fixture is moved from 100 to 50 after the publication; the contest stays
open until 100. -/
def reschedule : List Event :=
  [.create 1 1 contestRequest, .publish 10 0,
    .sync "FOOTBALL_DATA" ⟨"m1", 50, .scheduled, none, none, none, none⟩,
    .submit 60 7 (sampleSlip 0 "9a0e")]

/-- The contest is open and the fixture moved. -/
def movedDb : Db := Sequential.run perform seededDb (reschedule.take 3)

theorem inTime_iff_reschedule :
    (Sequential.Throughout perform InTime seededDb reschedule ↔
        Sequential.Along perform KeepsLockTime seededDb reschedule) ∧
      (Sequential.Along perform KeepsLockTime seededDb reschedule →
        Sequential.Along perform AcceptedInTime seededDb reschedule) :=
  inTime_iff (fun c hc => absurd hc (List.not_mem_nil (a := c))) reschedule

/-- A submission at 60 is accepted although a fixture of the contest kicked off at 50. -/
theorem accepted_after_kickoff :
    ¬ Sequential.Along perform AcceptedInTime seededDb reschedule := by
  intro h
  have hlast : AcceptedInTime (.submit 60 7 (sampleSlip 0 "9a0e")) movedDb :=
    ((Sequential.along_append perform _ _ (reschedule.take 3) (reschedule.drop 3)).1 h).2.1
  have hok : (submitSlip 60 7 (sampleSlip 0 "9a0e") movedDb).isOk = true := by decide +kernel
  have hkick : 50 ∈ kickoffs movedDb 0 := by decide +kernel
  cases hr : submitSlip 60 7 (sampleSlip 0 "9a0e") movedDb with
  | error e =>
    rw [hr] at hok
    cases hok
  | ok r => exact absurd (hlast 60 7 (sampleSlip 0 "9a0e") r rfl hr 50 hkick) (by decide)

end Reschedule

end LockTime
end FootballIQ
