import FootballIQ.Audit

/-!
# Tampering with the audit trail

The hash of a row covers the hash before it, who acted, what was done to which entity,
and the entity before and after. A replay of the log hashes what it reads back, so it
detects an alteration exactly when some row no longer gives what was hashed. The kind of
actor and the address are not covered, and an object that the column gives back with its
keys in another order is found to differ whether it was altered or not.
-/

namespace FootballIQ
namespace Audit

section Replay
variable {Json : Type} (codec : Codec Json)

/-- The log after calls of `record`, one after the other. -/
def recordAll (inputs : List (RecordInput Json)) : AuditLog Json :=
  Sequential.run (record codec) AuditLog.empty inputs

def object (prevHash : String) (row : AuditRow Json) : Hashed Json :=
  hashed codec prevHash row.toRecordInput

/-- The objects that a replay of the rows hashes, one for each row. -/
def replayed (rows : List (AuditRow Json)) : List (Hashed Json) :=
  HashChain.replayed (object codec) (digest codec) "genesis" rows

/-- The objects that the calls have hashed, one for each row. -/
def recorded (inputs : List (RecordInput Json)) : List (Hashed Json) :=
  HashChain.replayed (hashed codec) (digest codec) "genesis" inputs

/-- At some row the replay yields a hash different from the stored one. -/
def Detected (rows : List (AuditRow Json)) : Prop :=
  ∃ p ∈ (replayed codec rows).zip rows, digest codec p.1 ≠ p.2.hash

/-- A row after tampering: the stored hashes are as they were. -/
structure Altered (row row' : AuditRow Json) : Prop where
  id : row'.id = row.id
  prevHash : row'.prevHash = row.prevHash
  hash : row'.hash = row.hash

/-- The row gives back what the hash covers of the input. -/
structure AsHashed (input : RecordInput Json) (row : AuditRow Json) : Prop where
  actorId : row.actorId = input.actorId
  action : row.action = input.action
  entityType : row.entityType = input.entityType
  entityId : row.entityId = input.entityId
  before : row.before.getD codec.null = input.before.getD codec.null
  after : row.after.getD codec.null = input.after.getD codec.null

instance [DecidableEq Json] (rows : List (AuditRow Json)) : Decidable (Detected codec rows) :=
  inferInstanceAs (Decidable (∃ p ∈ (replayed codec rows).zip rows, digest codec p.1 ≠ p.2.hash))

instance (row row' : AuditRow Json) : Decidable (Altered row row') :=
  decidable_of_iff (row'.id = row.id ∧ row'.prevHash = row.prevHash ∧ row'.hash = row.hash)
    ⟨fun h => ⟨h.1, h.2.1, h.2.2⟩, fun h => ⟨h.1, h.2, h.3⟩⟩

theorem object_eq_iff (prevHash : String) (input : RecordInput Json) (row : AuditRow Json) :
    object codec prevHash row = hashed codec prevHash input ↔ AsHashed codec input row := by
  unfold object hashed
  rw [Hashed.mk.injEq]
  constructor
  · rintro ⟨_, hactor, haction, htype, hid, hbefore, hafter⟩
    exact ⟨hactor, haction, htype, hid, hbefore, hafter⟩
  · intro h
    exact ⟨rfl, h.actorId, h.action, h.entityType, h.entityId, h.before, h.after⟩

theorem not_detected_iff (rows : List (AuditRow Json)) :
    ¬ Detected codec rows ↔
      HashChain.Verifies (object codec) (digest codec) AuditRow.hash "genesis" rows := by
  rw [HashChain.verifies_iff_zip]
  simp only [Detected, not_exists, not_and, not_not]
  exact Iff.rfl

/-- Every row that `record` writes carries the digest of the object it has hashed. -/
theorem hashes_recordAll (inputs : List (RecordInput Json)) :
    (recordAll codec inputs).rows.map AuditRow.hash = (recorded codec inputs).map (digest codec) := by
  have key : ∀ log : AuditLog Json,
      (Sequential.run (record codec) log inputs).rows.map AuditRow.hash =
        log.rows.map AuditRow.hash ++ (HashChain.replayed (hashed codec) (digest codec)
          log.lastHash inputs).map (digest codec) := by
    induction inputs with
    | nil => exact fun log => (List.append_nil _).symm
    | cons input inputs ih =>
      intro log
      have hlast : (record codec input log).lastHash =
          digest codec (hashed codec log.lastHash input) :=
        HashChain.lastHash_append_singleton AuditRow.hash "genesis" log.rows _
      have hrows : (record codec input log).rows.map AuditRow.hash =
          log.rows.map AuditRow.hash ++ [digest codec (hashed codec log.lastHash input)] :=
        List.map_append
      rw [Sequential.run_cons, ih, hlast, hrows, HashChain.replayed, List.map_cons,
        List.append_assoc, List.singleton_append]
  exact key AuditLog.empty

theorem forall₂_recordAll (inputs : List (RecordInput Json)) :
    List.Forall₂ (fun input row => row.toRecordInput = stored codec input) inputs
      (recordAll codec inputs).rows := by
  have key : ∀ log : AuditLog Json, ∃ rows,
      (Sequential.run (record codec) log inputs).rows = log.rows ++ rows ∧
        List.Forall₂ (fun input row => row.toRecordInput = stored codec input) inputs rows := by
    induction inputs with
    | nil => exact fun log => ⟨[], (List.append_nil _).symm, .nil⟩
    | cons input inputs ih =>
      intro log
      obtain ⟨rows, hrun, hrows⟩ := ih (record codec input log)
      refine ⟨_ :: rows, hrun.trans (List.append_assoc _ _ _), .cons rfl hrows⟩
  obtain ⟨rows, hrun, hrows⟩ := key AuditLog.empty
  rwa [recordAll, hrun]

/-- Rows under the hashes that the calls have written. -/
theorem detected_iff_of_hashes {inputs : List (RecordInput Json)} {rows : List (AuditRow Json)}
    (hhash : rows.map AuditRow.hash = (recordAll codec inputs).rows.map AuditRow.hash)
    (hfree : Set.InjOn (digest codec) {o | o ∈ recorded codec inputs ∨ o ∈ replayed codec rows}) :
    Detected codec rows ↔ ∃ p ∈ inputs.zip rows, ¬ AsHashed codec p.1 p.2 := by
  have hobject : ∀ p q (input : RecordInput Json) (row : AuditRow Json),
      object codec p row = hashed codec p input → object codec q row = hashed codec q input := by
    intro p q input row h
    rw [object_eq_iff] at h ⊢
    exact h
  have hlength : inputs.length = rows.length := by
    have hlen := congrArg List.length hhash
    rw [List.length_map, List.length_map] at hlen
    exact (forall₂_recordAll codec inputs).length_eq.trans hlen.symm
  have hverifies := HashChain.verifies_iff_of_hashes hobject
    (hhash.trans (hashes_recordAll codec inputs)) hfree
  rw [List.forall₂_iff_zip, and_iff_right hlength] at hverifies
  rw [← not_iff_not, not_detected_iff, hverifies]
  simp only [object_eq_iff, forall_const, not_exists, not_and, not_not, Prod.forall]

/-- A replay of altered rows detects the alteration exactly when some row does not give back
what was hashed for it, as long as no two of the objects hashed collide. -/
theorem detected_iff (inputs : List (RecordInput Json)) (rows : List (AuditRow Json))
    (haltered : List.Forall₂ Altered (recordAll codec inputs).rows rows)
    (hfree : Set.InjOn (digest codec) {o | o ∈ recorded codec inputs ∨ o ∈ replayed codec rows}) :
    Detected codec rows ↔ ∃ p ∈ inputs.zip rows, ¬ AsHashed codec p.1 p.2 := by
  refine detected_iff_of_hashes codec ?_ hfree
  rw [eq_comm]
  exact List.forall₂_eq_eq_eq ▸ List.rel_map (fun _ _ h => h.hash.symm) haltered

/-- The columns give back the entity before and after as they were hashed. -/
def Kept (input : RecordInput Json) : Prop :=
  (input.before.map codec.jsonb).getD codec.null = input.before.getD codec.null ∧
    (input.after.map codec.jsonb).getD codec.null = input.after.getD codec.null

/-- A log that nobody has altered is found to differ exactly when the columns do not give
some entity back as it was hashed. -/
theorem detected_recordAll_iff (inputs : List (RecordInput Json))
    (hfree : Set.InjOn (digest codec)
      {o | o ∈ recorded codec inputs ∨ o ∈ replayed codec (recordAll codec inputs).rows}) :
    Detected codec (recordAll codec inputs).rows ↔ ∃ input ∈ inputs, ¬ Kept codec input := by
  rw [detected_iff_of_hashes codec rfl hfree]
  have hrows := forall₂_recordAll codec inputs
  have hkept : ∀ {input : RecordInput Json} {row : AuditRow Json},
      row.toRecordInput = stored codec input → (AsHashed codec input row ↔ Kept codec input) := by
    intro input row hrow
    constructor
    · intro h
      have hbefore := h.before
      have hafter := h.after
      rw [hrow] at hbefore hafter
      exact ⟨hbefore, hafter⟩
    · rintro ⟨hbefore, hafter⟩
      constructor
      all_goals rw [hrow]
      exacts [rfl, rfl, rfl, rfl, hbefore, hafter]
  constructor
  · rintro ⟨⟨input, row⟩, hp, hnot⟩
    have hrow := (List.forall₂_iff_zip.1 hrows).2 hp
    exact ⟨input, (List.of_mem_zip hp).1, fun h => hnot ((hkept hrow).2 h)⟩
  · rintro ⟨input, hinput, hnot⟩
    obtain ⟨row, hrow, hp⟩ : ∃ row, row.toRecordInput = stored codec input ∧
        (input, row) ∈ inputs.zip (recordAll codec inputs).rows := by
      obtain ⟨i, hi, rfl⟩ := List.mem_iff_getElem.1 hinput
      have hi' : i < (recordAll codec inputs).rows.length := hrows.length_eq ▸ hi
      refine ⟨(recordAll codec inputs).rows[i], hrows.get hi hi', ?_⟩
      exact List.mem_iff_getElem.2 ⟨i, by simpa using ⟨hi, hi'⟩, List.getElem_zip⟩
    exact ⟨(input, row), hp, fun h => hnot ((hkept hrow).1 h)⟩

end Replay

section Unnoticed

/-- A rejected withdrawal comes back with its two keys in the other order. -/
def rejectInput : RecordInput Payload :=
  { cancelInput contestA with
    action := "withdrawal.reject"
    after := some (some [("status", "REJECTED"), ("reason", "name")]) }

example : ¬ Kept sampleCodec rejectInput := by
  unfold Kept
  decide +kernel

/-- One contest was cancelled. -/
def sampleLog : AuditLog Payload := recordAll sampleCodec [cancelInput contestA]

/-- The row says that another contest was cancelled. -/
def otherContest : List (AuditRow Payload) :=
  sampleLog.rows.map (fun row => { row with entityId := contestB })

/-- The row says that the system did it, from some address. -/
def otherActor : List (AuditRow Payload) :=
  sampleLog.rows.map (fun row => { row with actorType := .system, ip := some "10.0.0.7" })

theorem detected_iff_otherContest :
    Detected sampleCodec otherContest ↔
      ∃ p ∈ [cancelInput contestA].zip otherContest, ¬ AsHashed sampleCodec p.1 p.2 :=
  detected_iff sampleCodec [cancelInput contestA] otherContest (by decide +kernel)
    (by
      have hobjects : ∀ o, (o ∈ recorded sampleCodec [cancelInput contestA] ∨
          o ∈ replayed sampleCodec otherContest) →
          o = cancelled "genesis" contestA ∨ o = cancelled "genesis" contestB := by
        have hlists : recorded sampleCodec [cancelInput contestA] ++
            replayed sampleCodec otherContest =
              [cancelled "genesis" contestA, cancelled "genesis" contestB] := by decide +kernel
        intro o ho
        simpa [hlists] using List.mem_append.2 ho
      have hne : digest sampleCodec (cancelled "genesis" contestA) ≠
          digest sampleCodec (cancelled "genesis" contestB) := by
        decide +kernel
      intro o ho o' ho' heq
      rcases hobjects o ho with rfl | rfl
      · rcases hobjects o' ho' with rfl | rfl
        · rfl
        · exact absurd heq hne
      · rcases hobjects o' ho' with rfl | rfl
        · exact absurd heq.symm hne
        · rfl)

/-- The changed actor and address go unnoticed, with nothing colliding. -/
theorem otherActor_unnoticed :
    List.Forall₂ Altered sampleLog.rows otherActor ∧ otherActor ≠ sampleLog.rows ∧
      Set.InjOn (digest sampleCodec)
        {o | o ∈ recorded sampleCodec [cancelInput contestA] ∨ o ∈ replayed sampleCodec otherActor} ∧
      ¬ Detected sampleCodec otherActor := by
  refine ⟨by decide +kernel, by decide +kernel, ?_, by decide +kernel⟩
  have hlists : recorded sampleCodec [cancelInput contestA] ++ replayed sampleCodec otherActor =
      [cancelled "genesis" contestA, cancelled "genesis" contestA] := by decide +kernel
  have hobject : ∀ o, (o ∈ recorded sampleCodec [cancelInput contestA] ∨
      o ∈ replayed sampleCodec otherActor) → o = cancelled "genesis" contestA := by
    intro o ho
    simpa [hlists] using List.mem_append.2 ho
  intro o ho o' ho' _
  rw [hobject o ho, hobject o' ho']

end Unnoticed

end Audit
end FootballIQ
