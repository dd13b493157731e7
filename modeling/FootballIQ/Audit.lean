import FootballIQ.HashChain
import FootballIQ.Lockstep
import FootballIQ.Sequential
import Mathlib.Data.String.Basic

/-!
# The audit trail

Each row of the audit log carries a hash that covers the hash of the row before it.
`record` reads the last row's hash first and inserts its own row afterwards, without
a lock: the rows form one chain when no call inserts a row between another's read and
its insertion.
-/

namespace FootballIQ
namespace Audit

open Interleaving

inductive ActorType where
  | user | admin | system
  deriving DecidableEq

/-- The input of `record`; an absent field is `undefined`. -/
structure RecordInput (Json : Type) where
  actorId : Option String
  actorType : ActorType
  action : String
  entityType : String
  entityId : String
  before : Option Json
  after : Option Json
  ip : Option String
  deriving DecidableEq

/-- A row as it is read back from the table. -/
structure AuditRow (Json : Type) extends RecordInput Json where
  id : ℕ
  prevHash : String
  hash : String
  deriving DecidableEq

/-- The object that `record` turns into text and hashes. -/
structure Hashed (Json : Type) where
  prevHash : String
  actorId : Option String
  action : String
  entityType : String
  entityId : String
  before : Json
  after : Json
  deriving DecidableEq

/-- The values of JSON as far as the log looks at them: the text of a hashed object, the
digest of a text, and what a JSONB column gives back for the value that it was given. -/
structure Codec (Json : Type) where
  null : Json
  stringify : Hashed Json → String
  sha256 : String → String
  jsonb : Json → Json

/-- The log in the order of its generated ids. -/
structure AuditLog (Json : Type) where
  rows : List (AuditRow Json)
  ordered : rows.Pairwise (fun r r' => r.id < r'.id)

section Model
variable {Json : Type} (codec : Codec Json)

/-- The fields of the input that the hash covers; `undefined` counts as `null`. -/
def hashed (prevHash : String) (input : RecordInput Json) : Hashed Json where
  prevHash := prevHash
  actorId := input.actorId
  action := input.action
  entityType := input.entityType
  entityId := input.entityId
  before := input.before.getD codec.null
  after := input.after.getD codec.null

def digest (o : Hashed Json) : String := codec.sha256 (codec.stringify o)

/-- The columns of an inserted row, as they are read back. -/
def stored (input : RecordInput Json) : RecordInput Json :=
  { input with before := input.before.map codec.jsonb, after := input.after.map codec.jsonb }

namespace AuditLog

def empty : AuditLog Json := ⟨[], List.Pairwise.nil⟩

/-- What the next row is chained to: the hash of the row with the greatest id. -/
def lastHash (log : AuditLog Json) : String :=
  HashChain.lastHash AuditRow.hash "genesis" log.rows

/-- Every hash that a row may have been chained to. -/
def hashes (log : AuditLog Json) : List String := "genesis" :: log.rows.map AuditRow.hash

def nextId (log : AuditLog Json) : ℕ := (log.rows.getLast?.map (·.id + 1)).getD 1

theorem lt_nextId (log : AuditLog Json) : ∀ r ∈ log.rows, r.id < log.nextId := by
  intro r hr
  unfold nextId
  rcases List.eq_nil_or_concat log.rows with hnil | ⟨rs, q, hlog⟩
  · rw [hnil] at hr
    cases hr
  · have hpair := log.ordered
    rw [List.concat_eq_append] at hlog
    rw [hlog] at hr hpair ⊢
    rw [List.getLast?_concat, Option.map_some, Option.getD_some]
    rcases List.mem_append.1 hr with hr | hr
    · have hlt : r.id < q.id :=
        (List.pairwise_append.1 hpair).2.2 r hr q (List.mem_singleton.2 rfl)
      omega
    · rw [List.mem_singleton.1 hr]
      exact Nat.lt_succ_self q.id

def insert (log : AuditLog Json) (columns : RecordInput Json) (prevHash hash : String) :
    AuditLog Json where
  rows := log.rows ++ [{ columns with id := log.nextId, prevHash, hash }]
  ordered := by
    rw [List.pairwise_append]
    refine ⟨log.ordered, List.pairwise_singleton _ _, ?_⟩
    intro r hr q hq
    rw [List.mem_singleton.1 hq]
    exact log.lt_nextId r hr

variable (log : AuditLog Json) (columns : RecordInput Json) (prevHash hash : String)

theorem hashes_insert : (log.insert columns prevHash hash).hashes = log.hashes ++ [hash] := by
  unfold hashes insert
  rw [List.map_append, List.cons_append]
  rfl

theorem length_insert :
    (log.insert columns prevHash hash).rows.length = log.rows.length + 1 :=
  List.length_append

theorem getElem?_hashes : log.hashes[log.rows.length]? = some log.lastHash :=
  HashChain.getElem?_lastHash AuditRow.hash "genesis" log.rows

end AuditLog

/-- A call of `record` is about to read the last row, or to insert its own. -/
inductive Task (Json : Type) where
  | read (input : RecordInput Json)
  | insert (input : RecordInput Json) (prevHash hash : String)

def step (_ : Unit) : Task Json → AuditLog Json → AuditLog Json × Option (Task Json)
  | .read input, log =>
    (log, some (.insert input log.lastHash (digest codec (hashed codec log.lastHash input))))
  | .insert input prevHash hash, log => (log.insert (stored codec input) prevHash hash, none)

def protocol : Protocol (AuditLog Json) (RecordInput Json) (Task Json) Unit := ⟨.read, step codec⟩

/-- `record`, run to completion. -/
def record (input : RecordInput Json) (log : AuditLog Json) : AuditLog Json :=
  log.insert (stored codec input) log.lastHash (digest codec (hashed codec log.lastHash input))

theorem run_record (input : RecordInput Json) (log : AuditLog Json) :
    (protocol codec).run ⟨log, []⟩ [.start input, .resume 0 (), .resume 0 ()] =
      ⟨record codec input log, []⟩ := rfl

end Model

section Schedule
variable {κ : Type}

/-- The order of the steps alone: how many rows have been inserted since the start, and how
many there were when a call has read. -/
def schedule : Protocol ℕ κ (Option ℕ) Unit where
  init _ := none
  step _ t n :=
    match t with
    | none => (n, some (some n))
    | some _ => (n + 1, none)

/-- A call that inserts does so with no insertion since its read. -/
def Undisturbed (_ : Unit) (t : Option ℕ) (n : ℕ) : Prop := ∀ k ∈ t, k = n

instance (inp : Unit) (t : Option ℕ) (n : ℕ) : Decidable (Undisturbed inp t n) :=
  inferInstanceAs (Decidable (∀ k ∈ t, k = n))

end Schedule

section Chain
variable {Json : Type} (codec : Codec Json)

/-- The first row points to the beginning, every later one to the row before it. -/
def Linear (log : AuditLog Json) : Prop :=
  HashChain.Linked AuditRow.prevHash AuditRow.hash "genesis" log.rows

/-- The hash that an insertion carries is still the last one of the log. -/
def FindsLast (_ : Unit) (t : Task Json) (log : AuditLog Json) : Prop :=
  match t with
  | .read _ => True
  | .insert _ prevHash _ => prevHash = log.lastHash

/-- A row chained to the last one has a hash that the log does not have. -/
def NewHash (_ : Unit) (t : Task Json) (log : AuditLog Json) : Prop :=
  match t with
  | .read _ => True
  | .insert _ prevHash hash => prevHash = log.lastHash → hash ∉ log.hashes

instance (inp : Unit) (t : Task Json) (log : AuditLog Json) : Decidable (NewHash inp t log) :=
  match t with
  | .read _ => .isTrue trivial
  | .insert _ prevHash hash =>
    inferInstanceAs (Decidable (prevHash = log.lastHash → hash ∉ log.hashes))

/-- An insertion keeps the chain exactly when it still finds the hash it has read. -/
theorem linear_insert_iff {log : AuditLog Json} (h : Linear log) (columns : RecordInput Json)
    (prevHash hash : String) :
    Linear (log.insert columns prevHash hash) ↔ prevHash = log.lastHash := by
  unfold Linear AuditLog.insert
  rw [HashChain.linked_append_singleton]
  exact and_iff_right h

theorem linear_step_iff (t : Task Json) {log : AuditLog Json} (h : Linear log) :
    Linear (step codec () t log).1 ↔ FindsLast () t log := by
  cases t with
  | read input => exact iff_of_true h trivial
  | insert input prevHash hash => exact linear_insert_iff h (stored codec input) prevHash hash

theorem chain_inductive :
    (protocol codec).Inductive FindsLast (fun _ => True) (fun _ _ => True) where
  init _ _ _ := trivial
  shared _ _ _ _ _ _ := trivial
  cont _ _ _ _ _ _ _ _ := trivial
  stable _ _ _ _ _ _ _ _ := trivial

/-- Along every interleaving the log is one chain exactly when every insertion still finds
the hash that its call has read at the end of the log. -/
theorem linear_iff_findsLast (log : AuditLog Json) (h : Linear log)
    (as : List (Act (RecordInput Json) Unit)) :
    (protocol codec).Throughout Linear ⟨log, []⟩ as ↔
      (protocol codec).Along FindsLast ⟨log, []⟩ as :=
  (chain_inductive codec).throughout_iff (fun _ t _ _ _ hq => linear_step_iff codec t hq)
    ⟨trivial, fun _ _ => trivial⟩ h as

/-- A call that has read after `k` insertions holds the hash that was the last one then. -/
inductive Reads (base : ℕ) (log : AuditLog Json) : Task Json → Option ℕ → Prop where
  | read (input : RecordInput Json) : Reads base log (.read input) none
  | insert {input : RecordInput Json} {prevHash hash : String} {k : ℕ}
      (h : log.hashes[base + k]? = some prevHash) :
      Reads base log (.insert input prevHash hash) (some k)

theorem Reads.of_insert {base : ℕ} {log : AuditLog Json} {u : Task Json} {u' : Option ℕ}
    (h : Reads base log u u') (columns : RecordInput Json) (prevHash hash : String) :
    Reads base (log.insert columns prevHash hash) u u' := by
  cases h with
  | read input => exact .read input
  | insert h =>
    apply Reads.insert
    obtain ⟨hk, _⟩ := List.getElem?_eq_some_iff.1 h
    rwa [AuditLog.hashes_insert, List.getElem?_append_left hk]

/-- Calls of `record` run in lockstep with their schedule. -/
theorem lockstep_schedule (base : ℕ) : Protocol.Lockstep (protocol codec) schedule
    (fun log n => log.rows.length = base + n) (fun log _ t t' => Reads base log t t') where
  init _ _ input _ := .read input
  shared _ t t' log n hlen ht := by
    cases ht with
    | read input => exact hlen
    | insert h => exact (AuditLog.length_insert _ _ _ _).trans (congrArg (· + 1) hlen)
  cont _ t t' log n hlen ht := by
    cases ht with
    | read input =>
      refine .some (.insert ?_)
      change log.hashes[base + n]? = some log.lastHash
      rw [← hlen]
      exact log.getElem?_hashes
    | insert h => exact .none
  stable _ t t' log n u u' hlen ht hu := by
    cases ht with
    | read input => exact hu
    | insert h => exact hu.of_insert _ _ _

/-- With no insertion since its read, a call finds the hash that it has read. -/
theorem findsLast_of_undisturbed {base n : ℕ} {log : AuditLog Json} {t : Task Json}
    {t' : Option ℕ} (hlen : log.rows.length = base + n) (ht : Reads base log t t')
    (h : Undisturbed () t' n) : FindsLast () t log := by
  cases ht with
  | read input => trivial
  | @insert _ prevHash _ k hk =>
    have hkn : k = n := h k rfl
    rw [hkn, ← hlen, log.getElem?_hashes] at hk
    exact (Option.some.inj hk).symm

/-- Where no two hashes are the same, only a call without an insertion since its read finds
the hash that it has read. -/
theorem findsLast_iff_undisturbed {base n : ℕ} {log : AuditLog Json} {t : Task Json}
    {t' : Option ℕ} (hnodup : log.hashes.Nodup) (hlen : log.rows.length = base + n)
    (ht : Reads base log t t') : FindsLast () t log ↔ Undisturbed () t' n := by
  refine ⟨fun h => ?_, findsLast_of_undisturbed hlen ht⟩
  rintro k hk
  cases ht with
  | read input => cases hk
  | @insert _ prevHash _ k' hk' =>
    cases hk
    change prevHash = log.lastHash at h
    have hlast := log.getElem?_hashes
    rw [← h, ← hk'] at hlast
    obtain ⟨hlt, _⟩ := List.getElem?_eq_some_iff.1 hk'
    have hsame := (List.getElem?_inj hlt hnodup).1 hlast.symm
    omega

theorem nodup_step {inp : Unit} {t : Task Json} {log : AuditLog Json} (hnew : NewHash inp t log)
    (hlast : FindsLast inp t log) (h : log.hashes.Nodup) :
    (step codec inp t log).1.hashes.Nodup := by
  cases t with
  | read input => exact h
  | insert input prevHash hash =>
    change (log.insert (stored codec input) prevHash hash).hashes.Nodup
    rw [AuditLog.hashes_insert]
    exact List.nodup_append_comm.1 (List.nodup_cons.2 ⟨hnew hlast, h⟩)

/-- In every run in which no call inserts between another's read and its insertion, the log
is one chain throughout. Where every row chained to the last one gets a new hash, it is one
only in such runs. -/
theorem linear_iff (log : AuditLog Json) (h : Linear log)
    (as : List (Act (RecordInput Json) Unit)) :
    (schedule.Along Undisturbed ⟨0, []⟩ as →
      (protocol codec).Throughout Linear ⟨log, []⟩ as) ∧
    (log.hashes.Nodup → (protocol codec).Along NewHash ⟨log, []⟩ as →
      ((protocol codec).Throughout Linear ⟨log, []⟩ as ↔
        schedule.Along Undisturbed ⟨0, []⟩ as)) := by
  rw [linear_iff_findsLast codec log h as]
  have hlock := lockstep_schedule codec log.rows.length
  have hmatched : Protocol.Matched (fun log' n => log'.rows.length = log.rows.length + n)
      (fun log' _ t t' => Reads log.rows.length log' t t') ⟨log, []⟩ ⟨0, []⟩ := ⟨rfl, .nil⟩
  constructor
  · intro hsched
    exact hlock.along_of (fun _ _ _ _ _ hlen ht hk => findsLast_of_undisturbed hlen ht hk)
      hmatched hsched
  · intro hnodup hnew
    exact hlock.along_iff (H := NewHash) (F := FindsLast) (G := Undisturbed)
      (fun _ _ _ hn hf hd => nodup_step codec hn hf hd)
      (fun _ _ _ _ _ _ hd hlen ht => findsLast_iff_undisturbed hd hlen ht) hmatched hnodup hnew

end Chain

section Overlap

/-- What the sample rows record: nothing, or an object of strings. -/
abbrev Payload := Option (List (String × String))

/-- A JSONB column keeps the keys of an object by length and then by their characters. -/
def keySorted (fields : List (String × String)) : List (String × String) :=
  fields.insertionSort (fun a b => a.1.length < b.1.length ∨
    (a.1.length = b.1.length ∧ a.1.toList ≤ b.1.toList))

/-- The text of a payload whose strings need no escapes. -/
def payloadText : Payload → String
  | none => "null"
  | some fields => "\x7b" ++ ",".intercalate
      (fields.map (fun f => "\"" ++ f.1 ++ "\":\"" ++ f.2 ++ "\"")) ++ "\x7d"

/-- The text of an object whose strings need no escapes. -/
def plainText (o : Hashed Payload) : String :=
  "\x7b\"prevHash\":\"" ++ o.prevHash ++ "\",\"actorId\":" ++
    o.actorId.elim "null" (fun actorId => "\"" ++ actorId ++ "\"") ++
    ",\"action\":\"" ++ o.action ++ "\",\"entityType\":\"" ++ o.entityType ++
    "\",\"entityId\":\"" ++ o.entityId ++ "\",\"before\":" ++ payloadText o.before ++
    ",\"after\":" ++ payloadText o.after ++ "\x7d"

/-- An admin cancels a contest. -/
def cancelInput (contestId : String) : RecordInput Payload where
  actorId := some "6f1c2c0e-5a52-4f6e-9f0e-0f2d5c1b7a11"
  actorType := .admin
  action := "contest.cancel"
  entityType := "Contest"
  entityId := contestId
  before := none
  after := some (some [("reason", "rain")])
  ip := none

def contestA : String := "3f0a9d52-8c1e-4b7d-a6f4-2b9c7d10e5aa"

def contestB : String := "c41d7e08-93b2-4e66-8d15-7a0f3e9b6c24"

/-- What a row chained to `prevHash` holds of a cancellation. -/
def cancelled (prevHash contestId : String) : Hashed Payload where
  prevHash := prevHash
  actorId := some "6f1c2c0e-5a52-4f6e-9f0e-0f2d5c1b7a11"
  action := "contest.cancel"
  entityType := "Contest"
  entityId := contestId
  before := none
  after := some [("reason", "rain")]

def hashA : String := "60eb94666ccb83a057019ea071214f8eb2dfbbee788fe1fdb283312734a914e3"

/-- SHA-256 of the texts of three cancellations. -/
def sampleCodec : Codec Payload where
  null := none
  stringify := plainText
  sha256 text :=
    if text = plainText (cancelled "genesis" contestA) then hashA
    else if text = plainText (cancelled "genesis" contestB) then
      "f3497c7ee7489f4914fa0a9cdd66f0c791fb8b9b95482dba71d07341917fb3f2"
    else if text = plainText (cancelled hashA contestB) then
      "a7bc9ed2a537fc61c74112838d96b507620a113f51daea834f6ebf765662bdb0"
    else ""
  jsonb payload := payload.map keySorted

/-- Two calls in flight at once, the second of which reads after the first has inserted. -/
def inTurn : List (Act (RecordInput Payload) Unit) :=
  [.start (cancelInput contestA), .start (cancelInput contestB), .resume 0 (), .resume 0 (),
    .resume 0 (), .resume 0 ()]

/-- Two calls read the empty log before either of them inserts its row. -/
def overlapping : List (Act (RecordInput Payload) Unit) :=
  [.start (cancelInput contestA), .start (cancelInput contestB), .resume 0 (), .resume 1 (),
    .resume 0 (), .resume 0 ()]

theorem linear_iff_inTurn :
    (protocol sampleCodec).Throughout Linear ⟨AuditLog.empty, []⟩ inTurn ∧
      ((protocol sampleCodec).Throughout Linear ⟨AuditLog.empty, []⟩ overlapping ↔
        schedule.Along Undisturbed ⟨0, []⟩ overlapping) :=
  ⟨(linear_iff sampleCodec AuditLog.empty trivial inTurn).1 (by decide +kernel),
    (linear_iff sampleCodec AuditLog.empty trivial overlapping).2 (by decide +kernel)
      (by decide +kernel)⟩

/-- Both rows point to the beginning. -/
theorem overlapping_forks :
    ¬ (protocol sampleCodec).Throughout Linear ⟨AuditLog.empty, []⟩ overlapping := by
  intro h
  have hlast := ((protocol sampleCodec).throughout_iff_prefixes _ _ overlapping).1 h overlapping
    List.prefix_rfl
  revert hlast
  unfold Linear
  decide +kernel

end Overlap

end Audit
end FootballIQ
