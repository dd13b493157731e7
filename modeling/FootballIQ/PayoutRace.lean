import FootballIQ.Interleaving
import FootballIQ.Withdrawals

/-!
# Approvals and rejections racing on a withdrawal

Any number of admins approve and reject; every read, update, gateway call and
transaction of a call is a step of its own. Each withdrawal has a lineage: the
approved calls that have not reached the gateway yet, and the transfers that
have. As long as a decision is only written over an undecided row, the lineage
has at most one member, and a reversal needs a rejection or a failed transfer.
-/

namespace FootballIQ
namespace PayoutRace

open Transaction Relational Interleaving Withdrawals

/-- The database and the transfers submitted to the gateway, with its answers. -/
structure World where
  db : Db
  submissions : List (PayoutInput × PayoutStatus)
  deriving DecidableEq

inductive Call where
  | approve (adminId withdrawalId : ℕ)
  | reject (adminId withdrawalId : ℕ) (reason : String)
  deriving DecidableEq

/-- The clock of a step, and what the gateway answers if the step calls it. -/
structure Tick where
  now : DateTime
  answer : PayoutResult
  deriving DecidableEq

/-- A call in flight. A reversal remembers the admin whose rejection is still to be audited. -/
inductive Task where
  | ready (call : Call)
  | approveUpdate (adminId withdrawalId : ℕ) (before : WithdrawalStatus)
  | approveAudit (adminId withdrawalId : ℕ) (before : WithdrawalStatus)
  | payoutRead (withdrawalId : ℕ)
  | payoutCall (input : PayoutInput)
  | payoutUpdate (withdrawalId : ℕ) (result : PayoutResult)
  | settleRead (withdrawalId : ℕ)
  | settleTx (w : Withdrawal)
  | reverseRead (withdrawalId : ℕ) (status : ReversalStatus) (reason : String)
    (auditor : Option ℕ)
  | reverseTx (w : Withdrawal) (status : ReversalStatus) (reason : String) (auditor : Option ℕ)
  | rejectAudit (adminId withdrawalId : ℕ) (reason : String)
  deriving DecidableEq

/-- Run a transaction and go on to `next` if it commits. -/
def thenDo {α : Type} (x : Tx Failure Db α) (s : World) (next : α → Option Task) :
    World × Option Task :=
  match x s.db with
  | .ok (a, db) => ({ s with db := db }, next a)
  | .error _ => (s, none)

def rejectRead (withdrawalId : ℕ) : Tx Failure Db PUnit := do
  let db ← get
  let withdrawal ← orThrow (db.withdrawals.find withdrawalId)
    (.notFound "WITHDRAWAL_NOT_FOUND" none)
  throwIf (withdrawal.status ∉ decidable) (.conflict "INVALID_STATUS" none)

theorem rejectRead_ok_iff (k : ℕ) (db : Db) (r : PUnit × Db) :
    rejectRead k db = .ok r ↔ ∃ w, db.withdrawals.find k = some w ∧ w.status ∈ decidable ∧
      r = (⟨⟩, db) := by
  obtain ⟨u, db'⟩ := r
  simp only [rejectRead, bind_ok_iff, get_ok_iff, orThrow_ok_iff, throwIf_ok_iff]
  constructor
  · rintro ⟨_, _, ⟨rfl, rfl⟩, w, _, ⟨hw, rfl⟩, hs, rfl⟩
    exact ⟨w, hw, not_not.1 hs, rfl⟩
  · rintro ⟨w, hw, hs, heq⟩
    cases heq
    exact ⟨db, db, ⟨rfl, rfl⟩, w, db, ⟨hw, rfl⟩, not_not.2 hs, rfl⟩

/-- What `initiatePayout` does with the gateway's answer. -/
def afterAnswer (withdrawalId : ℕ) (result : PayoutResult) : Task :=
  if result.status = .failed then
    .reverseRead withdrawalId .failed (result.failReason.getD "Gateway rejected transfer") none
  else .payoutUpdate withdrawalId result

def step (inp : Tick) (t : Task) (s : World) : World × Option Task :=
  match t with
  | .ready (.approve adminId withdrawalId) =>
    thenDo (approveRead adminId withdrawalId) s
      (fun before => some (.approveUpdate adminId withdrawalId before))
  | .ready (.reject adminId withdrawalId reason) =>
    thenDo (rejectRead withdrawalId) s
      (fun _ => some (.reverseRead withdrawalId .rejected reason (some adminId)))
  | .approveUpdate adminId withdrawalId before =>
    thenDo (approveUpdate adminId withdrawalId) s
      (fun _ => some (.approveAudit adminId withdrawalId before))
  | .approveAudit adminId withdrawalId before =>
    thenDo (approveAudit adminId withdrawalId before) s (fun _ => some (.payoutRead withdrawalId))
  | .payoutRead withdrawalId =>
    thenDo (payoutRead withdrawalId) s (fun input => some (.payoutCall input))
  | .payoutCall input =>
    ({ s with submissions := s.submissions ++ [(input, inp.answer.status)] },
      some (afterAnswer input.withdrawalId inp.answer))
  | .payoutUpdate withdrawalId result =>
    thenDo (payoutUpdate withdrawalId result) s
      (fun _ => if result.status = .paid then some (.settleRead withdrawalId) else none)
  | .settleRead withdrawalId => (s, (settleRead withdrawalId s.db).map .settleTx)
  | .settleTx w => thenDo (settleTx inp.now w) s (fun _ => none)
  | .reverseRead withdrawalId status reason auditor =>
    (s, (s.db.withdrawals.find withdrawalId).map (fun w => .reverseTx w status reason auditor))
  | .reverseTx w status reason auditor =>
    thenDo (reverseTx inp.now w status reason) s
      (fun _ => auditor.map (fun adminId => .rejectAudit adminId w.id reason))
  | .rejectAudit adminId withdrawalId reason =>
    thenDo (Db.record ⟨adminId, "withdrawal.reject", withdrawalId, [],
      [("status", "REJECTED"), ("reason", reason)]⟩) s (fun _ => none)

def protocol : Protocol World Call Task Tick := ⟨.ready, step⟩

section Property

def transfersOf (s : World) (withdrawalId : ℕ) : List (PayoutInput × PayoutStatus) :=
  s.submissions.filter (fun t => t.1.withdrawalId = withdrawalId)

/-- A WITHDRAWAL_REVERSAL journal for the withdrawal exists. -/
def Reversed (db : Db) (withdrawalId : ℕ) : Prop :=
  ∃ j ∈ db.ledger.journal.rows, j.type = .withdrawalReversal ∧
    j.idempotencyKey = reverseKey withdrawalId

/-- At most one transfer per withdrawal, and no reversal beside one that did not fail. -/
def PaidOrRefunded (s : World) : Prop :=
  ∀ withdrawalId, (transfersOf s withdrawalId).length ≤ 1 ∧
    ((∃ t ∈ transfersOf s withdrawalId, t.2 ≠ .failed) → ¬ Reversed s.db withdrawalId)

instance (db : Db) (withdrawalId : ℕ) : Decidable (Reversed db withdrawalId) :=
  inferInstanceAs (Decidable (∃ j ∈ db.ledger.journal.rows, j.type = .withdrawalReversal ∧
    j.idempotencyKey = reverseKey withdrawalId))

/-- No decision has been written on the row yet. -/
def Undecided (db : Db) (withdrawalId : ℕ) : Prop :=
  ∃ w, db.withdrawals.find withdrawalId = some w ∧ w.status ∈ decidable

/-- A decision is written only over an undecided row: the APPROVED update, and the
transaction of a rejection unless the hold is already back. -/
def FreshDecision (_inp : Tick) (t : Task) (s : World) : Prop :=
  match t with
  | .approveUpdate _ withdrawalId _ => Undecided s.db withdrawalId
  | .reverseTx w status _ _ => status = .failed ∨ Undecided s.db w.id ∨ Reversed s.db w.id
  | _ => True

instance (db : Db) (withdrawalId : ℕ) : Decidable (Undecided db withdrawalId) :=
  inferInstanceAs (Decidable (∃ w ∈ db.withdrawals.find withdrawalId, w.status ∈ decidable))

instance (inp : Tick) (t : Task) (s : World) : Decidable (FreshDecision inp t s) := by
  unfold FreshDecision
  split <;> infer_instance

end Property

section Lineage

/-- An approved call on its way to the gateway. -/
def heading (withdrawalId : ℕ) : Task → ℕ
  | .approveAudit _ k _ => if k = withdrawalId then 1 else 0
  | .payoutRead k => if k = withdrawalId then 1 else 0
  | .payoutCall input => if input.withdrawalId = withdrawalId then 1 else 0
  | _ => 0

def headed (withdrawalId : ℕ) (ts : List Task) : ℕ := (ts.map (heading withdrawalId)).sum

/-- A reversal that was started because the gateway refused the transfer. -/
def Refused (withdrawalId : ℕ) : Task → Prop
  | .reverseRead k status _ _ => status = .failed ∧ k = withdrawalId
  | .reverseTx w status _ _ => status = .failed ∧ w.id = withdrawalId
  | _ => False

/-- The lineage of a withdrawal has at most one member, none while it is undecided,
and a reversal leaves no live member. -/
structure Exclusive (c : Config World Task) : Prop where
  single : ∀ k, headed k c.pending + (transfersOf c.shared k).length ≤ 1
  undecided : ∀ k, Undecided c.shared.db k →
    headed k c.pending + (transfersOf c.shared k).length = 0 ∧ ¬ Reversed c.shared.db k
  reversed : ∀ k, Reversed c.shared.db k →
    headed k c.pending = 0 ∧ ∀ t ∈ transfersOf c.shared k, t.2 = .failed
  refused : ∀ t ∈ c.pending, ∀ k, Refused k t → ∃ x ∈ transfersOf c.shared k, x.2 = .failed

theorem headed_split (k : ℕ) (l r : List Task) (ts : List Task) :
    headed k (l ++ ts ++ r) = headed k (l ++ r) + headed k ts := by
  simp only [headed, List.map_append, List.sum_append]
  omega

theorem headed_around (k : ℕ) (l r : List Task) (t : Task) :
    headed k (l ++ t :: r) = headed k (l ++ r) + heading k t := by
  simp only [headed, List.map_append, List.map_cons, List.sum_append, List.sum_cons]
  omega

theorem headed_toList_some (k : ℕ) (t : Task) : headed k (some t).toList = heading k t := by
  simp [headed]

section Around
variable {s : World} {l r : List Task} {t : Task} (h : Exclusive ⟨s, l ++ t :: r⟩) (k : ℕ)
include h

theorem Exclusive.single_around :
    headed k (l ++ r) + heading k t + (transfersOf s k).length ≤ 1 :=
  headed_around k l r t ▸ h.single k

theorem Exclusive.undecided_around (hk : Undecided s.db k) :
    headed k (l ++ r) = 0 ∧ heading k t = 0 ∧ (transfersOf s k).length = 0 ∧
      ¬ Reversed s.db k := by
  obtain ⟨hz, hno⟩ := h.undecided k hk
  have hz' : headed k (l ++ r) + heading k t + (transfersOf s k).length = 0 :=
    headed_around k l r t ▸ hz
  exact ⟨by omega, by omega, by omega, hno⟩

theorem Exclusive.reversed_around (hk : Reversed s.db k) :
    headed k (l ++ r) = 0 ∧ heading k t = 0 ∧ ∀ x ∈ transfersOf s k, x.2 = .failed := by
  obtain ⟨hz, hall⟩ := h.reversed k hk
  have hz' : headed k (l ++ r) + heading k t = 0 := headed_around k l r t ▸ hz
  exact ⟨by omega, by omega, hall⟩

end Around

/-- Transfers only join, so the tasks beside a step keep the refusal behind them. -/
theorem Exclusive.refused_after {s s' : World} {l r : List Task} {t : Task} {o : Option Task}
    (h : Exclusive ⟨s, l ++ t :: r⟩) (htr : ∀ k, ∀ x ∈ transfersOf s k, x ∈ transfersOf s' k)
    (hnext : ∀ u ∈ o, ∀ k, Refused k u → ∃ x ∈ transfersOf s' k, x.2 = .failed) :
    ∀ u ∈ l ++ o.toList ++ r, ∀ k, Refused k u → ∃ x ∈ transfersOf s' k, x.2 = .failed := by
  intro u hu k huk
  have hbeside : u ∈ l ++ t :: r → ∃ x ∈ transfersOf s' k, x.2 = .failed := by
    intro hmem
    obtain ⟨x, hx, hfailed⟩ := h.refused u hmem k huk
    exact ⟨x, htr k x hx, hfailed⟩
  rw [List.append_assoc, List.mem_append, List.mem_append, Option.mem_toList] at hu
  rcases hu with hu | hu | hu
  · exact hbeside (by simp [hu])
  · exact hnext u hu k huk
  · exact hbeside (by simp [hu])

/-- Steps that decide nothing, submit nothing and post no reversal. -/
theorem Exclusive.quiet {s s' : World} {l r : List Task} {t : Task} {o : Option Task}
    (h : Exclusive ⟨s, l ++ t :: r⟩)
    (hund : ∀ k, Undecided s'.db k → Undecided s.db k)
    (hrev : ∀ k, Reversed s'.db k → Reversed s.db k)
    (hsub : s'.submissions = s.submissions)
    (hhead : ∀ k, headed k o.toList ≤ heading k t)
    (href : ∀ u ∈ o, ∀ k, Refused k u → Refused k t) :
    Exclusive ⟨s', l ++ o.toList ++ r⟩ := by
  have htr : ∀ k, transfersOf s' k = transfersOf s k := fun k => by
    simp only [transfersOf, hsub]
  refine ⟨?_, ?_, ?_, ?_⟩
  · intro k
    have h1 := h.single_around k
    have h2 := hhead k
    simp only [headed_split, htr]
    omega
  · intro k hk
    obtain ⟨h1, h2, h3, hno⟩ := h.undecided_around k (hund k hk)
    have h4 := hhead k
    refine ⟨?_, fun hr => hno (hrev k hr)⟩
    simp only [headed_split, htr]
    omega
  · intro k hk
    obtain ⟨h1, h2, hall⟩ := h.reversed_around k (hrev k hk)
    have h4 := hhead k
    simp only [headed_split, htr]
    exact ⟨by omega, hall⟩
  · apply h.refused_after
    · intro k x hx
      rwa [htr]
    · intro u hu k huk
      rw [htr]
      exact h.refused t (by simp) k (href u hu k huk)

/-- A call that ends without a trace. -/
theorem Exclusive.dropped {s : World} {l r : List Task} {t : Task}
    (h : Exclusive ⟨s, l ++ t :: r⟩) : Exclusive ⟨s, l ++ (none : Option Task).toList ++ r⟩ :=
  h.quiet (fun _ hk => hk) (fun _ hk => hk) rfl (fun _ => Nat.zero_le _) (fun u hu => by cases hu)

end Lineage

section Writes

theorem undecided_update {db db' : Db} {j : ℕ} {f : Withdrawal → Withdrawal}
    (hf : ∀ w, Row.id (f w) = Row.id w) (hstatus : ∀ w, (f w).status ∉ decidable)
    (hdb : db'.withdrawals = db.withdrawals.update j f hf) {k : ℕ} (h : Undecided db' k) :
    k ≠ j ∧ Undecided db k := by
  obtain ⟨w', hw', hs⟩ := h
  rw [hdb, Table.find_update] at hw'
  obtain ⟨w, hw, rfl⟩ := Option.map_eq_some_iff.1 hw'
  by_cases hk : k = j
  · rw [if_pos hk] at hs
    exact absurd hs (hstatus w)
  · rw [if_neg hk] at hs
    exact ⟨hk, w, hw, hs⟩

theorem reversed_of_post {db db' : Db} {input : PostJournalInput} {accounts : Table LedgerAccount}
    {id : ℕ} {l : Ledger}
    (hpost : Ledger.post input { db.ledger with accounts := accounts } = .ok (id, l))
    (hdb : db'.ledger = l) {k : ℕ} (h : Reversed db' k) :
    Reversed db k ∨ (input.type = .withdrawalReversal ∧ input.idempotencyKey = reverseKey k) := by
  obtain ⟨j, hj, htype, hkey⟩ := h
  rw [hdb] at hj
  rcases Ledger.mem_journal_of_post hpost hj with hj | rfl
  · exact Or.inl ⟨j, hj, htype, hkey⟩
  · exact Or.inr ⟨htype, hkey⟩

end Writes

section Steps
variable {s : World} {l r : List Task}

theorem Exclusive.thenDo {α : Type} {t : Task} {x : Tx Failure Db α} {next : α → Option Task}
    (h : Exclusive ⟨s, l ++ t :: r⟩)
    (hok : ∀ a db, x s.db = .ok (a, db) →
      Exclusive ⟨{ s with db := db }, l ++ (next a).toList ++ r⟩) :
    Exclusive ⟨(thenDo x s next).1, l ++ (thenDo x s next).2.toList ++ r⟩ := by
  unfold PayoutRace.thenDo
  cases hx : x s.db with
  | ok p => exact hok p.1 p.2 hx
  | error e => exact h.dropped

theorem Exclusive.ready {call : Call} (inp : Tick) (h : Exclusive ⟨s, l ++ .ready call :: r⟩) :
    Exclusive ⟨(step inp (.ready call) s).1, l ++ (step inp (.ready call) s).2.toList ++ r⟩ := by
  cases call with
  | approve adminId k =>
    refine h.thenDo (fun before db hok => ?_)
    obtain ⟨w, _, _, _, heq⟩ := (approveRead_ok_iff adminId k s.db (before, db)).1 hok
    obtain rfl : db = s.db := congrArg Prod.snd heq
    exact h.quiet (fun _ hk => hk) (fun _ hk => hk) rfl (fun k => by simp [headed, heading])
      (by rintro _ ⟨⟩ _ ⟨⟩)
  | reject adminId k reason =>
    refine h.thenDo (fun _ db hok => ?_)
    obtain ⟨w, _, _, heq⟩ := (rejectRead_ok_iff k s.db (_, db)).1 hok
    obtain rfl : db = s.db := congrArg Prod.snd heq
    refine h.quiet (fun _ hk => hk) (fun _ hk => hk) rfl (fun k => by simp [headed, heading]) ?_
    rintro _ ⟨⟩ j ⟨hstatus, _⟩
    cases hstatus

/-- The APPROVED update over an undecided row starts the only lineage of the withdrawal. -/
theorem Exclusive.approveUpdate {adminId k : ℕ} {before : WithdrawalStatus} (inp : Tick)
    (h : Exclusive ⟨s, l ++ .approveUpdate adminId k before :: r⟩) (hfresh : Undecided s.db k) :
    Exclusive ⟨(step inp (.approveUpdate adminId k before) s).1,
      l ++ (step inp (.approveUpdate adminId k before) s).2.toList ++ r⟩ := by
  refine h.thenDo (fun _ db hok => ?_)
  obtain ⟨_, rfl⟩ := (Db.updateWithdrawal_ok_iff _ _ _ _ _).1 hok
  have hnew : ∀ j, headed j (l ++ r) + (transfersOf s j).length +
      heading j (.approveAudit adminId k before) ≤ 1 := by
    intro j
    have hj := h.single_around j
    by_cases hkj : k = j
    · subst hkj
      obtain ⟨h1, _, h3, _⟩ := h.undecided_around k hfresh
      simp only [heading, if_true]
      omega
    · simp only [heading, if_neg hkj]
      omega
  refine ⟨?_, ?_, ?_, ?_⟩
  · intro j
    have hj := hnew j
    simp only [headed_split, headed_toList_some]
    change _ + (transfersOf s j).length ≤ 1
    omega
  · intro j hj
    obtain ⟨hne, hold⟩ := undecided_update (id_approved adminId)
      (fun _ => by simp [approved, decidable]) rfl hj
    obtain ⟨h1, _, h3, hno⟩ := h.undecided_around j hold
    simp only [headed_split, headed_toList_some, heading, if_neg (Ne.symm hne)]
    change _ + (transfersOf s j).length = 0 ∧ ¬ Reversed s.db j
    exact ⟨by omega, hno⟩
  · intro j hj
    have hne : j ≠ k := by
      rintro rfl
      exact (h.undecided j hfresh).2 hj
    obtain ⟨h1, _, hall⟩ := h.reversed_around j hj
    simp only [headed_split, headed_toList_some, heading, if_neg (Ne.symm hne)]
    exact ⟨by omega, hall⟩
  · apply h.refused_after
    · intro j x hx
      exact hx
    · rintro _ ⟨⟩ j ⟨⟩

/-- The gateway call moves the member of the lineage from the calls to the transfers. -/
theorem Exclusive.payoutCall {input : PayoutInput} (inp : Tick)
    (h : Exclusive ⟨s, l ++ .payoutCall input :: r⟩) :
    Exclusive ⟨(step inp (.payoutCall input) s).1,
      l ++ (step inp (.payoutCall input) s).2.toList ++ r⟩ := by
  have htr : ∀ j, transfersOf (step inp (.payoutCall input) s).1 j = transfersOf s j ++
      if input.withdrawalId = j then [(input, inp.answer.status)] else [] := by
    intro j
    by_cases hj : input.withdrawalId = j
    · simp [step, transfersOf, hj]
    · simp [step, transfersOf, hj]
  have hnext : ∀ j, heading j (afterAnswer input.withdrawalId inp.answer) = 0 := by
    intro j
    unfold afterAnswer
    split_ifs <;> rfl
  refine ⟨?_, ?_, ?_, ?_⟩
  · intro j
    have hj := h.single_around j
    change headed j (l ++ (some (afterAnswer input.withdrawalId inp.answer)).toList ++ r) + _ ≤ 1
    rw [headed_split, headed_toList_some, hnext, htr, List.length_append]
    by_cases hij : input.withdrawalId = j
    · simp only [heading, if_pos hij] at hj ⊢
      simp only [List.length_singleton]
      omega
    · simp only [heading, if_neg hij] at hj ⊢
      simp only [List.length_nil]
      omega
  · intro j hj
    obtain ⟨h1, h2, h3, hno⟩ := h.undecided_around j hj
    have hij : input.withdrawalId ≠ j := by
      rintro rfl
      simp only [heading, if_true, one_ne_zero] at h2
    change headed j (l ++ (some (afterAnswer input.withdrawalId inp.answer)).toList ++ r) + _ = 0 ∧ _
    rw [headed_split, headed_toList_some, hnext, htr, if_neg hij, List.append_nil]
    exact ⟨by omega, hno⟩
  · intro j hj
    obtain ⟨h1, h2, hall⟩ := h.reversed_around j hj
    have hij : input.withdrawalId ≠ j := by
      rintro rfl
      simp only [heading, if_true, one_ne_zero] at h2
    change headed j (l ++ (some (afterAnswer input.withdrawalId inp.answer)).toList ++ r) = 0 ∧ _
    rw [headed_split, headed_toList_some, hnext, htr, if_neg hij, List.append_nil]
    exact ⟨by omega, hall⟩
  · apply h.refused_after
    · intro j x hx
      rw [htr]
      exact List.mem_append_left _ hx
    · rintro _ ⟨⟩ j huj
      rw [htr]
      unfold afterAnswer at huj
      split_ifs at huj with hfail
      · obtain ⟨_, hij⟩ := huj
        exact ⟨(input, inp.answer.status), by simp [hij], hfail⟩
      · cases huj

/-- A reversal after a refused transfer finds that transfer in the lineage, one after
a rejection finds the lineage empty or the reversal already posted. -/
theorem Exclusive.reverseTx {w : Withdrawal} {status : ReversalStatus} {reason : String}
    {auditor : Option ℕ} (inp : Tick)
    (h : Exclusive ⟨s, l ++ .reverseTx w status reason auditor :: r⟩)
    (hfresh : status = .failed ∨ Undecided s.db w.id ∨ Reversed s.db w.id) :
    Exclusive ⟨(step inp (.reverseTx w status reason auditor) s).1,
      l ++ (step inp (.reverseTx w status reason auditor) s).2.toList ++ r⟩ := by
  refine h.thenDo (fun _ db hok => ?_)
  obtain ⟨pending, available, accounts, id, lg, ns, hpost, rfl⟩ := reverseTx_ok hok
  have hclear : headed w.id (l ++ r) = 0 ∧ ∀ x ∈ transfersOf s w.id, x.2 = .failed := by
    rcases hfresh with hfailed | hund | hrev
    · obtain ⟨x, hx, hxf⟩ := h.refused (.reverseTx w status reason auditor) (by simp) w.id
        ⟨hfailed, rfl⟩
      have hone := h.single_around w.id
      have hpos : 0 < (transfersOf s w.id).length := List.length_pos_of_mem hx
      refine ⟨by omega, fun y hy => ?_⟩
      obtain ⟨z, hz⟩ := List.length_eq_one_iff.1 (show (transfersOf s w.id).length = 1 by omega)
      rw [hz, List.mem_singleton] at hx hy
      rw [hy, ← hx, hxf]
    · obtain ⟨h1, _, h3, _⟩ := h.undecided_around w.id hund
      rw [List.length_eq_zero_iff] at h3
      exact ⟨h1, by simp [h3]⟩
    · obtain ⟨h1, _, hall⟩ := h.reversed_around w.id hrev
      exact ⟨h1, hall⟩
  have hhead : ∀ j, headed j (auditor.map (fun adminId => .rejectAudit adminId w.id reason)).toList
      = 0 := fun j => by
    cases auditor <;> rfl
  have hdecided : ∀ w, (returned inp.now status reason w).status ∉ decidable := fun w => by
    cases status <;> simp [returned, decidable, ReversalStatus.toStatus]
  refine ⟨?_, ?_, ?_, ?_⟩
  · intro j
    have hj := h.single_around j
    rw [headed_split, hhead]
    change _ + (transfersOf s j).length ≤ 1
    omega
  · intro j hj
    obtain ⟨hne, hold⟩ := undecided_update (id_returned inp.now status reason) hdecided rfl hj
    obtain ⟨h1, _, h3, hno⟩ := h.undecided_around j hold
    rw [headed_split, hhead]
    change _ + (transfersOf s j).length = 0 ∧ _
    refine ⟨by omega, fun hr => ?_⟩
    rcases reversed_of_post hpost rfl hr with hr | ⟨_, hkey⟩
    · exact hno hr
    · exact hne (Ledger.key_inj hkey).symm
  · intro j hj
    rw [headed_split, hhead]
    rcases reversed_of_post hpost rfl hj with hr | ⟨_, hkey⟩
    · obtain ⟨h1, _, hall⟩ := h.reversed_around j hr
      exact ⟨by omega, hall⟩
    · rw [← Ledger.key_inj hkey]
      exact ⟨by omega, hclear.2⟩
  · apply h.refused_after
    · intro j x hx
      exact hx
    · intro u hu j huj
      cases auditor with
      | none => cases hu
      | some adminId =>
        cases hu
        cases huj

/-- Every step that meets the guard keeps the lineages exclusive. -/
theorem Exclusive.step {t : Task} (inp : Tick) (h : Exclusive ⟨s, l ++ t :: r⟩)
    (hfresh : FreshDecision inp t s) :
    Exclusive ⟨(step inp t s).1, l ++ (step inp t s).2.toList ++ r⟩ := by
  cases t with
  | ready call => exact h.ready inp
  | approveUpdate adminId k before => exact h.approveUpdate inp hfresh
  | approveAudit adminId k before =>
    refine h.thenDo (fun _ db hok => ?_)
    obtain rfl := (Db.record_ok_iff _ _ _).1 hok
    exact h.quiet (fun _ hk => hk) (fun _ hk => hk) rfl (fun j => by simp [headed, heading])
      (by rintro _ ⟨⟩ _ ⟨⟩)
  | payoutRead k =>
    refine h.thenDo (fun input db hok => ?_)
    obtain ⟨rfl, rfl⟩ := payoutRead_ok hok
    exact h.quiet (fun _ hk => hk) (fun _ hk => hk) rfl (fun j => by simp [headed, heading])
      (by rintro _ ⟨⟩ _ ⟨⟩)
  | payoutCall input => exact h.payoutCall inp
  | payoutUpdate k result =>
    refine h.thenDo (fun _ db hok => ?_)
    obtain ⟨_, rfl⟩ := (Db.updateWithdrawal_ok_iff _ _ _ _ _).1 hok
    refine h.quiet
      (fun j hj => (undecided_update (id_processing result)
        (fun _ => by simp [processing, decidable]) rfl hj).2)
      (fun _ hk => hk) rfl (fun j => ?_) ?_
    · split_ifs <;> simp [headed, heading]
    · intro u hu j huj
      split_ifs at hu with hpaid
      · cases hu
        cases huj
      · cases hu
  | settleRead k =>
    refine h.quiet (fun _ hk => hk) (fun _ hk => hk) rfl (fun j => ?_) ?_
    · cases hw : settleRead k s.db <;> simp [headed, heading, PayoutRace.step, hw]
    · intro u hu j huj
      obtain ⟨w, _, rfl⟩ := Option.map_eq_some_iff.1 hu
      cases huj
  | settleTx w =>
    refine h.thenDo (fun _ db hok => ?_)
    obtain ⟨pending, external, accounts, id, lg, ns, ob, hpost, rfl⟩ := settleTx_ok hok
    refine h.quiet
      (fun j hj => (undecided_update (id_paid inp.now)
        (fun _ => by simp [paid, decidable]) rfl hj).2)
      (fun j hj => ?_) rfl (fun _ => Nat.zero_le _) (by rintro _ ⟨⟩)
    rcases reversed_of_post hpost rfl hj with hold | ⟨htype, _⟩
    · exact hold
    · cases htype
  | reverseRead k status reason auditor =>
    refine h.quiet (fun _ hk => hk) (fun _ hk => hk) rfl (fun j => ?_) ?_
    · cases hw : s.db.withdrawals.find k <;> simp [headed, heading, PayoutRace.step, hw]
    · intro u hu j huj
      obtain ⟨w, hw, rfl⟩ := Option.map_eq_some_iff.1 hu
      obtain ⟨hfailed, hid⟩ := huj
      exact ⟨hfailed, ((Table.find_eq_some_iff _ _ _).1 hw).2.symm.trans hid⟩
  | reverseTx w status reason auditor => exact h.reverseTx inp hfresh
  | rejectAudit adminId k reason =>
    refine h.thenDo (fun _ db hok => ?_)
    obtain rfl := (Db.record_ok_iff _ _ _).1 hok
    exact h.quiet (fun _ hk => hk) (fun _ hk => hk) rfl (fun j => by simp [headed])
      (by rintro _ ⟨⟩)

end Steps

section Runs

theorem Exclusive.paidOrRefunded {c : Config World Task} (h : Exclusive c) :
    PaidOrRefunded c.shared := by
  intro k
  have hone := h.single k
  refine ⟨by omega, ?_⟩
  rintro ⟨x, hx, hlive⟩ hrev
  exact hlive ((h.reversed k hrev).2 x hx)

theorem Exclusive.start {s : World} (hsub : s.submissions = [])
    (hopen : ∀ k, Undecided s.db k → ¬ Reversed s.db k) : Exclusive ⟨s, []⟩ := by
  have htr : ∀ k, transfersOf s k = [] := fun k => by simp [transfersOf, hsub]
  exact ⟨fun k => by simp [headed, htr], fun k hk => ⟨by simp [headed, htr], hopen k hk⟩,
    fun k _ => by simp [headed, htr], by simp⟩

theorem Exclusive.called {s : World} {ts : List Task} (h : Exclusive ⟨s, ts⟩) (call : Call) :
    Exclusive ⟨s, ts ++ [.ready call]⟩ := by
  have hhead : ∀ k, headed k (ts ++ [.ready call]) = headed k ts := fun k => by
    simp [headed, heading]
  refine ⟨fun k => ?_, fun k hk => ?_, fun k hk => ?_, fun u hu k huk => ?_⟩
  · rw [hhead]
    exact h.single k
  · rw [hhead]
    exact h.undecided k hk
  · rw [hhead]
    exact h.reversed k hk
  · rcases List.mem_append.1 hu with hu | hu
    · exact h.refused u hu k huk
    · rw [List.mem_singleton] at hu
      subst hu
      cases huk

/-- When every decision of a run is written over an undecided row, each withdrawal
has at most one transfer in every state reached, and no reversal beside a transfer
that did not fail. -/
theorem paid_or_refunded {s : World} (hsub : s.submissions = [])
    (hopen : ∀ k, Undecided s.db k → ¬ Reversed s.db k) (as : List (Act Call Tick))
    (hfresh : protocol.Along FreshDecision ⟨s, []⟩ as) :
    protocol.Throughout PaidOrRefunded ⟨s, []⟩ as := by
  rw [protocol.throughout_iff_prefixes]
  rintro bs ⟨cs, rfl⟩
  have hbs := ((protocol.along_append FreshDecision _ bs cs).1 hfresh).1
  refine Exclusive.paidOrRefunded
    (Protocol.Along.invariant protocol ?_ ?_ (Exclusive.start hsub hopen) hbs)
  · intro c call hc
    exact hc.called call
  · intro c i inp t ht hG hc
    obtain ⟨l, r, hp, hn⟩ := protocol.next_resume_some inp ht
    rw [hn]
    exact Exclusive.step inp (hp ▸ hc) hG

end Runs

section Races

/-- One requested withdrawal of 50 whose hold is in place. -/
def heldWorld : World where
  db := { Db.empty with
    ledger :=
      { accounts := ⟨[⟨1, .userAvailable, some 7, none, "NGN", 0⟩,
          ⟨2, .userWithdrawalPending, some 7, none, "NGN", 50⟩], by decide⟩
        journal := Table.empty }
    withdrawals := ⟨[⟨1, 7, 5, 50, 0, .requested, none, none, none, none, none⟩], by decide⟩
    bankAccounts := ⟨[⟨5, 7, "044", "Access", "0123456789", "Ada", none⟩], by decide⟩ }
  submissions := []

def processingTick : Tick := ⟨10, ⟨"PAYSTACK", "tr-1", .processing, none⟩⟩

/-- An approval up to and including the gateway call. -/
def approval : List (Act Call Tick) :=
  [.start (.approve 100 1), .resume 0 processingTick, .resume 0 processingTick,
    .resume 0 processingTick, .resume 0 processingTick, .resume 0 processingTick]

/-- Beside the withdrawal of 50 another one of 30, its hold in place as well. -/
def heldPair : World where
  db := { heldWorld.db with
    ledger :=
      { accounts := ⟨[⟨1, .userAvailable, some 7, none, "NGN", 0⟩,
          ⟨2, .userWithdrawalPending, some 7, none, "NGN", 80⟩], by decide⟩
        journal := Table.empty }
    withdrawals := ⟨[⟨1, 7, 5, 50, 0, .requested, none, none, none, none, none⟩,
      ⟨2, 7, 5, 30, 90, .underReview, none, none, none, none, none⟩], by decide⟩ }
  submissions := []

/-- The approval of one withdrawal and the rejection of the other take turns, and a second
approval of the first reads it when it is decided. -/
def decisions : List (Act Call Tick) :=
  [.start (.approve 100 1), .start (.reject 200 2 "duplicate"), .resume 0 processingTick,
    .resume 1 processingTick, .resume 0 processingTick, .start (.approve 200 1),
    .resume 2 processingTick, .resume 1 processingTick, .resume 0 processingTick,
    .resume 1 processingTick, .resume 0 processingTick, .resume 0 processingTick,
    .resume 1 processingTick, .resume 0 processingTick]

theorem paid_or_refunded_decisions :
    protocol.Throughout PaidOrRefunded ⟨heldPair, []⟩ decisions ∧
      (protocol.run ⟨heldPair, []⟩ decisions).shared.submissions.length = 1 ∧
      Reversed (protocol.run ⟨heldPair, []⟩ decisions).shared.db 2 := by
  refine ⟨paid_or_refunded rfl (fun k _ => ?_) decisions (by decide +kernel), by decide +kernel,
    by decide +kernel⟩
  rintro ⟨j, hj, _⟩
  cases hj

/-- Both admins read REQUESTED; the approval submits the transfer, and then the
rejection's transaction still returns the hold. -/
def approveAgainstReject : List (Act Call Tick) :=
  [.start (.approve 100 1), .start (.reject 200 1 "duplicate"), .resume 0 processingTick,
    .resume 1 processingTick, .resume 0 processingTick, .resume 0 processingTick,
    .resume 0 processingTick, .resume 0 processingTick, .resume 1 processingTick,
    .resume 1 processingTick]

theorem approve_reject_pays_twice :
    ¬ protocol.Throughout PaidOrRefunded ⟨heldWorld, []⟩ approveAgainstReject := by
  intro h
  rw [protocol.throughout_iff_prefixes] at h
  obtain ⟨_, hlive⟩ := h _ List.prefix_rfl 1
  exact hlive ⟨(⟨1, 50, "NGN", "044", "0123456789", "Ada", 1⟩, .processing), by decide, by decide⟩
    (by decide)

end Races

end PayoutRace
end FootballIQ
