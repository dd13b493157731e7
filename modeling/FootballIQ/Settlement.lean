import FootballIQ.Contests
import FootballIQ.Ranking

/-!
# Prize distribution

One journal entry settles a contest: the escrow pays out its whole balance, the
platform takes the commission and each paid position its prize. The ranking and
the template are read before the transaction; the escrow's balance inside it.
-/

namespace FootballIQ
namespace Settlement

open Transaction Relational WalletAccounts Contests Ranking

/-- What `distribute` reads and ranks before its transaction. -/
structure SettlementSnapshot where
  contest : Contest
  template : List PayoutRow
  ranked : List RankableEntry
  deriving DecidableEq

def rankable (e : Entry) : RankableEntry where
  entryId := e.id
  userId := e.userId
  totalPointsX10 := e.totalPointsX10
  correctExpert := e.correctExpert
  correctHard := e.correctHard
  submittedAt := e.submittedAt

/-- The read step; a contest that is not in SCORED is skipped. -/
def distributeRead (drawHash : ℕ → ℕ → String) (contestId : ℕ) (db : Db) :
    Option SettlementSnapshot := do
  let contest ← db.contests.find contestId
  let template ← db.payoutTemplates.find contest.payoutTemplateId
  if contest.status = .scored then
    some ⟨contest, template.structure_,
      rankEntries drawHash contestId ((activeEntries db contestId).map rankable)⟩
  else none

structure WinnerLine where
  accountId : ℕ
  prizeMinor : ℤ
  winner : RankableEntry
  deriving DecidableEq

/-- The wallet of each prize's winner; a hole in the prizes has no line to filter. -/
def winnerLines : List (Option ℤ × RankableEntry) → Tx Failure Db (List WinnerLine)
  | [] => return []
  | (none, _) :: _ => throw (.error "Cannot read properties of undefined (reading 'amountMinor')")
  | (some prizeMinor, winner) :: rest => do
    let account ← userAvailable winner.userId
    let lines ← winnerLines rest
    return ⟨account.id, prizeMinor, winner⟩ :: lines

def settlementKey (contestId : ℕ) : String := "settlement:" ++ toString contestId

def poolOf (gross commissionBps : ℤ) : ℤ := (gross * (10000 - commissionBps)).tdiv 10000

def paidLines (winners : List WinnerLine) : List JournalLine :=
  (winners.filter (fun w => 0 < w.prizeMinor)).map (fun w => ⟨w.accountId, w.prizeMinor⟩)

def payoutInput (contest : Contest) (escrow platform : LedgerAccount) (commission : ℤ)
    (winners : List WinnerLine) : PostJournalInput where
  type := .prizePayout
  idempotencyKey := settlementKey contest.id
  description := s!"Settlement — {contest.title}"
  lines := ⟨escrow.id, -escrow.balanceMinor⟩ :: ⟨platform.id, commission⟩ :: paidLines winners
  metadata := [("contestId", toString contest.id), ("gross", toString escrow.balanceMinor),
    ("commission", toString commission)]

def prizeNotice (contest : Contest) (line : WinnerLine) : Notification where
  userId := line.winner.userId
  type := "prize.won"
  title := "You won a prize! 🏆"
  body := s!"Your Football IQ earned you a prize in \"{contest.title}\"."
  data := [("contestId", toString contest.id), ("prizeMinor", toString line.prizeMinor)]

def recordPrize (contest : Contest) (line : WinnerLine) : Tx Failure Db PUnit := do
  Db.updateEntry line.winner.entryId (fun e => { e with prizeMinor := line.prizeMinor })
    (fun _ => rfl)
  if 0 < line.prizeMinor then Db.notify (prizeNotice contest line) else pure ⟨⟩

/-- The money of a settlement, from the balance that the escrow has now. -/
def payOut (snap : SettlementSnapshot) (escrow platform : LedgerAccount) :
    Tx Failure Db PUnit := do
  let prizes ← check (computePrizes (poolOf escrow.balanceMinor snap.contest.commissionBps)
    snap.template snap.ranked.length)
  let winners ← winnerLines (prizes.zip snap.ranked)
  let _ ← Db.post (payoutInput snap.contest escrow platform
    (escrow.balanceMinor - prizes.reduceOption.sum) winners)
  assertEscrowEmpty "settlement" snap.contest.id escrow.id
  forM winners (recordPrize snap.contest)

def payOutIfDue (snap : SettlementSnapshot) (escrow platform : LedgerAccount) :
    Tx Failure Db PUnit :=
  if 0 < escrow.balanceMinor ∧ snap.ranked ≠ [] then payOut snap escrow platform else pure ⟨⟩

def chunkSize : ℕ := 10000

/-- The rows `(entry id, rank)` of the batch that starts at `offset`. -/
def rankRows (ranked : List RankableEntry) (offset : ℕ) : List (ℕ × ℕ) :=
  (((ranked.drop offset).take chunkSize).map (·.entryId)).zipIdx (offset + 1)

/-- The set-based update of one batch: the final rank, and the entry settled. -/
def settleEntries (entries : Table Entry) (rows : List (ℕ × ℕ)) : Table Entry :=
  entries.updateWhere (fun e => (rows.lookup e.id).isSome)
    (fun e => { e with finalRank := rows.lookup e.id, status := .settled }) (fun _ => rfl)

/-- The batches of the loop over the offsets, each as its rows. -/
def rankBatches (ranked : List RankableEntry) : List (List (ℕ × ℕ)) :=
  (List.range ((ranked.length + chunkSize - 1) / chunkSize)).map
    (fun i => rankRows ranked (i * chunkSize))

def recordRanks (ranked : List RankableEntry) : Tx Failure Db PUnit :=
  modify (fun db => { db with entries := (rankBatches ranked).foldl settleEntries db.entries })

def distributeTx (now : DateTime) (snap : SettlementSnapshot) : Tx Failure Db PUnit := do
  let escrow ← contestEscrow snap.contest.id
  let platform ← system .platformRevenue
  payOutIfDue snap escrow platform
  recordRanks snap.ranked
  Db.updateContest snap.contest.id
    (fun c => { c with status := .settled, settledAt := some now }) (fun _ => rfl)
  Db.emit (.prizesDistributed snap.contest.id)

section Outcomes

/-- The pool is at most what there is, whatever the commission. -/
theorem poolOf_le {gross commissionBps : ℤ} (hgross : 0 ≤ gross) (hcommission : 0 ≤ commissionBps) :
    poolOf gross commissionBps ≤ gross := by
  have hless : gross * (10000 - commissionBps) ≤ gross * 10000 :=
    mul_le_mul_of_nonneg_left (by omega) hgross
  calc poolOf gross commissionBps ≤ (gross * 10000).tdiv 10000 :=
        Int.tdiv_le_tdiv (by decide) hless
    _ = gross := Int.mul_tdiv_cancel gross (by decide)

/-- The effect of the loop over the winners on the entries. -/
def awardPrizes (entries : Table Entry) (lines : List WinnerLine) : Table Entry :=
  lines.foldl (fun t line => t.update line.winner.entryId
    (fun e => { e with prizeMinor := line.prizeMinor }) (fun _ => rfl)) entries

theorem distributeRead_some {drawHash : ℕ → ℕ → String} {contestId : ℕ} {db : Db}
    {snap : SettlementSnapshot} (h : distributeRead drawHash contestId db = some snap) :
    db.contests.find contestId = some snap.contest ∧ snap.contest.id = contestId ∧
      snap.contest.status = .scored ∧
      snap.ranked.Perm ((activeEntries db contestId).map rankable) := by
  unfold distributeRead at h
  simp only [Option.bind_eq_bind, Option.bind_eq_some_iff] at h
  obtain ⟨c, hc, template, _, hrest⟩ := h
  by_cases hs : c.status = .scored
  · rw [if_pos hs, Option.some.injEq] at hrest
    subst hrest
    exact ⟨hc, ((Table.find_eq_some_iff _ _ _).1 hc).2, hs, rankEntries_perm drawHash _ _⟩
  · rw [if_neg hs] at hrest
    cases hrest

theorem winnerLines_ok {ps : List (Option ℤ × RankableEntry)} {db db' : Db}
    {lines : List WinnerLine} (h : winnerLines ps db = .ok (lines, db')) :
    db' = db ∧ List.Forall₂ (fun p w => p = (some w.prizeMinor, w.winner) ∧
      ∃ a, ofUser db.ledger.accounts w.winner.userId .userAvailable "NGN" = some a ∧
        w.accountId = a.id) ps lines := by
  induction ps generalizing lines with
  | nil =>
    simp only [winnerLines, pure_ok_iff] at h
    obtain ⟨rfl, rfl⟩ := h
    exact ⟨rfl, List.Forall₂.nil⟩
  | cons p ps ih =>
    obtain ⟨_ | prize, winner⟩ := p
    · simp only [winnerLines, throw_ok_iff] at h
    · simp only [winnerLines, bind_ok_iff, userAvailable_ok_iff, pure_ok_iff] at h
      obtain ⟨a, _, ⟨ha, rfl⟩, ls, _, hls, rfl, rfl⟩ := h
      obtain ⟨rfl, hall⟩ := ih hls
      exact ⟨rfl, List.Forall₂.cons ⟨rfl, a, ha, rfl⟩ hall⟩

/-- The loop over the winners only touches the entries and the notifications. -/
theorem recordPrizes_ok {contest : Contest} {lines : List WinnerLine} {db : Db} {r : PUnit × Db}
    (h : (forM lines (recordPrize contest) : Tx Failure Db PUnit) db = .ok r) :
    ∃ ns, r.2 = { db with entries := awardPrizes db.entries lines, notifications := ns } := by
  induction lines generalizing db with
  | nil =>
    rw [forM_nil_ok_iff] at h
    exact ⟨db.notifications, h.symm⟩
  | cons line lines ih =>
    rw [forM_cons_ok_iff] at h
    simp only [recordPrize, bind_ok_iff, Db.updateEntry_ok_iff] at h
    obtain ⟨db₂, ⟨_, _, ⟨_, rfl⟩, hnotify⟩, hrest⟩ := h
    obtain ⟨ns, hr⟩ := ih hrest
    by_cases hpos : 0 < line.prizeMinor
    · rw [if_pos hpos, Db.notify_ok_iff] at hnotify
      cases hnotify
      exact ⟨ns, hr⟩
    · rw [if_neg hpos, pure_unit_ok_iff] at hnotify
      cases hnotify
      exact ⟨ns, hr⟩

theorem recordPrizes_commits (contest : Contest) (lines : List WinnerLine) (db : Db)
    (hex : ∀ line ∈ lines, ∃ e, db.entries.find line.winner.entryId = some e) :
    ∃ r, (forM lines (recordPrize contest) : Tx Failure Db PUnit) db = .ok r := by
  induction lines generalizing db with
  | nil => exact ⟨(⟨⟩, db), rfl⟩
  | cons line lines ih =>
    obtain ⟨e, he⟩ := hex line List.mem_cons_self
    have hne : db.entries.find line.winner.entryId ≠ none := by simp [he]
    have hone : ∃ ns, recordPrize contest line db = .ok (⟨⟩, { db with
        entries := db.entries.update line.winner.entryId
          (fun e => { e with prizeMinor := line.prizeMinor }) (fun _ => rfl)
        notifications := ns }) := by
      by_cases hpos : 0 < line.prizeMinor
      · exact ⟨db.notifications ++ [prizeNotice contest line], by simp [recordPrize, hne, hpos]⟩
      · exact ⟨db.notifications, by simp [recordPrize, hne, hpos]⟩
    obtain ⟨ns, hone⟩ := hone
    obtain ⟨r, hr⟩ := ih { db with
        entries := db.entries.update line.winner.entryId
          (fun e => { e with prizeMinor := line.prizeMinor }) (fun _ => rfl)
        notifications := ns } (by
      intro l hl
      obtain ⟨e', he'⟩ := hex l (List.mem_cons_of_mem _ hl)
      exact ⟨_, by rw [Table.find_update, he', Option.map_some]⟩)
    exact ⟨r, (forM_cons_ok_iff _ _ _ _ _).2 ⟨_, hone, hr⟩⟩

theorem payOut_ok {snap : SettlementSnapshot} {escrow platform : LedgerAccount} {db : Db}
    {r : PUnit × Db} (h : payOut snap escrow platform db = .ok r) :
    ∃ prizes winners id l ns,
      computePrizes (poolOf escrow.balanceMinor snap.contest.commissionBps) snap.template
        snap.ranked.length = .ok prizes ∧
      winnerLines (prizes.zip snap.ranked) db = .ok (winners, db) ∧
      Ledger.post (payoutInput snap.contest escrow platform
        (escrow.balanceMinor - prizes.reduceOption.sum) winners) db.ledger = .ok (id, l) ∧
      (∃ a, l.accounts.find escrow.id = some a ∧ a.balanceMinor = 0) ∧
      r.2 = { db with
        ledger := l
        entries := awardPrizes db.entries winners
        notifications := ns } := by
  simp only [payOut, bind_ok_iff, check_ok_iff, Db.post_ok_iff, assertEscrowEmpty_ok_iff] at h
  obtain ⟨prizes, _, ⟨hprizes, rfl⟩, winners, _, hwin, id, _, ⟨l, hpost, rfl⟩, _, _,
    ⟨hzero, rfl⟩, hloop⟩ := h
  obtain ⟨rfl, _⟩ := winnerLines_ok hwin
  obtain ⟨ns, hr⟩ := recordPrizes_ok hloop
  exact ⟨prizes, winners, id, l, ns, hprizes, hwin, hpost, hzero, hr⟩

theorem distributeTx_ok_iff (now : DateTime) (snap : SettlementSnapshot) (db : Db)
    (r : PUnit × Db) :
    distributeTx now snap db = .ok r ↔ ∃ escrow platform db₁,
      ofContest db.ledger.accounts snap.contest.id = some escrow ∧
      ofSystem db.ledger.accounts .platformRevenue = some platform ∧
      ((0 < escrow.balanceMinor ∧ snap.ranked ≠ [] ∧
          payOut snap escrow platform db = .ok (⟨⟩, db₁)) ∨
        (¬ (0 < escrow.balanceMinor ∧ snap.ranked ≠ []) ∧ db₁ = db)) ∧
      db₁.contests.find snap.contest.id ≠ none ∧
      r.2 = { db₁ with
        entries := (rankBatches snap.ranked).foldl settleEntries db₁.entries
        contests := db₁.contests.update snap.contest.id
          (fun c => { c with status := .settled, settledAt := some now }) (fun _ => rfl)
        outbox := db₁.outbox ++ [.prizesDistributed snap.contest.id] } := by
  simp only [distributeTx, payOutIfDue, recordRanks, bind_ok_iff, contestEscrow_ok_iff, system_ok_iff,
    modify_ok_iff, Db.updateContest_ok_iff, Db.emit_ok_iff]
  constructor
  · rintro ⟨escrow, _, ⟨he, rfl⟩, platform, _, ⟨hp, rfl⟩, _, db₁, hpay, _, _, rfl, _, _,
      ⟨hc, rfl⟩, hr⟩
    refine ⟨escrow, platform, db₁, he, hp, ?_, hc, hr.symm⟩
    by_cases hpos : 0 < escrow.balanceMinor ∧ snap.ranked ≠ []
    · rw [if_pos hpos] at hpay
      exact Or.inl ⟨hpos.1, hpos.2, hpay⟩
    · rw [if_neg hpos, pure_unit_ok_iff] at hpay
      exact Or.inr ⟨hpos, hpay.symm⟩
  · rintro ⟨escrow, platform, db₁, he, hp, hpay, hc, hr⟩
    refine ⟨escrow, db, ⟨he, rfl⟩, platform, db, ⟨hp, rfl⟩, ⟨⟩, db₁, ?_, ⟨⟩, _, rfl, ⟨⟩, _,
      ⟨hc, rfl⟩, hr.symm⟩
    rcases hpay with ⟨hpos, hne, hpay⟩ | ⟨hno, rfl⟩
    · rwa [if_pos ⟨hpos, hne⟩]
    · rw [if_neg hno, pure_unit_ok_iff]

end Outcomes

end Settlement
end FootballIQ
