import FootballIQ.Completion
import FootballIQ.Leaderboard
import FootballIQ.Lifecycle
import FootballIQ.PoolSteps
import Mathlib

/-!
# The advertised pool and the pool that is paid

The page of a contest and the live push compute the prize pool from the fee and the number of
active entries, the settlement computes it from the escrow. Until the settlement the two agree.
The settlement closes all entries, and from then on the pool that is shown is zero.
-/

namespace FootballIQ
namespace PrizePool

open Transaction Relational Interleaving WalletAccounts Contests Settlement Ranking Platform
open Leaderboard

section Pages

structure ListItem where
  id : ℕ
  slug : String
  title : String
  status : ContestStatus
  entryFeeMinor : ℤ
  currency : String
  lockAt : Option DateTime
  maxEntries : Option ℕ
  entryCount : ℕ
  estimatedPrizePoolMinor : ℤ
  deriving DecidableEq

structure MatchItem where
  contestMatchId : ℕ
  order : ℕ
  fixtureId : ℕ
  kickoffAt : Option DateTime
  status : Option FixtureStatus
  stars : Option ℤ
  deriving DecidableEq

structure SlotItem where
  slotId : ℕ
  slotNo : ℕ
  tier : DifficultyTier
  contestMatchId : ℕ
  deriving DecidableEq

structure ContestPage where
  item : ListItem
  matchItems : List MatchItem
  slotItems : List SlotItem
  deriving DecidableEq

variable (directory : Directory)

def toListItem (c : Contest) (entryCount : ℕ) : ListItem where
  id := c.id
  slug := directory.slug c.id
  title := c.title
  status := c.status
  entryFeeMinor := c.entryFeeMinor
  currency := c.currency
  lockAt := c.lockAt
  maxEntries := c.maxEntries
  entryCount := entryCount
  estimatedPrizePoolMinor := poolOf (c.entryFeeMinor * entryCount) c.commissionBps

def toMatchItem (db : Db) (m : ContestMatch) : MatchItem where
  contestMatchId := m.id
  order := m.order
  fixtureId := m.fixtureId
  kickoffAt := (db.fixtures.find m.fixtureId).map (·.kickoffAt)
  status := (db.fixtures.find m.fixtureId).map (·.status)
  stars := Entries.fixtureStars db m.fixtureId

/-- The page counts the active entries only. -/
def getBySlug (slug : String) : Tx Failure Db ContestPage := do
  let db ← get
  let contest ← orThrow (findBySlug directory db slug) (.notFound "CONTEST_NOT_FOUND" none)
  throwIf (contest.status = .draft) (.notFound "CONTEST_NOT_FOUND" none)
  return {
    item := toListItem directory contest (activeEntries db contest.id).length
    matchItems := ((db.contestMatches.findMany (fun m => m.contestId = contest.id)).insertionSort
      (fun a b => a.order ≤ b.order)).map (toMatchItem db)
    slotItems := ((Entries.slotsOf db contest.id).insertionSort
      (fun a b => a.slotNo ≤ b.slotNo)).map (fun s => ⟨s.id, s.slotNo, s.tier, s.contestMatchId⟩) }

inductive LiveType where
  | leaderboardUpdate | poolUpdate | contestStatus
  deriving DecidableEq

structure LivePush where
  type : LiveType
  contestId : ℕ
  slug : String
  status : ContestStatus
  entryCount : ℕ
  estimatedPrizePoolMinor : String
  deriving DecidableEq

/-- The key of the leaderboard cache that is deleted, and the message; nothing where there is
no such contest. -/
def pushLive (contestId : ℕ) (type : LiveType) (db : Db) : Option (String × LivePush) := do
  let contest ← db.contests.find contestId
  let entryCount := (activeEntries db contestId).length
  let pool := poolOf (contest.entryFeeMinor * entryCount) contest.commissionBps
  return ("lb:" ++ directory.slug contest.id, {
    type := type
    contestId := contestId
    slug := directory.slug contest.id
    status := contest.status
    entryCount := entryCount
    estimatedPrizePoolMinor := toString pool })

/-- The pool that is shown for a contest. -/
def advertised (db : Db) (c : Contest) : ℤ :=
  poolOf (c.entryFeeMinor * (activeEntries db c.id).length) c.commissionBps

variable {db : Db} {c : Contest}

theorem getBySlug_shows {slug : String} (h : findBySlug directory db slug = some c)
    (hdraft : c.status ≠ .draft) : ∃ page, getBySlug directory slug db = .ok (page, db) ∧
      page.item = toListItem directory c (activeEntries db c.id).length := by
  simp only [getBySlug, bind_ok_iff, get_ok_iff, orThrow_ok_iff, throwIf_ok_iff, pure_ok_iff]
  exact ⟨_, ⟨db, db, ⟨rfl, rfl⟩, c, db, ⟨h, rfl⟩, ⟨⟩, db, ⟨hdraft, rfl⟩, rfl, rfl⟩, rfl⟩

theorem pushLive_shows {contestId : ℕ} (h : db.contests.find contestId = some c) (type : LiveType) :
    ∃ key push, pushLive directory contestId type db = some (key, push) ∧
      push.estimatedPrizePoolMinor = toString (advertised db c) := by
  have hid : c.id = contestId := ((Table.find_eq_some_iff _ _ _).1 h).2
  simp [pushLive, h, advertised, hid]

end Pages

section Totals

/-- The prizes of the entries of a contest, together. -/
def prizeTotal (db : Db) (contestId : ℕ) : ℤ :=
  ((db.entries.findMany (fun e => e.contestId = contestId)).map (·.prizeMinor)).sum

/-- The prize of an entry, if it is one of the contest. -/
def prizeIn (contestId : ℕ) (e : Entry) : ℤ := if e.contestId = contestId then e.prizeMinor else 0

variable {k : ℕ} {t : Table Entry} {db : Db}

theorem prizeTotal_eq_columns : prizeTotal db k = ((columnsIn db.entries k).map (·.2.2)).sum := by
  unfold prizeTotal columnsIn
  rw [List.map_map]
  rfl

theorem prizeTotal_eq_sum : prizeTotal db k = (db.entries.rows.map (prizeIn k)).sum := by
  have hsum : ∀ es : List Entry, ((es.filter (fun e => e.contestId = k)).map (·.prizeMinor)).sum =
      (es.map (prizeIn k)).sum := by
    intro es
    induction es with
    | nil => rfl
    | cons e es ih =>
      by_cases he : e.contestId = k
      · simp [he, ih, prizeIn]
      · simp [he, ih, prizeIn]
  exact hsum db.entries.rows

/-- Prizes for distinct entries of the contest that have none yet. -/
theorem sum_award (lines : List WinnerLine) (hnd : (lines.map (·.winner.entryId)).Nodup)
    (hfind : ∀ line ∈ lines, ∃ e, t.find line.winner.entryId = some e ∧ e.contestId = k ∧
      e.prizeMinor = 0) :
    ((awardPrizes t lines).rows.map (prizeIn k)).sum =
      (t.rows.map (prizeIn k)).sum + (lines.map (·.prizeMinor)).sum := by
  induction lines generalizing t with
  | nil => simp [awardPrizes]
  | cons line lines ih =>
    rw [List.map_cons, List.nodup_cons] at hnd
    obtain ⟨e, he, hcontest, hzero⟩ := hfind line List.mem_cons_self
    have hrest := ih (t := t.update line.winner.entryId
        (fun e => { e with prizeMinor := line.prizeMinor }) (fun _ => rfl)) hnd.2 (by
      intro line' hline'
      have hne : line'.winner.entryId ≠ line.winner.entryId := by
        intro heq
        exact hnd.1 (heq ▸ List.mem_map.2 ⟨line', hline', rfl⟩)
      rw [Table.find_update_of_ne _ _ (by intro r; rfl) hne]
      exact hfind line' (List.mem_cons_of_mem _ hline'))
    have hone := Table.sum_update t (fun e => { e with prizeMinor := line.prizeMinor })
      (fun _ => rfl) (prizeIn k) he
    change ((awardPrizes (t.update line.winner.entryId
      (fun e => { e with prizeMinor := line.prizeMinor }) (fun _ => rfl)) lines).rows.map
        (prizeIn k)).sum = _
    rw [hrest, hone, List.map_cons, List.sum_cons]
    simp only [prizeIn, hcontest, if_true, hzero]
    ring

theorem sum_settle (batches : List (List (ℕ × ℕ))) :
    ((batches.foldl settleEntries t).rows.map (prizeIn k)).sum =
      (t.rows.map (prizeIn k)).sum := by
  induction batches generalizing t with
  | nil => rfl
  | cons rows batches ih =>
    have hone : Table.Same (prizeIn k) t (settleEntries t rows) :=
      Table.same_updateWhere (by intro r; rfl) (fun _ _ _ => rfl)
    rw [List.foldl_cons, ih, hone]

/-- The winner lines carry the prizes, in their order, to the first places of the ranking. -/
theorem winners_of_lines {prizes : List (Option ℤ)} {ranked : List RankableEntry} {db' : Db}
    {lines : List WinnerLine} (h : winnerLines (prizes.zip ranked) db = .ok (lines, db'))
    (hlen : prizes.length ≤ ranked.length) :
    (lines.map (·.prizeMinor)).sum = prizes.reduceOption.sum ∧
      (lines.map (·.winner)).Sublist ranked := by
  obtain ⟨_, hall⟩ := winnerLines_ok h
  have hpairs : prizes.zip ranked = lines.map (fun w => (some w.prizeMinor, w.winner)) := by
    generalize prizes.zip ranked = pairs at hall
    clear h
    induction hall with
    | nil => rfl
    | cons hone _ ih => rw [List.map_cons, hone.1, ih]
  constructor
  · have hprizes := congrArg (List.map Prod.fst) hpairs
    rw [List.map_fst_zip hlen, List.map_map] at hprizes
    rw [hprizes]
    change _ = (lines.map (some ∘ (·.prizeMinor))).reduceOption.sum
    rw [← List.map_map, reduceOption_map_some]
  · have hwinners := congrArg (List.map Prod.snd) hpairs
    rw [List.map_map] at hwinners
    change _ = lines.map (·.winner) at hwinners
    rw [← hwinners]
    exact map_snd_zip_sublist prizes ranked

end Totals

namespace Pool
variable (pool : Pool)

/-- The pool that the settlement will divide. -/
def amount : ℤ := poolOf pool.escrow.balanceMinor pool.contest.commissionBps

/-- What no step changes, unless the contest is cancelled. -/
structure Kept (db : Db) : Prop where
  contest : ∃ c, db.contests.find pool.contest.id = some c ∧ terms c = terms pool.contest ∧
    c.status ∈ running
  template : (db.payoutTemplates.find pool.contest.payoutTemplateId).map (·.structure_) =
    some pool.template

/-- The money is in the escrow and the entries are as they were; or the contest is settled, the
escrow is empty, no entry is active, and the prizes are the pool. -/
inductive Phase (db : Db) : Prop
  | held (unsettled : ∀ c, db.contests.find pool.contest.id = some c → c.status ≠ .settled)
    (escrow : HasEscrow pool db pool.escrow)
    (entries : columnsIn db.entries pool.contest.id = pool.entries)
  | paid (settled : ∀ c, db.contests.find pool.contest.id = some c → c.status = .settled)
    (escrow : ∃ a, HasEscrow pool db a ∧ a.balanceMinor = 0)
    (closed : activeIn (columnsIn db.entries pool.contest.id) = [])
    (total : prizeTotal db pool.contest.id = max pool.amount 0)

/-- The database in which the contest has just been locked. -/
structure Starts (db : Db) : Prop where
  contest : db.contests.find pool.contest.id = some pool.contest
  escrow : ofContest db.ledger.accounts pool.contest.id = some pool.escrow
  template : (db.payoutTemplates.find pool.contest.payoutTemplateId).map (·.structure_) =
    some pool.template
  entries : columnsIn db.entries pool.contest.id = pool.entries

/-- A settlement of the contest that has read its terms and its entries at the lock. -/
structure Ranked (snap : SettlementSnapshot) : Prop where
  commission : snap.contest.commissionBps = pool.contest.commissionBps
  template : snap.template = pool.template
  ranked : (snap.ranked.map (·.entryId)).Perm (activeIn pool.entries)

/-- What is known of a task in flight. -/
structure Informed (db : Db) (t : Task) : Prop where
  truthful : Truthful db t
  settlement : ∀ snap, t = .distributeTx snap → snap.contest.id = pool.contest.id →
    pool.Ranked snap

/-- No cancellation of the contest commits, and neither does a submission to it or a publication
of it, which has read it before its lock. -/
def Undisturbed (drawHash : ℕ → ℕ → String) (tick : Tick) (t : Task) (db : Db) : Prop :=
  match t with
  | .distributeTx _ => True
  | t => pool.Elsewhere t ∨ (action drawHash tick t db).isOk = false

instance (drawHash : ℕ → ℕ → String) (tick : Tick) (db : Db) :
    ∀ t, Decidable (pool.Undisturbed drawHash tick t db)
  | .publishTx contest lockAt => inferInstanceAs (Decidable (contest.id ≠ pool.contest.id ∨
      (action drawHash tick (.publishTx contest lockAt) db).isOk = false))
  | .submitTx slip => inferInstanceAs (Decidable (slip.contest.id ≠ pool.contest.id ∨
      (action drawHash tick (.submitTx slip) db).isOk = false))
  | .cancelTx snap reason => inferInstanceAs (Decidable (snap.contest.id ≠ pool.contest.id ∨
      (action drawHash tick (.cancelTx snap reason) db).isOk = false))
  | .ready _ | .settle _ _ | .finalizeTx _ _ | .scoring _ => .isTrue (Or.inl trivial)
  | .distributeTx _ => .isTrue trivial

theorem starts_phase {pool : Pool} {db : Db} (h : pool.Starts db) :
    pool.Kept db ∧ pool.Phase db := by
  constructor
  · exact ⟨⟨_, h.contest, rfl, by simp [running, pool.locked]⟩, h.template⟩
  · refine .held (fun c hc => ?_) ⟨h.escrow, rfl, pool.escrow_type⟩ h.entries
    rw [← Option.some.inj (h.contest.symm.trans hc), pool.locked]
    decide

theorem pool_pos : 0 < pool.escrow.balanceMinor := by
  rw [pool.held]
  have hlen := List.length_pos_iff.2 pool.entered
  exact mul_pos pool.contest.fee_pos (by exact_mod_cast hlen)

end Pool

section Entries
variable {db db' : Db} {k : ℕ}

theorem mem_columnsIn {t : Table Entry} {x : ℕ × EntryStatus × ℤ} : x ∈ columnsIn t k ↔
    ∃ e ∈ t.rows, e.contestId = k ∧ (e.id, e.status, e.prizeMinor) = x := by
  unfold columnsIn
  rw [List.mem_map]
  simp only [Table.mem_findMany, and_assoc]

theorem activeIn_columns : activeIn (columnsIn db.entries k) = (activeEntries db k).map (·.id) := by
  unfold activeIn columnsIn activeEntries Table.findMany
  rw [List.filter_map, List.map_map, List.filter_filter]
  congr 1
  apply List.filter_congr
  intro e _
  simp [Bool.and_comm]

theorem activeIn_columns_eq_nil_iff :
    activeIn (columnsIn db.entries k) = [] ↔ ∀ e ∈ db.entries.rows, ¬ IsActive k e := by
  rw [activeIn_columns, List.map_eq_nil_iff, activeEntries, Table.findMany,
    List.filter_eq_nil_iff]
  simp only [IsActive, decide_eq_true_eq]

/-- What only closes opens no entry. -/
theorem closed_of_closes (h : activeIn (columnsIn db.entries k) = []) (hc : Closes db db') :
    activeIn (columnsIn db'.entries k) = [] := by
  rw [activeIn_columns_eq_nil_iff] at h ⊢
  intro e' he' hactive
  obtain ⟨e, he, hwas⟩ := (hc.entries k).mem he' hactive
  exact h e he hwas

/-- An id of an active entry is that of an entry of the contest, active with its prize. -/
theorem find_of_activeIn {id : ℕ} (h : id ∈ activeIn (columnsIn db.entries k)) :
    ∃ e, db.entries.find id = some e ∧ e ∈ activeEntries db k := by
  rw [activeIn_columns] at h
  obtain ⟨e, he, rfl⟩ := List.mem_map.1 h
  exact ⟨e, find_of_active he, he⟩

/-- A settlement that ranks all active entries of a contest leaves none active. -/
theorem closed_of_distributed {now : DateTime} {snap : SettlementSnapshot} {r : PUnit × Db}
    (h : distributeTx now snap db = .ok r) (hnd : (snap.ranked.map (·.entryId)).Nodup)
    (hall : ∀ e ∈ activeEntries db k, e.id ∈ snap.ranked.map (·.entryId)) :
    activeIn (columnsIn r.2.entries k) = [] := by
  rw [activeIn_columns_eq_nil_iff]
  rintro x hx ⟨hcontest, hactive⟩
  by_cases hin : x.id ∈ snap.ranked.map (·.entryId)
  · obtain ⟨q, hq, hid⟩ := List.mem_map.1 hin
    obtain ⟨i, hi⟩ := List.mem_iff_getElem?.1 hq
    have hfound : r.2.entries.find q.entryId = some x := hid ▸ r.2.entries.find_id hx
    obtain ⟨e, he⟩ := find_of_distributed h hfound
    obtain ⟨prize, hfind⟩ := find_ranked h hnd hi he
    rw [Option.some.inj (hfound.symm.trans hfind)] at hactive
    cases hactive
  · obtain ⟨e, hmem, hid, hcontest', hstatus⟩ := unranked_before h hx hin
    have hon : e ∈ activeEntries db k :=
      mem_activeEntries.2 ⟨hmem, hcontest'.trans hcontest, hstatus.trans hactive⟩
    exact hin (hid ▸ hall e hon)

end Entries

section Distribution
variable {pool : Pool} {db : Db} {now : DateTime} {snap : SettlementSnapshot} {r : PUnit × Db}

/-- While the money is held no entry has a prize. -/
theorem prizeTotal_held (h : columnsIn db.entries pool.contest.id = pool.entries) :
    prizeTotal db pool.contest.id = 0 := by
  rw [prizeTotal_eq_columns, h]
  apply List.sum_eq_zero
  intro prize hprize
  obtain ⟨e, he, rfl⟩ := List.mem_map.1 hprize
  exact (pool.unpaid e he).2

/-- A ranked entry is one of the contest that has no prize yet. -/
theorem unpaid_of_ranked (hentries : columnsIn db.entries pool.contest.id = pool.entries)
    (hranked : (snap.ranked.map (·.entryId)).Perm (activeIn pool.entries)) {q : RankableEntry}
    (hq : q ∈ snap.ranked) :
    ∃ e, db.entries.find q.entryId = some e ∧ e.contestId = pool.contest.id ∧
      e.prizeMinor = 0 := by
  have hin : q.entryId ∈ activeIn (columnsIn db.entries pool.contest.id) := by
    rw [hentries, ← hranked.mem_iff]
    exact List.mem_map_of_mem hq
  obtain ⟨e, he, hactive⟩ := find_of_activeIn hin
  obtain ⟨hmem, hcontest, _⟩ := mem_activeEntries.1 hactive
  have hcolumns : (e.id, e.status, e.prizeMinor) ∈ pool.entries := by
    rw [← hentries, mem_columnsIn]
    exact ⟨e, hmem, hcontest, rfl⟩
  exact ⟨e, he, hcontest, (pool.unpaid _ hcolumns).2⟩

/-- What a settlement that knows the pool ranks is without repetition. -/
theorem nodup_ranked (hentries : columnsIn db.entries pool.contest.id = pool.entries)
    (hranked : (snap.ranked.map (·.entryId)).Perm (activeIn pool.entries)) :
    (snap.ranked.map (·.entryId)).Nodup := by
  rw [hranked.nodup_iff, ← hentries, activeIn_columns]
  exact ids_activeEntries db pool.contest.id

/-- The payout empties the escrow, and the prizes that it awards are the pool. -/
theorem payOut_pool {platform : LedgerAccount} (hescrow : HasEscrow pool db pool.escrow)
    (hentries : columnsIn db.entries pool.contest.id = pool.entries)
    (hknown : pool.Ranked snap) (h : payOut snap pool.escrow platform db = .ok r) :
    (∃ a, HasEscrow pool r.2 a ∧ a.balanceMinor = 0) ∧
      prizeTotal r.2 pool.contest.id = max pool.amount 0 := by
  obtain ⟨hbps, htemplate, hranked⟩ := hknown
  obtain ⟨prizes, winners, id, l, ns, hprizes, hwin, hpost, ⟨a, ha, hzero⟩, hdb⟩ := payOut_ok h
  have hlength : 1 ≤ snap.ranked.length := by
    have hlen := hranked.length_eq
    have hpos := List.length_pos_iff.2 pool.entered
    rw [List.length_map] at hlen
    omega
  have hfirst : perPosition pool.template ≠ [] := by
    intro hnil
    obtain ⟨share, _, hshare⟩ := pool.pays_first
    rw [hnil] at hshare
    cases hshare
  rw [hbps, htemplate] at hprizes
  obtain ⟨hsum, hshort⟩ := sum_computePrizes hprizes hlength hfirst
  obtain ⟨hlines, hsub⟩ := winners_of_lines hwin hshort
  constructor
  · obtain ⟨a', ha', howner, hfind⟩ :=
      Ledger.ofContest_of_same (Ledger.extends_of_post hpost).accounts hescrow.found
    rw [ha, Option.some.injEq] at hfind
    subst hfind
    rw [hdb]
    exact ⟨a, ⟨ha', Ledger.id_of_owner howner,
      (Ledger.type_of_owner howner).trans hescrow.type⟩, hzero⟩
  · have hnd : (winners.map (·.winner.entryId)).Nodup := by
      have hsubIds := hsub.map (·.entryId)
      rw [List.map_map] at hsubIds
      exact hsubIds.nodup (nodup_ranked hentries hranked)
    have hheld := prizeTotal_held hentries
    rw [prizeTotal_eq_sum] at hheld
    rw [hdb, prizeTotal_eq_sum, sum_award winners hnd (fun line hline =>
      unpaid_of_ranked hentries hranked (hsub.subset (List.mem_map_of_mem hline))), hheld, hlines,
      hsum, zero_add]
    rfl

/-- The prizes after a settlement are those after its payout. -/
theorem prizeTotal_distributed {db₁ : Db} (k : ℕ)
    (h : r.2.entries = (rankBatches snap.ranked).foldl settleEntries db₁.entries) :
    prizeTotal r.2 k = prizeTotal db₁ k := by
  rw [prizeTotal_eq_sum, h, sum_settle, prizeTotal_eq_sum]

/-- The settlement of the contest pays the pool, once. -/
theorem distribute_phase (hphase : pool.Phase db) (hid : snap.contest.id = pool.contest.id)
    (hknown : pool.Ranked snap) (h : distributeTx now snap db = .ok r) :
    pool.Phase r.2 := by
  have hranked := hknown.ranked
  obtain ⟨escrow, platform, db₁, he, _, hpay, _, hr⟩ := (distributeTx_ok_iff now snap db r).1 h
  have hledger : r.2.ledger = db₁.ledger := by rw [hr]
  have hentries : r.2.entries = (rankBatches snap.ranked).foldl settleEntries db₁.entries := by
    rw [hr]
  have hsettled : ∀ c, r.2.contests.find pool.contest.id = some c → c.status = .settled := by
    intro c hc
    rw [contests_distributed h, Table.find_update, hid] at hc
    obtain ⟨c₀, _, rfl⟩ := Option.map_eq_some_iff.1 hc
    rw [if_pos rfl]
  rw [hid] at he
  cases hphase with
  | held _ hescrow hcolumns =>
    rw [hescrow.found, Option.some.injEq] at he
    subst he
    have hclosed : activeIn (columnsIn r.2.entries pool.contest.id) = [] := by
      refine closed_of_distributed h (nodup_ranked hcolumns hranked) (fun e hactive => ?_)
      rw [hranked.mem_iff, ← hcolumns, activeIn_columns]
      exact List.mem_map_of_mem hactive
    rcases hpay with ⟨_, _, hpay⟩ | ⟨hskip, _⟩
    · obtain ⟨⟨a, ha, hzero⟩, htotal⟩ := payOut_pool hescrow hcolumns hknown hpay
      refine .paid hsettled ⟨a, ⟨?_, ha.id_eq, ha.type⟩, hzero⟩ hclosed ?_
      · rw [hledger]
        exact ha.found
      · rw [prizeTotal_distributed _ hentries, htotal]
    · refine absurd ⟨pool.pool_pos, fun hnil => ?_⟩ hskip
      rw [hnil] at hranked
      exact pool.entered hranked.nil_eq.symm
  | paid _ hescrow hclosed htotal =>
    obtain ⟨a, ha, hzero⟩ := hescrow
    rw [ha.found, Option.some.injEq] at he
    subst he
    rcases hpay with ⟨hpos, _, _⟩ | ⟨_, rfl⟩
    · omega
    · refine .paid hsettled ⟨a, ⟨?_, ha.id_eq, ha.type⟩, hzero⟩ ?_ ?_
      · rw [hledger]
        exact ha.found
      · exact closed_of_closes hclosed (closes_distributeTx h)
      · rw [prizeTotal_distributed _ hentries, htotal]

end Distribution

section Steps
variable {pool : Pool} {db : Db} {tick : Tick} {t : Task}

theorem template_of_distributeRead {drawHash : ℕ → ℕ → String} {contestId : ℕ}
    {snap : SettlementSnapshot} (h : distributeRead drawHash contestId db = some snap) :
    (db.payoutTemplates.find snap.contest.payoutTemplateId).map (·.structure_) =
      some snap.template := by
  unfold distributeRead at h
  simp only [Option.bind_eq_bind, Option.bind_eq_some_iff] at h
  obtain ⟨c, _, template, htemplate, hrest⟩ := h
  by_cases hs : c.status = .scored
  · rw [if_pos hs, Option.some.injEq] at hrest
    rw [← hrest, htemplate, Option.map_some]
  · rw [if_neg hs] at hrest
    cases hrest

/-- A scored contest still has its money, so its settlement reads the entries at the lock. -/
theorem ranked_of_distributeRead {drawHash : ℕ → ℕ → String} {contestId : ℕ}
    {snap : SettlementSnapshot} (hkept : pool.Kept db) (hphase : pool.Phase db)
    (h : distributeRead drawHash contestId db = some snap)
    (hid : snap.contest.id = pool.contest.id) : pool.Ranked snap := by
  have htemplate := template_of_distributeRead h
  obtain ⟨hfind, rfl, hscored, hperm⟩ := distributeRead_some h
  rw [hid] at hfind hperm
  obtain ⟨c, hc, hterms, _⟩ := hkept.contest
  rw [hfind, Option.some.injEq] at hc
  subst hc
  obtain ⟨_, _, hcommission, hpayout⟩ := columns_of_terms hterms
  refine ⟨hcommission, ?_, ?_⟩
  · rw [hpayout, hkept.template, Option.some.injEq] at htemplate
    exact htemplate.symm
  · cases hphase with
    | held _ _ hentries =>
      rw [← hentries, activeIn_columns]
      have hids := hperm.map (·.entryId)
      rwa [List.map_map] at hids
    | paid hsettled _ _ _ =>
      have hboth := hscored.symm.trans (hsettled snap.contest hfind)
      cases hboth

theorem step_of_failed {drawHash : ℕ → ℕ → String}
    (h : (action drawHash tick t db).isOk = false) : (step drawHash tick t db).1 = db := by
  rcases step_cases drawHash tick t db with ⟨next, db', hok, _⟩ | ⟨_, hs⟩
  · rw [hok] at h
    cases h
  · rw [hs]

/-- An undisturbed step is elsewhere, changes nothing, or is a settlement of the contest. -/
theorem Pool.Undisturbed.cases {drawHash : ℕ → ℕ → String}
    (h : pool.Undisturbed drawHash tick t db) :
    pool.Elsewhere t ∨ (step drawHash tick t db).1 = db ∨
      ∃ snap, t = .distributeTx snap ∧ snap.contest.id = pool.contest.id := by
  cases t with
  | distributeTx snap =>
    by_cases hid : snap.contest.id = pool.contest.id
    · exact Or.inr (Or.inr ⟨snap, rfl, hid⟩)
    · exact Or.inl hid
  | ready _ | settle _ _ | publishTx _ _ | submitTx _ | cancelTx _ _ | finalizeTx _ _ | scoring _ =>
    rcases h with helse | hfailed
    · exact Or.inl helse
    · exact Or.inr (Or.inl (step_of_failed hfailed))

theorem kept_step (drawHash : ℕ → ℕ → String) (hkept : pool.Kept db) (hk : Truthful db t)
    (hG : pool.Undisturbed drawHash tick t db) : pool.Kept (step drawHash tick t db).1 := by
  obtain ⟨c, hc, hterms, hrun⟩ := hkept.contest
  obtain ⟨c', hc', hterms'⟩ := (keeps_terms_step drawHash tick t).find hc
  have hkept' : c'.status ∈ running ∧
      (step drawHash tick t db).1.payoutTemplates = db.payoutTemplates := by
    rcases hG.cases with helse | hsame | ⟨snap, rfl, hid⟩
    · have hspared := spares_step drawHash tick hk helse
      obtain ⟨c'', hc'', hrun', _⟩ := hspared.status c hc hrun
      rw [Option.some.inj (hc'.symm.trans hc'')]
      exact ⟨hrun', hspared.templates⟩
    · rw [hsame] at hc' ⊢
      rw [Option.some.inj (hc'.symm.trans hc)]
      exact ⟨hrun, rfl⟩
    · rcases step_cases drawHash tick (.distributeTx snap) db with ⟨next, db', hok, hs⟩ | ⟨_, hs⟩
      · obtain ⟨_, _, hd⟩ := action_ok drawHash hok
        have hcontests : db'.contests = _ := contests_distributed hd
        rw [hs] at hc' ⊢
        rw [hcontests, Table.find_update, hc, Option.map_some, if_pos hid.symm,
          Option.some.injEq] at hc'
        exact ⟨by rw [← hc']; simp [running], templates_distributed hd⟩
      · rw [hs] at hc' ⊢
        rw [Option.some.inj (hc'.symm.trans hc)]
        exact ⟨hrun, rfl⟩
  refine ⟨⟨c', hc', hterms'.trans hterms, hkept'.1⟩, ?_⟩
  rw [hkept'.2]
  exact hkept.template

/-- A step elsewhere leaves the phase. -/
theorem phase_elsewhere (drawHash : ℕ → ℕ → String) (hkept : pool.Kept db) (hphase : pool.Phase db)
    (hk : Truthful db t) (helse : pool.Elsewhere t) :
    pool.Phase (step drawHash tick t db).1 := by
  have hspared := spares_step drawHash tick hk helse
  have hcolumns := hspared.columns
  obtain ⟨c, hc, _, hrun⟩ := hkept.contest
  obtain ⟨c', hc', _, hsame⟩ := hspared.status c hc hrun
  cases hphase with
  | held hopen hescrow hentries =>
    refine .held (fun c'' hc'' => ?_) (escrow_step drawHash tick hescrow hk helse)
      (hcolumns.trans hentries)
    rw [← Option.some.inj (hc'.symm.trans hc'')]
    exact fun hsettled => hopen c hc (hsame.1 hsettled)
  | paid hsettled hescrow hclosed htotal =>
    obtain ⟨a, ha, hzero⟩ := hescrow
    refine .paid (fun c'' hc'' => ?_) ⟨a, escrow_step drawHash tick ha hk helse, hzero⟩ ?_ ?_
    · rw [← Option.some.inj (hc'.symm.trans hc'')]
      exact hsame.2 (hsettled c hc)
    · rwa [hcolumns]
    · rw [prizeTotal_eq_columns, hcolumns, ← prizeTotal_eq_columns, htotal]

theorem phase_step (drawHash : ℕ → ℕ → String) (hkept : pool.Kept db) (hphase : pool.Phase db)
    (hinf : pool.Informed db t) (hG : pool.Undisturbed drawHash tick t db) :
    pool.Phase (step drawHash tick t db).1 := by
  rcases hG.cases with helse | hsame | ⟨snap, rfl, hid⟩
  · exact phase_elsewhere drawHash hkept hphase hinf.truthful helse
  · rwa [hsame]
  · rcases step_cases drawHash tick (.distributeTx snap) db with ⟨next, db', hok, hs⟩ | ⟨_, hs⟩
    · obtain ⟨_, _, hd⟩ := action_ok drawHash hok
      rw [hs]
      exact distribute_phase hphase hid (hinf.settlement snap rfl hid) hd
    · rwa [hs]

/-- The phases of the pool are an invariant of the protocol. -/
theorem inductive_pool (drawHash : ℕ → ℕ → String) (pool : Pool) :
    (protocol drawHash).Inductive (pool.Undisturbed drawHash)
      (fun db => pool.Kept db ∧ pool.Phase db) pool.Informed where
  init _ _ _ := ⟨trivial, by rintro _ ⟨⟩⟩
  shared _ _ _ hI hinf hG :=
    ⟨kept_step drawHash hI.1 hinf.truthful hG, phase_step drawHash hI.1 hI.2 hinf hG⟩
  cont tick t db t' hI _ _ ht' := by
    rcases step_next drawHash ht' with ⟨call, rfl, hdb, hprep⟩ | ⟨_, _, _, rfl⟩ | ⟨_, _, rfl⟩
    · have hdb' : ((protocol drawHash).step tick (.ready call) db).1 = db := hdb
      rw [hdb']
      refine ⟨truthful_of_prepared hprep, ?_⟩
      rintro snap rfl hid
      cases hprep with
      | distributeTx _ contestId hread => exact ranked_of_distributeRead hI.1 hI.2 hread hid
    · exact ⟨trivial, by rintro _ ⟨⟩⟩
    · exact ⟨trivial, by rintro _ ⟨⟩⟩
  stable tick t db u _ _ _ hu := ⟨truthful_step drawHash tick t hu.truthful, hu.settlement⟩

end Steps

section Runs
variable {pool : Pool} {db : Db} {c : Contest}

/-- Until the settlement the pool that is shown is the one in the escrow, and then it is zero. -/
theorem advertised_eq (hkept : pool.Kept db) (hphase : pool.Phase db)
    (hc : db.contests.find pool.contest.id = some c) :
    advertised db c = if c.status = .settled then 0 else pool.amount := by
  obtain ⟨c₀, hc₀, hterms, _⟩ := hkept.contest
  rw [hc, Option.some.injEq] at hc₀
  subst hc₀
  obtain ⟨hid, hfee, hcommission, _⟩ := columns_of_terms hterms
  have hcount : (activeEntries db pool.contest.id).length =
      (activeIn (columnsIn db.entries pool.contest.id)).length := by
    rw [activeIn_columns, List.length_map]
  unfold advertised
  rw [hid, hfee, hcommission, hcount]
  cases hphase with
  | held hopen _ hentries =>
    rw [if_neg (hopen c hc), hentries, ← pool.held]
    rfl
  | paid hsettled _ hclosed _ =>
    rw [if_pos (hsettled c hc), hclosed]
    simp [poolOf]

/-- Once the contest is settled its prizes are the pool. -/
theorem total_of_settled (hphase : pool.Phase db) (hc : db.contests.find pool.contest.id = some c)
    (hsettled : c.status = .settled) : prizeTotal db pool.contest.id = max pool.amount 0 := by
  cases hphase with
  | held hopen _ _ => exact absurd hsettled (hopen c hc)
  | paid _ _ _ htotal => exact htotal

/-- What is shown is what is paid exactly while the contest is not settled, or where the pool is
nothing. -/
theorem advertised_eq_total_iff (hkept : pool.Kept db) (hphase : pool.Phase db)
    (hc : db.contests.find pool.contest.id = some c) :
    advertised db c = max pool.amount 0 ↔
      (c.status ≠ .settled ∧ 0 ≤ pool.amount) ∨ (c.status = .settled ∧ pool.amount ≤ 0) := by
  rw [advertised_eq hkept hphase hc]
  by_cases hsettled : c.status = .settled
  · simp only [hsettled, if_true, ne_eq, not_true_eq_false, false_and, true_and, false_or]
    omega
  · simp only [hsettled, if_false, ne_eq, not_false_eq_true, true_and, false_and, or_false]
    omega

/-- At the lock the calls in flight have read truly, whatever run has led there. -/
theorem holds_at_lock {drawHash : ℕ → ℕ → String} {as : List (Act Call Tick)}
    {s : Config Db Task} (hlock : (protocol drawHash).run ⟨db, []⟩ as = s)
    (hstart : pool.Starts s.shared)
    (hnone : ∀ snap, .distributeTx snap ∈ s.pending → snap.contest.id ≠ pool.contest.id) :
    Protocol.Holds (fun db => pool.Kept db ∧ pool.Phase db) pool.Informed s := by
  have hany : (protocol drawHash).Along (fun _ _ _ => True) ⟨db, []⟩ as :=
    (protocol drawHash).along_of_forall (fun _ _ _ => trivial) _ as
  have htrue := (inductive_truthful drawHash).run ⟨trivial, by simp⟩ hany
  rw [hlock] at htrue
  refine ⟨Pool.starts_phase hstart, fun t ht => ⟨htrue.2 t ht, ?_⟩⟩
  rintro snap rfl hid
  exact absurd hid (hnone snap ht)

/-- In a run from the lock no entry is settled before its contest is. -/
theorem unsettled_of_run {drawHash : ℕ → ℕ → String} {as bs : List (Act Call Tick)}
    {s : Config Db Task} (hlock : (protocol drawHash).run ⟨db, []⟩ as = s)
    (hstart : pool.Starts s.shared)
    (hnone : ∀ snap, .distributeTx snap ∈ s.pending → snap.contest.id ≠ pool.contest.id)
    (hrun : (protocol drawHash).Along (pool.Undisturbed drawHash) s bs)
    (hc : ((protocol drawHash).run s bs).shared.contests.find pool.contest.id = some c)
    (hopen : c.status ≠ .settled) :
    ∀ e ∈ ((protocol drawHash).run s bs).shared.entries.rows, e.contestId = pool.contest.id →
      e.status ≠ .settled := by
  obtain ⟨_, hphase⟩ := ((inductive_pool drawHash pool).run (holds_at_lock hlock hstart hnone) hrun).1
  intro e he hcontest
  cases hphase with
  | held _ _ hentries =>
    have hmem : (e.id, e.status, e.prizeMinor) ∈ pool.entries := by
      rw [← hentries, mem_columnsIn]
      exact ⟨e, he, hcontest, rfl⟩
    exact (pool.unpaid _ hmem).1
  | paid hsettled _ _ _ => exact absurd (hsettled c hc) hopen

/-- From the lock on, the settlement of the scored contest leaves its leaderboard as it was. -/
theorem leaderboard_of_run {drawHash : ℕ → ℕ → String} (directory : Directory)
    {rows rows' rows'' : List Entry → List Entry} (hrows : Reorders rows) (hrows' : Reorders rows')
    (hrows'' : Reorders rows'') {as bs : List (Act Call Tick)} {s : Config Db Task}
    (hlock : (protocol drawHash).run ⟨db, []⟩ as = s) (hstart : pool.Starts s.shared)
    (hnone : ∀ snap, .distributeTx snap ∈ s.pending → snap.contest.id ≠ pool.contest.id)
    (hrun : (protocol drawHash).Along (pool.Undisturbed drawHash) s bs) {scored db' : Db}
    (hstate : ((protocol drawHash).run s bs).shared = scored) {now : DateTime} {slug : String}
    {template : PayoutTemplate} (hslug : findBySlug directory scored slug = some c)
    (hid : c.id = pool.contest.id) (hscored : c.status = .scored)
    (htemplate : scored.payoutTemplates.find c.payoutTemplateId = some template)
    (hdraws : DistinctDraws drawHash c.id ((activeEntries scored c.id).map rankable))
    (hdistribute : distribute drawHash rows now c.id scored = .ok (⟨⟩, db')) :
    ∃ payload payload', forContest directory drawHash none rows' slug scored = .ok (payload, scored) ∧
      forContest directory drawHash none rows'' slug db' = .ok (payload', db') ∧
      payload.entries.map LeaderboardRow.standing = payload'.entries.map LeaderboardRow.standing := by
  have hfind : ((protocol drawHash).run s bs).shared.contests.find pool.contest.id = some c := by
    rw [hstate, ← hid]
    exact find_of_slug hslug
  have hopen : c.status ≠ .settled := by
    rw [hscored]
    decide
  have hunsettled := unsettled_of_run hlock hstart hnone hrun hfind hopen
  rw [hstate, ← hid] at hunsettled
  have htx := distributeTx_of_distribute hrows hslug hscored htemplate hdraws hdistribute
  obtain ⟨_, _, _, hbefore, hafter, _, _, hsame⟩ :=
    boards_of_distributeTx hrows' hrows'' hslug hscored hunsettled hdraws htx
  exact ⟨_, _, hbefore, hafter, hsame⟩

/-- In every state that a contest goes through from its lock on, if it is settled in the end and
never cancelled, the page and the live push show the sum of the prizes that are paid exactly while
the contest is not settled, or where the pool is nothing. -/
theorem estimated_eq_paid_iff (drawHash : ℕ → ℕ → String) (directory : Directory)
    {as bs cs : List (Act Call Tick)} {s : Config Db Task}
    (hlock : (protocol drawHash).run ⟨db, []⟩ as = s) (hstart : pool.Starts s.shared)
    (hnone : ∀ snap, .distributeTx snap ∈ s.pending → snap.contest.id ≠ pool.contest.id)
    (hrun : (protocol drawHash).Along (pool.Undisturbed drawHash) s (bs ++ cs)) {final : Contest}
    (hfinal : ((protocol drawHash).run s (bs ++ cs)).shared.contests.find pool.contest.id =
      some final)
    (hsettled : final.status = .settled) :
    ∃ c, ((protocol drawHash).run s bs).shared.contests.find pool.contest.id = some c ∧
      c.status ∈ running ∧
      (∀ slug, findBySlug directory ((protocol drawHash).run s bs).shared slug = some c →
        ∃ page, getBySlug directory slug ((protocol drawHash).run s bs).shared =
          .ok (page, ((protocol drawHash).run s bs).shared) ∧
          (page.item.estimatedPrizePoolMinor =
              prizeTotal ((protocol drawHash).run s (bs ++ cs)).shared pool.contest.id ↔
            (c.status ≠ .settled ∧ 0 ≤ pool.amount) ∨
              (c.status = .settled ∧ pool.amount ≤ 0))) ∧
      ∀ type, ∃ key push,
        pushLive directory pool.contest.id type ((protocol drawHash).run s bs).shared =
          some (key, push) ∧
          (push.estimatedPrizePoolMinor =
              toString (prizeTotal ((protocol drawHash).run s (bs ++ cs)).shared
                pool.contest.id) ↔
            (c.status ≠ .settled ∧ 0 ≤ pool.amount) ∨
              (c.status = .settled ∧ pool.amount ≤ 0)) := by
  have hpool := inductive_pool drawHash pool
  have hholds := holds_at_lock hlock hstart hnone
  obtain ⟨_, hphase₂⟩ := (hpool.run hholds hrun).1
  rw [Protocol.along_append] at hrun
  obtain ⟨hkept₁, hphase₁⟩ := (hpool.run hholds hrun.1).1
  rw [total_of_settled hphase₂ hfinal hsettled]
  obtain ⟨c, hc, _, hrunning⟩ := hkept₁.contest
  have hiff := advertised_eq_total_iff hkept₁ hphase₁ hc
  refine ⟨c, hc, hrunning, fun slug hslug => ?_, fun type => ?_⟩
  · have hdraft : c.status ≠ .draft := by
      rintro heq
      rw [heq] at hrunning
      revert hrunning
      decide
    obtain ⟨page, hpage, hitem⟩ := getBySlug_shows directory hslug hdraft
    refine ⟨page, hpage, ?_⟩
    rw [hitem, ← hiff]
    rfl
  · obtain ⟨key, push, hpush, hshown⟩ := pushLive_shows directory hc type
    refine ⟨key, push, hpush, ?_⟩
    rw [hshown, ← hiff]
    exact Int.repr_inj

end Runs

section Sample

def lockedContest : Contest := { openContest 1 with status := .locked, lockedAt := some 100 }

/-- Two entries of 1000 at 15 percent commission, and one prize. -/
def stakedPool : Pool where
  contest := lockedContest
  escrow := ⟨4, .contestEscrow, none, some 1, "NGN", 2000⟩
  template := [⟨1, 1, 10000⟩]
  entries := [(0, .active, 0), (1, .active, 0)]
  locked := rfl
  escrow_type := rfl
  unpaid := by decide
  entered := by decide
  held := by decide
  pays_first := ⟨10000, by decide, by decide⟩

theorem starts_finalDb : stakedPool.Starts Lifecycle.finalDb where
  contest := by decide +kernel
  escrow := by decide +kernel
  template := by decide +kernel
  entries := by decide +kernel

/-- The settlement of the contest, once it is scored. -/
def payout : List (Act Call Tick) :=
  [.start (.distribute 1), .resume 0 Completion.atNoon, .resume 0 Completion.atNoon]

def noDraw : ℕ → ℕ → String := fun _ _ => ""

/-- The run from the lock to the scores, and the contest that it leaves. -/
def scoredDb : Db := ((protocol noDraw).run ⟨Lifecycle.finalDb, []⟩ Completion.fiveJobs).shared

def settledDb : Db :=
  ((protocol noDraw).run ⟨Lifecycle.finalDb, []⟩ (Completion.fiveJobs ++ payout)).shared

theorem undisturbed_payout : (protocol noDraw).Along (stakedPool.Undisturbed noDraw)
    ⟨Lifecycle.finalDb, []⟩ (Completion.fiveJobs ++ payout) := by decide +kernel

/-- Before the settlement the page and the push show the prizes of the settlement. -/
theorem estimated_eq_paid_iff_scored :
    (∃ page, getBySlug matchday "matchday-1" scoredDb = .ok (page, scoredDb) ∧
        page.item.estimatedPrizePoolMinor = prizeTotal settledDb 1) ∧
      ∃ key push, pushLive matchday 1 .poolUpdate scoredDb = some (key, push) ∧
        push.estimatedPrizePoolMinor = toString (prizeTotal settledDb 1) := by
  have hlock : (protocol noDraw).run ⟨Lifecycle.finalDb, []⟩ [] = ⟨Lifecycle.finalDb, []⟩ := rfl
  have hscoredDb : ((protocol noDraw).run ⟨Lifecycle.finalDb, []⟩ Completion.fiveJobs).shared =
      scoredDb := rfl
  have hsettledDb : ((protocol noDraw).run ⟨Lifecycle.finalDb, []⟩
      (Completion.fiveJobs ++ payout)).shared = settledDb := rfl
  obtain ⟨final, hfinal, hsettled⟩ : ∃ final ∈ settledDb.contests.find stakedPool.contest.id,
      final.status = .settled := by decide +kernel
  obtain ⟨c, hc, hshown, hscored⟩ : ∃ c ∈ scoredDb.contests.find stakedPool.contest.id,
      findBySlug matchday scoredDb "matchday-1" = some c ∧ c.status = .scored := by decide +kernel
  rw [Option.mem_def, ← hsettledDb] at hfinal
  obtain ⟨c', hc', _, hpages, hpushes⟩ := @estimated_eq_paid_iff stakedPool Lifecycle.finalDb
    noDraw matchday [] Completion.fiveJobs payout ⟨Lifecycle.finalDb, []⟩ hlock starts_finalDb
    (by simp) undisturbed_payout final hfinal hsettled
  rw [hscoredDb] at hc' hpages hpushes
  rw [hsettledDb] at hpages hpushes
  rw [Option.mem_def, hc', Option.some.injEq] at hc
  subst hc
  have hagrees : (c'.status ≠ .settled ∧ 0 ≤ stakedPool.amount) ∨
      (c'.status = .settled ∧ stakedPool.amount ≤ 0) := by
    rw [hscored]
    decide
  obtain ⟨page, hpage, hiff⟩ := hpages "matchday-1" hshown
  obtain ⟨key, push, hpush, hiff'⟩ := hpushes .poolUpdate
  exact ⟨⟨page, hpage, hiff.2 hagrees⟩, key, push, hpush, hiff'.2 hagrees⟩

/-- After it they show nothing, although 1700 have been paid. -/
theorem estimated_ne_paid_settled :
    stakedPool.Starts Lifecycle.finalDb ∧
      (protocol noDraw).Along (stakedPool.Undisturbed noDraw) ⟨Lifecycle.finalDb, []⟩
        (Completion.fiveJobs ++ payout) ∧
      prizeTotal settledDb 1 = 1700 ∧
      (∃ page, getBySlug matchday "matchday-1" settledDb = .ok (page, settledDb) ∧
        page.item.status = .settled ∧ page.item.estimatedPrizePoolMinor = 0) ∧
      ∃ key push, pushLive matchday 1 .poolUpdate settledDb = some (key, push) ∧
        push.estimatedPrizePoolMinor = "0" := by
  obtain ⟨c, hc, hslug, hsettled, hzero⟩ : ∃ c ∈ settledDb.contests.find 1,
      findBySlug matchday settledDb "matchday-1" = some c ∧ c.status = .settled ∧
        advertised settledDb c = 0 := by decide +kernel
  refine ⟨starts_finalDb, undisturbed_payout, by decide +kernel, ?_, ?_⟩
  · obtain ⟨page, hpage, hitem⟩ := getBySlug_shows matchday hslug (by rw [hsettled]; decide)
    exact ⟨page, hpage, hitem ▸ hsettled, hitem ▸ hzero⟩
  · obtain ⟨key, push, hpush, hshown⟩ := pushLive_shows matchday hc .poolUpdate
    exact ⟨key, push, hpush, by rw [hshown, hzero]; rfl⟩

end Sample

end PrizePool
end FootballIQ
