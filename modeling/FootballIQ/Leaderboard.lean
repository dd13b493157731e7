import FootballIQ.Conservation
import FootballIQ.FinalRanks

/-!
# Live and settled leaderboards

A live contest is ranked on the fly, a settled one by the ranks that the settlement stored.
Both show the same entries in the same order with the same ranks.
-/

namespace FootballIQ
namespace Leaderboard

open Transaction Relational Interleaving Contests Ranking Settlement Platform

section Service

structure Profile where
  username : String
  avatarUrl : Option String
  deriving DecidableEq

/-- The slug of each contest and the profile of each user; no transaction writes them. -/
structure Directory where
  slug : ℕ → String
  profile : ℕ → Profile

structure LeaderboardRow where
  rank : Option ℕ
  username : String
  avatarUrl : Option String
  points : String
  pointsX10 : ℕ
  correctCount : ℕ
  prizeMinor : Option String
  deriving DecidableEq

structure Payload where
  contestId : ℕ
  slug : String
  title : String
  status : ContestStatus
  entries : List LeaderboardRow
  deriving DecidableEq

/-- Render an X10 value for display: 325 is "32.5", 100 is "10". -/
def formatPoints (pointsX10 : ℕ) : String :=
  if pointsX10 % 10 = 0 then toString (pointsX10 / 10)
  else s!"{pointsX10 / 10}.{pointsX10 % 10}"

example : formatPoints 325 = "32.5" := by decide

variable (directory : Directory) (drawHash : ℕ → ℕ → String)

def findBySlug (db : Db) (slug : String) : Option Contest :=
  db.contests.findFirst (fun c => directory.slug c.id = slug ∧ c.deletedAt = none)

/-- The entries that the leaderboard reads. -/
def shownEntries (db : Db) (contestId : ℕ) : List Entry :=
  db.entries.findMany (fun e => e.contestId = contestId ∧ (e.status = .active ∨ e.status = .settled))

/-- By the stored ranks, where a missing one counts as zero. -/
def byFinalRank (entries : List Entry) : List Entry :=
  entries.insertionSort (fun a b => compare (a.finalRank.getD 0) (b.finalRank.getD 0) ≠ .gt)

/-- By the comparator of the settlement; each ranked row is looked up again by its id. -/
def byRanking (contestId : ℕ) (entries : List Entry) : Option (List Entry) :=
  (rankEntries drawHash contestId (entries.map rankable)).mapM
    (fun r => entries.find? (fun e => e.id = r.entryId))

/-- The contest and its entries in the order shown, from rows that the database returns in an
order of its own. -/
def standings (rows : List Entry → List Entry) (slug : String) :
    Tx Failure Db (Contest × List Entry) := do
  let db ← get
  let contest ← orThrow (findBySlug directory db slug) (.notFound "CONTEST_NOT_FOUND" none)
  throwIf (contest.status = .draft) (.notFound "CONTEST_NOT_FOUND" none)
  let entries := rows (shownEntries db contest.id)
  let ordered ← orThrow
    (if contest.status = .settled then some (byFinalRank entries)
      else byRanking drawHash contest.id entries)
    (.error "Cannot read properties of undefined (reading 'user')")
  return (contest, ordered)

def toRow (settled : Bool) (e : Entry) (i : ℕ) : LeaderboardRow where
  rank := if settled then e.finalRank else some (i + 1)
  username := (directory.profile e.userId).username
  avatarUrl := (directory.profile e.userId).avatarUrl
  points := formatPoints e.totalPointsX10
  pointsX10 := e.totalPointsX10
  correctCount := e.correctCount
  prizeMinor := if settled then some (toString e.prizeMinor) else none

def toPayload (contest : Contest) (ordered : List Entry) : Payload where
  contestId := contest.id
  slug := directory.slug contest.id
  title := contest.title
  status := contest.status
  entries := ordered.zipIdx.map (fun p => toRow directory (contest.status = .settled) p.1 p.2)

/-- What is cached is served as it is; otherwise what is served is also cached. -/
def forContest (cached : Option Payload) (rows : List Entry → List Entry) (slug : String) :
    Tx Failure Db Payload :=
  match cached with
  | some payload => return payload
  | none => do
    let (contest, ordered) ← standings directory drawHash rows slug
    return toPayload directory contest ordered

end Service

section Distribution
variable (drawHash : ℕ → ℕ → String) (rows : List Entry → List Entry)

/-- The read step of the settlement, with the rows in the order that the database returns. -/
def distributeReadRows (contestId : ℕ) (db : Db) : Option SettlementSnapshot := do
  let contest ← db.contests.find contestId
  let template ← db.payoutTemplates.find contest.payoutTemplateId
  if contest.status = .scored then
    some ⟨contest, template.structure_,
      rankEntries drawHash contestId ((rows (activeEntries db contestId)).map rankable)⟩
  else none

/-- The whole call: a contest that is not scored is skipped. -/
def distribute (now : DateTime) (contestId : ℕ) : Tx Failure Db PUnit := do
  let db ← get
  match distributeReadRows drawHash rows contestId db with
  | some snap => distributeTx now snap
  | none => return ⟨⟩

end Distribution

/-- A row order of the database: the same rows, in any order. -/
def Reorders (rows : List Entry → List Entry) : Prop := ∀ es, (rows es).Perm es

section Reading
variable {directory : Directory} {drawHash : ℕ → ℕ → String} {rows : List Entry → List Entry}
  {contestId : ℕ} {db : Db}

/-- Every ranked row finds its entry again. -/
theorem mapM_find {es : List Entry} (hnd : (es.map (·.id)).Nodup) (ranked : List RankableEntry)
    (hmem : ∀ r ∈ ranked, ∃ e ∈ es, rankable e = r) :
    ∃ ordered, ranked.mapM (fun r => es.find? (fun e => e.id = r.entryId)) = some ordered ∧
      ordered.map rankable = ranked ∧ ∀ e ∈ ordered, e ∈ es := by
  induction ranked with
  | nil => exact ⟨[], rfl, rfl, by simp⟩
  | cons r ranked ih =>
    obtain ⟨e, he, rfl⟩ := hmem _ List.mem_cons_self
    obtain ⟨ordered, hordered, hmap, hall⟩ := ih (fun r hr => hmem r (List.mem_cons_of_mem _ hr))
    have hfind : es.find? (fun e' => e'.id = (rankable e).entryId) = some e :=
      find?_of_nodup hnd he
    refine ⟨e :: ordered, ?_, ?_, ?_⟩
    · rw [List.mapM_cons, hfind, hordered]
      rfl
    · rw [List.map_cons, hmap]
    · intro x hx
      rcases List.mem_cons.1 hx with rfl | hx
      · exact he
      · exact hall x hx

/-- Sorting by the stored ranks undoes any row order. -/
theorem byFinalRank_eq {es ordered : List Entry} (hp : ordered.Perm es)
    (hranks : ordered.map (fun e => e.finalRank.getD 0) = List.range' 1 ordered.length) :
    byFinalRank es = ordered := by
  have hkey : KeyOrder.ComparesBy
      (fun a b : Entry => compare (a.finalRank.getD 0) (b.finalRank.getD 0))
      (fun e => e.finalRank.getD 0) := fun _ _ => rfl
  apply KeyOrder.sort_eq_of_pairwise hkey _ hp
  · have hsorted : (ordered.map (fun e => e.finalRank.getD 0)).Pairwise (· ≤ ·) := by
      rw [hranks]
      exact List.pairwise_le_range'
    exact List.pairwise_map.1 hsorted
  · rw [← (hp.map _).nodup_iff, hranks]
    exact List.nodup_range'

theorem distributeReadRows_eq (hrows : Reorders rows)
    (hdraws : DistinctDraws drawHash contestId ((activeEntries db contestId).map rankable)) :
    distributeReadRows drawHash rows contestId db = distributeRead drawHash contestId db := by
  unfold distributeReadRows distributeRead
  rw [rankEntries_eq_of_perm hdraws ((hrows _).map rankable)]

/-- Run alone on the platform, the settlement is its read and its transaction. -/
theorem run_distribute_alone (tick tick' : Tick) (hrows : Reorders rows)
    (hdraws : DistinctDraws drawHash contestId ((activeEntries db contestId).map rankable)) :
    ((protocol drawHash).run ⟨db, []⟩
      [.start (.distribute contestId), .resume 0 tick, .resume 0 tick']).shared =
      commit (distribute drawHash rows tick'.now contestId) db := by
  have hcall : distribute drawHash rows tick'.now contestId db =
      (match distributeRead drawHash contestId db with
        | some snap => distributeTx tick'.now snap
        | none => pure ⟨⟩ : Tx Failure Db PUnit) db := by
    rw [← distributeReadRows_eq hrows hdraws]
    rfl
  have hfirst : step drawHash tick (.ready (.distribute contestId)) db =
      (db, (distributeRead drawHash contestId db).map .distributeTx) := rfl
  have hcommit : commit (distribute drawHash rows tick'.now contestId) db = commit
      (match distributeRead drawHash contestId db with
        | some snap => distributeTx tick'.now snap
        | none => pure ⟨⟩ : Tx Failure Db PUnit) db := by
    unfold commit
    rw [hcall]
  rw [hcommit]
  cases hread : distributeRead drawHash contestId db with
  | none =>
    have hskipped : commit (pure ⟨⟩ : Tx Failure Db PUnit) db = db := rfl
    rw [hread] at hfirst
    simp [Protocol.run, Protocol.next, protocol, hfirst, hskipped]
  | some snap =>
    have hsecond := step_of_action drawHash (t := .distributeTx snap)
      (distributeTx tick'.now snap) rfl rfl db
    rw [hread] at hfirst
    simp [Protocol.run, Protocol.next, protocol, hfirst, hsecond]

end Reading

/-- A row without its prize, which only a settled contest shows. -/
def LeaderboardRow.standing (row : LeaderboardRow) : LeaderboardRow := { row with prizeMinor := none }

section Serving
variable {directory : Directory} {drawHash : ℕ → ℕ → String} {rows : List Entry → List Entry}
  {slug : String} {c : Contest} {db : Db}

theorem find_of_slug (hslug : findBySlug directory db slug = some c) :
    db.contests.find c.id = some c :=
  db.contests.find_id (db.contests.findFirst_eq_some hslug).1

theorem mem_shownEntries {contestId : ℕ} {e : Entry} : e ∈ shownEntries db contestId ↔
    e ∈ db.entries.rows ∧ e.contestId = contestId ∧ (e.status = .active ∨ e.status = .settled) :=
  Table.mem_findMany _ _ _

theorem ids_shownEntries (db : Db) (contestId : ℕ) :
    ((shownEntries db contestId).map (·.id)).Nodup :=
  (List.filter_sublist.map Entry.id).nodup db.entries.nodup_ids

theorem forContest_of_standings {ordered : List Entry}
    (h : standings directory drawHash rows slug db = .ok ((c, ordered), db)) :
    forContest directory drawHash none rows slug db = .ok (toPayload directory c ordered, db) := by
  unfold forContest
  exact bind_of_ok h

/-- Before its settlement a contest shows the ranking. -/
theorem standings_live (hrows : Reorders rows) (hslug : findBySlug directory db slug = some c)
    (hscored : c.status = .scored)
    (hunsettled : ∀ e ∈ db.entries.rows, e.contestId = c.id → e.status ≠ .settled)
    (hdraws : DistinctDraws drawHash c.id ((activeEntries db c.id).map rankable)) :
    ∃ ordered, standings directory drawHash rows slug db = .ok ((c, ordered), db) ∧
      ordered.map rankable = ranking drawHash c.id db ∧ ∀ e ∈ ordered, e ∈ activeEntries db c.id := by
  have hshown : shownEntries db c.id = activeEntries db c.id := by
    apply List.filter_congr
    intro e he
    by_cases hcontest : e.contestId = c.id
    · simp [hcontest, hunsettled e he hcontest]
    · simp [hcontest]
  have hperm : (rows (activeEntries db c.id)).Perm (activeEntries db c.id) := hrows _
  have hnd : ((rows (activeEntries db c.id)).map (·.id)).Nodup := by
    rw [(hperm.map _).nodup_iff, ← hshown]
    exact ids_shownEntries db c.id
  obtain ⟨ordered, hordered, hmap, hall⟩ := mapM_find hnd (ranking drawHash c.id db) (by
    intro q hq
    obtain ⟨e, he, hrank⟩ := mem_ranking.1 hq
    exact ⟨e, hperm.mem_iff.2 he, hrank⟩)
  refine ⟨ordered, ?_, hmap, fun e he => hperm.mem_iff.1 (hall e he)⟩
  simp only [standings, bind_ok_iff, get_ok_iff, orThrow_ok_iff, throwIf_ok_iff, pure_ok_iff]
  refine ⟨db, db, ⟨rfl, rfl⟩, c, db, ⟨hslug, rfl⟩, ⟨⟩, db, ⟨by simp [hscored], rfl⟩, ordered, db,
    ⟨?_, rfl⟩, rfl, rfl⟩
  rw [if_neg (by simp [hscored]), byRanking, hshown,
    rankEntries_eq_of_perm hdraws (hperm.map rankable)]
  exact hordered

/-- A settled contest shows its entries by their stored ranks. -/
theorem standings_settled {ordered : List Entry} (hrows : Reorders rows)
    (hslug : findBySlug directory db slug = some c) (hsettled : c.status = .settled)
    (hp : ordered.Perm (shownEntries db c.id))
    (hranks : ordered.map (fun e => e.finalRank.getD 0) = List.range' 1 ordered.length) :
    standings directory drawHash rows slug db = .ok ((c, ordered), db) := by
  simp only [standings, bind_ok_iff, get_ok_iff, orThrow_ok_iff, throwIf_ok_iff, pure_ok_iff]
  refine ⟨db, db, ⟨rfl, rfl⟩, c, db, ⟨hslug, rfl⟩, ⟨⟩, db, ⟨by simp [hsettled], rfl⟩, ordered, db,
    ⟨?_, rfl⟩, rfl, rfl⟩
  rw [if_pos hsettled, byFinalRank_eq (hp.trans (hrows _).symm) hranks]

end Serving

section Settled
variable {directory : Directory} {drawHash : ℕ → ℕ → String} {now : DateTime}
  {snap : SettlementSnapshot} {slug : String} {c : Contest} {db : Db} {r : PUnit × Db}

/-- A settlement that has read the contest at any time settles the contest that the slug names. -/
theorem findBySlug_distributed (h : distributeTx now snap db = .ok r)
    (hslug : findBySlug directory db slug = some c) (hid : snap.contest.id = c.id) :
    findBySlug directory r.2 slug = some { c with status := .settled, settledAt := some now } := by
  have hcontests := contests_distributed h
  have hsame : Table.Same (fun c : Contest => (c.id, c.deletedAt)) db.contests r.2.contests := by
    rw [hcontests]
    exact Table.same_update (by intro c; rfl) (fun _ _ _ => rfl)
  have hfirst := hsame.findFirst (fun c => directory.slug c.id = slug ∧ c.deletedAt = none) (by
    intro c c' heq
    obtain ⟨hids, hdeleted⟩ := Prod.mk.inj heq
    rw [hids, hdeleted])
  rw [show db.contests.findFirst _ = some c from hslug, Option.map_some,
    Option.map_eq_some_iff] at hfirst
  obtain ⟨c', hc', heq⟩ := hfirst
  obtain ⟨hids, _⟩ := Prod.mk.inj heq
  have hfound : r.2.contests.find c.id = some c' :=
    (Table.find_eq_some_iff _ _ _).2 ⟨(r.2.contests.findFirst_eq_some hc').1, hids⟩
  rw [hcontests, hid, Table.find_update_self _ _ (by intro c; rfl) (find_of_slug hslug)] at hfound
  exact hc'.trans hfound.symm

/-- An entry as the settlement leaves it. -/
def settledAt (prize : ℤ) (rank : ℕ) (e : Entry) : Entry :=
  { e with prizeMinor := prize, finalRank := some rank, status := .settled }

/-- The same entries in the same order, settled at their positions. -/
def SettledInOrder (ordered ordered' : List Entry) : Prop :=
  ∀ i, ∃ prize, ordered'[i]? = ordered[i]?.map (settledAt prize (i + 1))

/-- Each entry of the ranking is there with its position after the settlement. -/
theorem settled_of_ordered (h : distributeTx now snap db = .ok r)
    (hranked : snap.ranked = ranking drawHash c.id db) {ordered : List Entry}
    (hmap : ordered.map rankable = ranking drawHash c.id db)
    (hactive : ∀ e ∈ ordered, e ∈ activeEntries db c.id) {i : ℕ} {e : Entry}
    (hi : ordered[i]? = some e) :
    ∃ prize, r.2.entries.find e.id = some (settledAt prize (i + 1) e) := by
  have hnd : (snap.ranked.map (·.entryId)).Nodup := by
    rw [hranked]
    exact nodup_ranking
  have hq : snap.ranked[i]? = some (rankable e) := by
    rw [hranked, ← hmap, List.getElem?_map, hi, Option.map_some]
  exact find_ranked h hnd hq (find_of_active (hactive e (List.mem_of_getElem? hi)))

/-- What is shown after the settlement was ranked: an entry that was not ranked was refunded
before, and still is. -/
theorem ranked_of_shown (h : distributeTx now snap db = .ok r)
    (hranked : snap.ranked = ranking drawHash c.id db)
    (hunsettled : ∀ e ∈ db.entries.rows, e.contestId = c.id → e.status ≠ .settled) {x : Entry}
    (hx : x ∈ shownEntries r.2 c.id) : x.id ∈ (ranking drawHash c.id db).map (·.entryId) := by
  obtain ⟨hmem', hcontest', hstatus'⟩ := mem_shownEntries.1 hx
  by_contra hin
  obtain ⟨e, hmem, hid, hcontest, hstatus⟩ := unranked_before h hmem' (hranked ▸ hin)
  rw [← hcontest] at hcontest'
  rw [← hstatus] at hstatus'
  have hon : e ∈ activeEntries db c.id :=
    mem_activeEntries.2 ⟨hmem, hcontest', hstatus'.resolve_right (hunsettled e hmem hcontest')⟩
  rw [← hid] at hin
  exact hin (List.mem_map_of_mem (mem_ranking.2 ⟨e, hon, rfl⟩))

/-- The entries as they are in a later state. -/
def refetched (db : Db) (es : List Entry) : List Entry :=
  es.map (fun e => (db.entries.find e.id).getD e)

/-- After the settlement the ranked entries are there with their positions, and no others. -/
theorem ordered_after (h : distributeTx now snap db = .ok r)
    (hranked : snap.ranked = ranking drawHash c.id db)
    (hunsettled : ∀ e ∈ db.entries.rows, e.contestId = c.id → e.status ≠ .settled)
    {ordered : List Entry} (hmap : ordered.map rankable = ranking drawHash c.id db)
    (hactive : ∀ e ∈ ordered, e ∈ activeEntries db c.id) :
    ∃ ordered' : List Entry, ordered'.Perm (shownEntries r.2 c.id) ∧
      SettledInOrder ordered ordered' := by
  have hat : ∀ e ∈ ordered, ∃ (i : ℕ) (prize : ℤ),
      r.2.entries.find e.id = some (settledAt prize (i + 1) e) := by
    intro e he
    obtain ⟨i, hi⟩ := List.mem_iff_getElem?.1 he
    exact ⟨i, settled_of_ordered h hranked hmap hactive hi⟩
  have hordered : ordered.map (·.id) = (ranking drawHash c.id db).map (·.entryId) := by
    rw [← hmap, List.map_map]
    rfl
  have hids : ((refetched r.2 ordered).map (·.id)).Nodup := by
    have heq : (refetched r.2 ordered).map (·.id) = ordered.map (·.id) := by
      rw [refetched, List.map_map]
      apply List.map_congr_left
      intro e he
      obtain ⟨i, prize, hfind⟩ := hat e he
      simp only [Function.comp_apply, hfind, Option.getD_some, settledAt]
    rw [heq, hordered]
    exact nodup_ranking
  refine ⟨refetched r.2 ordered, ?_, fun i => ?_⟩
  · rw [List.perm_ext_iff_of_nodup (List.Nodup.of_map _ hids)
      (List.Nodup.of_map _ (ids_shownEntries r.2 c.id))]
    intro x
    constructor
    · intro hx
      obtain ⟨e, he, rfl⟩ := List.mem_map.1 hx
      obtain ⟨i, prize, hfind⟩ := hat e he
      obtain ⟨_, hcontest, _⟩ := mem_activeEntries.1 (hactive e he)
      rw [hfind, Option.getD_some]
      exact mem_shownEntries.2 ⟨((Table.find_eq_some_iff _ _ _).1 hfind).1, hcontest, Or.inr rfl⟩
    · intro hx
      have hin := ranked_of_shown h hranked hunsettled hx
      rw [← hordered] at hin
      obtain ⟨e, he, hid⟩ := List.mem_map.1 hin
      have hfound : r.2.entries.find x.id = some x :=
        r.2.entries.find_id (mem_shownEntries.1 hx).1
      refine List.mem_map.2 ⟨e, he, ?_⟩
      rw [hid, hfound, Option.getD_some]
  · rw [refetched, List.getElem?_map]
    cases hi : ordered[i]? with
    | none => exact ⟨0, rfl⟩
    | some e =>
      obtain ⟨prize, hfind⟩ := settled_of_ordered h hranked hmap hactive hi
      exact ⟨prize, by rw [Option.map_some, hfind, Option.getD_some, Option.map_some]⟩

/-- What a settlement that commits leaves for the leaderboard. -/
theorem standings_after {rows : List Entry → List Entry} (hrows : Reorders rows)
    (h : distributeTx now snap db = .ok r) (hc : snap.contest = c)
    (hranked : snap.ranked = ranking drawHash c.id db)
    (hslug : findBySlug directory db slug = some c)
    (hunsettled : ∀ e ∈ db.entries.rows, e.contestId = c.id → e.status ≠ .settled)
    {ordered : List Entry} (hmap : ordered.map rankable = ranking drawHash c.id db)
    (hactive : ∀ e ∈ ordered, e ∈ activeEntries db c.id) :
    ∃ ordered' : List Entry, standings directory drawHash rows slug r.2 =
        .ok (({ c with status := .settled, settledAt := some now }, ordered'), r.2) ∧
      SettledInOrder ordered ordered' := by
  obtain ⟨ordered', hperm, hget⟩ := ordered_after h hranked hunsettled hmap hactive
  refine ⟨ordered', ?_, hget⟩
  refine standings_settled hrows (findBySlug_distributed h hslug (congrArg Contest.id hc)) rfl hperm ?_
  apply List.ext_getElem?
  intro i
  obtain ⟨prize, hi⟩ := hget i
  rw [List.getElem?_map]
  by_cases hlt : i < ordered'.length
  · rw [List.getElem?_eq_getElem hlt, eq_comm, Option.map_eq_some_iff] at hi
    obtain ⟨e, _, he⟩ := hi
    rw [List.getElem?_eq_getElem hlt, List.getElem?_range' hlt, ← he, Option.map_some]
    simp [settledAt, add_comm]
  · rw [List.getElem?_eq_none (by omega), List.getElem?_eq_none (by simp; omega), Option.map_none]

/-- A distribution that commits has read the contest with its ranking. -/
theorem distributeTx_of_distribute {rows : List Entry → List Entry} (hrows : Reorders rows)
    {template : PayoutTemplate} {db' : Db} (hslug : findBySlug directory db slug = some c)
    (hscored : c.status = .scored)
    (htemplate : db.payoutTemplates.find c.payoutTemplateId = some template)
    (hdraws : DistinctDraws drawHash c.id ((activeEntries db c.id).map rankable))
    (hrun : distribute drawHash rows now c.id db = .ok (⟨⟩, db')) :
    distributeTx now ⟨c, template.structure_, ranking drawHash c.id db⟩ db = .ok (⟨⟩, db') := by
  have hread : distributeReadRows drawHash rows c.id db =
      some ⟨c, template.structure_, ranking drawHash c.id db⟩ := by
    rw [distributeReadRows_eq hrows hdraws]
    simp [distributeRead, find_of_slug hslug, htemplate, hscored, ranking]
  unfold distribute at hrun
  simp only [bind_ok_iff, get_ok_iff] at hrun
  obtain ⟨_, _, ⟨rfl, rfl⟩, hrun⟩ := hrun
  rwa [hread] at hrun

/-- The ranks that a settlement stores are those of the ranking, from one on. -/
theorem numbers_of_distributeTx {template : List PayoutRow} {db' : Db}
    (htx : distributeTx now ⟨c, template, ranking drawHash c.id db⟩ db = .ok (⟨⟩, db')) :
    Numbers (ranking drawHash c.id db) db' := by
  apply numbers_of_kth
  intro i q hi
  obtain ⟨e, _, _, he⟩ := find_of_mem_ranking (List.mem_of_getElem? hi)
  obtain ⟨prize, hfind⟩ := find_ranked htx nodup_ranking hi he
  rw [finalRankOf, hfind]
  rfl

/-- A settlement changes neither the order nor the standings that the leaderboard shows. -/
theorem boards_of_distributeTx {rows rows' : List Entry → List Entry} (hrows : Reorders rows)
    (hrows' : Reorders rows') {template : List PayoutRow} {db' : Db}
    (hslug : findBySlug directory db slug = some c) (hscored : c.status = .scored)
    (hunsettled : ∀ e ∈ db.entries.rows, e.contestId = c.id → e.status ≠ .settled)
    (hdraws : DistinctDraws drawHash c.id ((activeEntries db c.id).map rankable))
    (htx : distributeTx now ⟨c, template, ranking drawHash c.id db⟩ db = .ok (⟨⟩, db')) :
    ∃ ordered ordered' : List Entry, ∃ c' : Contest,
      forContest directory drawHash none rows slug db = .ok (toPayload directory c ordered, db) ∧
      forContest directory drawHash none rows' slug db' =
        .ok (toPayload directory c' ordered', db') ∧
      ordered.map (·.id) = (ranking drawHash c.id db).map (·.entryId) ∧
      ordered'.map (·.id) = (ranking drawHash c.id db).map (·.entryId) ∧
      (toPayload directory c ordered).entries.map LeaderboardRow.standing =
        (toPayload directory c' ordered').entries.map LeaderboardRow.standing := by
  obtain ⟨ordered, hlive, hmap, hactive⟩ :=
    standings_live hrows hslug hscored hunsettled hdraws
  obtain ⟨ordered', hafter, hget⟩ :=
    standings_after hrows' htx rfl rfl hslug hunsettled hmap hactive
  have hids : ordered.map (·.id) = (ranking drawHash c.id db).map (·.entryId) := by
    rw [← hmap, List.map_map]
    rfl
  refine ⟨ordered, ordered', _, forContest_of_standings hlive, forContest_of_standings hafter,
    hids, ?_, ?_⟩
  · rw [← hids]
    apply List.ext_getElem?
    intro i
    obtain ⟨prize, hi⟩ := hget i
    rw [List.getElem?_map, List.getElem?_map, hi, Option.map_map]
    rfl
  · apply List.ext_getElem?
    intro i
    obtain ⟨prize, hi⟩ := hget i
    simp only [toPayload, List.map_map, List.getElem?_map, List.getElem?_zipIdx, hi]
    cases ordered[i]? with
    | none => rfl
    | some e => simp [LeaderboardRow.standing, toRow, settledAt, hscored]

end Settled

/-- Before and after a settlement that commits, the leaderboard shows the entries of the ranking
with the ranks from one on; the settlement has stored these ranks, whatever the number of
entries and the orders in which the database returned them. -/
theorem forContest_distribute (directory : Directory) (drawHash : ℕ → ℕ → String)
    {rows rows' rows'' : List Entry → List Entry} (hrows : Reorders rows) (hrows' : Reorders rows')
    (hrows'' : Reorders rows'') {now : DateTime} {slug : String} {c : Contest}
    {template : PayoutTemplate} {db db' : Db} (hslug : findBySlug directory db slug = some c)
    (hscored : c.status = .scored)
    (htemplate : db.payoutTemplates.find c.payoutTemplateId = some template)
    (hunsettled : ∀ e ∈ db.entries.rows, e.contestId = c.id → e.status ≠ .settled)
    (hdraws : DistinctDraws drawHash c.id ((activeEntries db c.id).map rankable))
    (hrun : distribute drawHash rows now c.id db = .ok (⟨⟩, db')) :
    Numbers (ranking drawHash c.id db) db' ∧
      ∃ ordered ordered' : List Entry, ∃ c' : Contest,
        forContest directory drawHash none rows' slug db = .ok (toPayload directory c ordered, db) ∧
        forContest directory drawHash none rows'' slug db' =
          .ok (toPayload directory c' ordered', db') ∧
        ordered.map (·.id) = (ranking drawHash c.id db).map (·.entryId) ∧
        ordered'.map (·.id) = (ranking drawHash c.id db).map (·.entryId) ∧
        (toPayload directory c ordered).entries.map LeaderboardRow.standing =
          (toPayload directory c' ordered').entries.map LeaderboardRow.standing := by
  have htx := distributeTx_of_distribute hrows hslug hscored htemplate hdraws hrun
  exact ⟨numbers_of_distributeTx htx,
    boards_of_distributeTx hrows' hrows'' hslug hscored hunsettled hdraws htx⟩

section Sample

def matchday : Directory where
  slug id := "matchday-" ++ toString id
  profile id := ⟨"user" ++ toString id, none⟩

/-- Two entries, which the settlement and the later read get in reverse order. -/
theorem forContest_distribute_reversed : ∃ db',
    distribute (fun _ id => toString id) List.reverse 100 1 scoredDb = .ok (⟨⟩, db') ∧
      Numbers (ranking (fun _ id => toString id) 1 scoredDb) db' := by
  have hcommits : (distribute (fun _ id => toString id) List.reverse 100 1 scoredDb).isOk := by
    decide +kernel
  cases hrun : distribute (fun _ id => toString id) List.reverse 100 1 scoredDb with
  | error e =>
    rw [hrun] at hcommits
    cases hcommits
  | ok r =>
    have hslug : findBySlug matchday scoredDb "matchday-1" = some scoredContest := by decide
    have htemplate : scoredDb.payoutTemplates.find 1 = some ⟨1, true, threePositions⟩ := by decide
    exact ⟨r.2, rfl, (forContest_distribute matchday _ List.reverse_perm (fun _ => List.Perm.refl _)
      List.reverse_perm hslug rfl htemplate (by decide) (by unfold DistinctDraws; decide) hrun).1⟩

end Sample

end Leaderboard
end FootballIQ
