import FootballIQ.LeaderboardCache

/-!
# One leaderboard for a scored contest

A contest that is scored is being settled, its leaderboard is read and cached, and its cache is
deleted, all at once. A load can find the contest before a settlement and its entries after it,
and can store what it rendered after the key was deleted. All of them show the same standings.
-/

namespace FootballIQ
namespace LeaderboardCache

open Transaction Relational Interleaving Contests Ranking Settlement Platform Leaderboard PrizePool

section Standings

/-- The columns of an entry by which it is ranked and which are shown. -/
def standingColumns (e : Entry) : RankableEntry × ℕ × ℕ := (rankable e, e.userId, e.correctCount)

/-- The standings of a contest in the order of the ranking. -/
structure Board (drawHash : ℕ → ℕ → String) where
  slug : String
  contestId : ℕ
  columns : List (RankableEntry × ℕ × ℕ)
  draws : DistinctDraws drawHash contestId (columns.map Prod.fst)
  ranked : rankEntries drawHash contestId (columns.map Prod.fst) = columns.map Prod.fst

variable (directory : Directory) {drawHash : ℕ → ℕ → String} (board : Board drawHash)

/-- The rows of the standings: ranks from one on, and no prizes. -/
def Board.rows : List LeaderboardRow :=
  board.columns.zipIdx.map (fun p => {
    rank := some (p.2 + 1)
    username := (directory.profile p.1.2.1).username
    avatarUrl := (directory.profile p.1.2.1).avatarUrl
    points := formatPoints p.1.1.totalPointsX10
    pointsX10 := p.1.1.totalPointsX10
    correctCount := p.1.2.2
    prizeMinor := none })

def Shows (payload : Payload) : Prop :=
  payload.entries.map LeaderboardRow.standing = board.rows directory

/-- The entries are ranked from one on by what the settlement has stored. -/
def Ranks (ordered : List Entry) : Prop :=
  ordered.map (·.finalRank) = (List.range' 1 ordered.length).map some

/-- The contest that the slug names and the entries that are shown, in the order of the board:
the contest is scored and they are all active, or it is settled and they have their ranks. -/
structure Standing (db : Db) (c : Contest) (ordered : List Entry) : Prop where
  found : findBySlug directory db board.slug = some c
  contestId : c.id = board.contestId
  shown : ordered.Perm (shownEntries db board.contestId)
  columns : ordered.map standingColumns = board.columns
  phase : (c.status = .scored ∧ ∀ e ∈ ordered, e.status = .active) ∨
    (c.status = .settled ∧ Ranks ordered)

variable {directory board} {db : Db} {c : Contest} {ordered : List Entry}

theorem Standing.rankables (h : Standing directory board db c ordered) :
    ordered.map rankable = board.columns.map Prod.fst := by
  rw [← h.columns, List.map_map]
  rfl

theorem Standing.ids (h : Standing directory board db c ordered) :
    (ordered.map (·.id)).Nodup := by
  rw [(h.shown.map _).nodup_iff]
  exact ids_shownEntries db board.contestId

/-- What is shown of each entry comes from its columns, whatever its prize. -/
theorem shows_of_columns {settled : Contest}
    (hcolumns : ordered.map standingColumns = board.columns)
    (hranks : settled.status = .settled → Ranks ordered) :
    Shows directory board (toPayload directory settled ordered) := by
  unfold Shows Board.rows
  rw [← hcolumns, toPayload, List.map_map]
  apply List.ext_getElem?
  intro i
  simp only [List.getElem?_map, List.getElem?_zipIdx, Option.map_map]
  cases hi : ordered[i]? with
  | none => rfl
  | some e =>
    by_cases hs : settled.status = .settled
    · have hrank : e.finalRank = some (i + 1) := by
        have hat := congrArg (·[i]?) (hranks hs)
        have hlt := (List.getElem?_eq_some_iff.1 hi).1
        simp only [List.getElem?_map, hi, Option.map_some, List.getElem?_range' hlt] at hat
        rw [Option.some.inj hat]
        simp [add_comm]
      simp [LeaderboardRow.standing, toRow, standingColumns, rankable, hs, hrank]
    · simp [LeaderboardRow.standing, toRow, standingColumns, rankable, hs]

/-- Each ranked row finds its entry, in whatever order the entries come. -/
theorem mapM_find_rankable {es : List Entry} (hnd : (es.map (·.id)).Nodup) (ordered : List Entry)
    (hmem : ∀ e ∈ ordered, e ∈ es) :
    (ordered.map rankable).mapM (fun r => es.find? (fun e => e.id = r.entryId)) = some ordered := by
  induction ordered with
  | nil => rfl
  | cons e ordered ih =>
    have hfind : es.find? (fun e' => e'.id = (rankable e).entryId) = some e :=
      find?_of_nodup hnd (hmem e List.mem_cons_self)
    rw [List.map_cons, List.mapM_cons, hfind, ih (fun x hx => hmem x (List.mem_cons_of_mem _ hx))]
    rfl

/-- Rows that come in any order are shown in the order of the board, ranked anew or by the ranks
that are stored. -/
theorem Standing.order_eq {es : List Entry} (h : Standing directory board db c ordered)
    (hperm : ordered.Perm es) {contest : Contest} (hid : contest.id = board.contestId)
    (hranks : contest.status = .settled → Ranks ordered) :
    order drawHash contest es = some ordered := by
  unfold order
  by_cases hs : contest.status = .settled
  · have hkeys : ordered.map (fun e => e.finalRank.getD 0) = List.range' 1 ordered.length := by
      have hmap := congrArg (List.map (fun o : Option ℕ => o.getD 0)) (hranks hs)
      simpa [List.map_map, Function.comp_def] using hmap
    rw [if_pos hs, byFinalRank_eq hperm hkeys]
  · have hdraws : DistinctDraws drawHash board.contestId (ordered.map rankable) := by
      rw [h.rankables]
      exact board.draws
    have hrank : rankEntries drawHash board.contestId (es.map rankable) = ordered.map rankable := by
      rw [rankEntries_eq_of_perm hdraws (hperm.symm.map rankable), h.rankables, board.ranked]
    have hnd : (es.map (·.id)).Nodup := (hperm.map _).nodup_iff.1 h.ids
    rw [if_neg hs, byRanking, hid, hrank,
      mapM_find_rankable hnd ordered (fun e he => hperm.mem_iff.1 he)]

/-- A contest as it was at some time before: what it renders to shows the board. -/
theorem shows_of_render {rows : List Entry → List Entry} (hrows : Reorders rows)
    (h : Standing directory board db c ordered) {contest : Contest} {payload : Payload}
    (hid : contest.id = board.contestId)
    (hsettled : contest.status = .settled → c.status = .settled)
    (hrender : render directory drawHash contest (rows (shownEntries db contest.id)) =
      some payload) :
    Shows directory board payload := by
  have hranks : contest.status = .settled → Ranks ordered := by
    intro hs
    rcases h.phase with ⟨hscored, _⟩ | ⟨_, hranks⟩
    · rw [hsettled hs] at hscored
      cases hscored
    · exact hranks
  have hperm : ordered.Perm (rows (shownEntries db contest.id)) := by
    rw [hid]
    exact h.shown.trans (hrows _).symm
  rw [render, h.order_eq hperm hid hranks, Option.map_some, Option.some.injEq] at hrender
  rw [← hrender]
  exact shows_of_columns h.columns hranks

end Standings

section Settling
variable {directory : Directory} {drawHash : ℕ → ℕ → String} {board : Board drawHash} {db : Db}
  {c : Contest} {ordered : List Entry} {now : DateTime} {snap : SettlementSnapshot} {r : PUnit × Db}

/-- Each entry of the board is there with its position after the settlement. -/
theorem Standing.settled (hs : Standing directory board db c ordered)
    (h : distributeTx now snap db = .ok r) (hranked : snap.ranked = board.columns.map Prod.fst)
    {i : ℕ} {e : Entry} (hi : ordered[i]? = some e) :
    ∃ prize, r.2.entries.find e.id = some (settledAt prize (i + 1) e) := by
  have hmem : e ∈ shownEntries db board.contestId := hs.shown.mem_iff.1 (List.mem_of_getElem? hi)
  have hfind : db.entries.find e.id = some e := db.entries.find_id (mem_shownEntries.1 hmem).1
  have hnd : (snap.ranked.map (·.entryId)).Nodup := by
    rw [hranked, ← hs.rankables, List.map_map]
    exact hs.ids
  have hq : snap.ranked[i]? = some (rankable e) := by
    rw [hranked, ← hs.rankables, List.getElem?_map, hi, Option.map_some]
  exact find_ranked h hnd hq hfind

/-- The settlement brings no entry onto the board. -/
theorem Standing.ranked_of_shown (hs : Standing directory board db c ordered)
    (h : distributeTx now snap db = .ok r) (hranked : snap.ranked = board.columns.map Prod.fst)
    {x : Entry} (hx : x ∈ shownEntries r.2 board.contestId) : x.id ∈ ordered.map (·.id) := by
  obtain ⟨hmem', hcontest', hstatus'⟩ := mem_shownEntries.1 hx
  have hids : snap.ranked.map (·.entryId) = ordered.map (·.id) := by
    rw [hranked, ← hs.rankables, List.map_map]
    rfl
  by_contra hin
  obtain ⟨e, hmem, hid, hcontest, hstatus⟩ := unranked_before h hmem' (hids ▸ hin)
  have hshown : e ∈ shownEntries db board.contestId :=
    mem_shownEntries.2 ⟨hmem, hcontest.trans hcontest', hstatus ▸ hstatus'⟩
  exact hin (hid ▸ List.mem_map_of_mem (hs.shown.mem_iff.2 hshown))

/-- What has become of an entry. -/
def later (db' : Db) (e : Entry) : Entry := (db'.entries.find e.id).getD e

theorem Standing.later_eq (hs : Standing directory board db c ordered)
    (h : distributeTx now snap db = .ok r) (hranked : snap.ranked = board.columns.map Prod.fst)
    {i : ℕ} {e : Entry} (hi : ordered[i]? = some e) :
    ∃ prize, r.2.entries.find e.id = some (later r.2 e) ∧
      later r.2 e = settledAt prize (i + 1) e := by
  obtain ⟨prize, hfind⟩ := hs.settled h hranked hi
  have hlater : later r.2 e = settledAt prize (i + 1) e := by
    rw [later, hfind, Option.getD_some]
  exact ⟨prize, by rw [hlater, hfind], hlater⟩

theorem Standing.columns_later (hs : Standing directory board db c ordered)
    (h : distributeTx now snap db = .ok r) (hranked : snap.ranked = board.columns.map Prod.fst) :
    (ordered.map (later r.2)).map standingColumns = board.columns := by
  rw [← hs.columns, List.map_map]
  apply List.map_congr_left
  intro e he
  obtain ⟨i, hi⟩ := List.mem_iff_getElem?.1 he
  obtain ⟨prize, _, hlater⟩ := hs.later_eq h hranked hi
  rw [Function.comp_apply, hlater]
  rfl

theorem Standing.shown_later (hs : Standing directory board db c ordered)
    (h : distributeTx now snap db = .ok r) (hranked : snap.ranked = board.columns.map Prod.fst) :
    (ordered.map (later r.2)).Perm (shownEntries r.2 board.contestId) := by
  have hids : (ordered.map (later r.2)).map (·.id) = ordered.map (·.id) := by
    have hcolumns := (hs.columns_later h hranked).trans hs.columns.symm
    have hfst := congrArg (List.map (fun p => p.1.entryId)) hcolumns
    simp only [List.map_map] at hfst ⊢
    exact hfst
  have hnd : ((ordered.map (later r.2)).map (·.id)).Nodup := hids ▸ hs.ids
  rw [List.perm_ext_iff_of_nodup (List.Nodup.of_map _ hnd)
    (List.Nodup.of_map _ (ids_shownEntries r.2 board.contestId))]
  intro x
  constructor
  · intro hx
    obtain ⟨e, he, rfl⟩ := List.mem_map.1 hx
    obtain ⟨i, hi⟩ := List.mem_iff_getElem?.1 he
    obtain ⟨prize, hfind, hlater⟩ := hs.later_eq h hranked hi
    obtain ⟨_, hcontest, _⟩ := mem_shownEntries.1 (hs.shown.mem_iff.1 he)
    have hmem := ((Table.find_eq_some_iff _ _ _).1 hfind).1
    rw [hlater] at hmem ⊢
    exact mem_shownEntries.2 ⟨hmem, hcontest, Or.inr rfl⟩
  · intro hx
    obtain ⟨e, he, hxe⟩ := List.mem_map.1 (hs.ranked_of_shown h hranked hx)
    have hfound : r.2.entries.find x.id = some x := r.2.entries.find_id (mem_shownEntries.1 hx).1
    refine List.mem_map.2 ⟨e, he, ?_⟩
    rw [later, hxe, hfound, Option.getD_some]

theorem Standing.ranks_later (hs : Standing directory board db c ordered)
    (h : distributeTx now snap db = .ok r) (hranked : snap.ranked = board.columns.map Prod.fst) :
    Ranks (ordered.map (later r.2)) := by
  apply List.ext_getElem?
  intro i
  by_cases hlt : i < ordered.length
  · have hi := List.getElem?_eq_getElem hlt
    obtain ⟨prize, _, hlater⟩ := hs.later_eq h hranked hi
    rw [List.getElem?_map, List.getElem?_map, hi, List.length_map, List.getElem?_map,
      List.getElem?_range' hlt]
    simp [hlater, settledAt, add_comm]
  · rw [List.getElem?_eq_none (by simp; omega), List.getElem?_eq_none (by simp; omega)]

/-- A settlement, the first one or one more, leaves the standings and the contest settled. -/
theorem Standing.distributed (hs : Standing directory board db c ordered)
    (h : distributeTx now snap db = .ok r) (hid : snap.contest.id = board.contestId)
    (hranked : snap.ranked = board.columns.map Prod.fst) :
    Standing directory board r.2 { c with status := .settled, settledAt := some now }
      (ordered.map (later r.2)) where
  found := findBySlug_distributed h hs.found (hid.trans hs.contestId.symm)
  contestId := hs.contestId
  shown := hs.shown_later h hranked
  columns := hs.columns_later h hranked
  phase := Or.inr ⟨rfl, hs.ranks_later h hranked⟩

end Settling

section Runs
variable {directory : Directory} {drawHash : ℕ → ℕ → String} {board : Board drawHash}

def Settles (contestId : ℕ) : Platform.Task → Prop
  | .distributeTx snap => snap.contest.id = contestId
  | _ => False

/-- A step of the platform is a settlement of the contest, or it leaves what the leaderboard reads
of it. -/
def Settling (directory : Directory) (drawHash : ℕ → ℕ → String) (slug : String) (contestId : ℕ)
    (input : Input) (t : Task) (w : World) : Prop :=
  match t with
  | .platform task =>
    Settles contestId task ∨
      (findBySlug directory (Platform.step drawHash input.tick task w.db).1 slug =
          findBySlug directory w.db slug ∧
        shownEntries (Platform.step drawHash input.tick task w.db).1 contestId =
          shownEntries w.db contestId)
  | _ => True

/-- The standings are those of the board, in the database and wherever they are copied. -/
structure Steady (directory : Directory) (board : Board drawHash) (w : World) : Prop where
  stands : ∃ c ordered, Standing directory board w.db c ordered
  cache : ∀ slot, w.cache (cacheKey board.slug) = some slot → Shows directory board slot.value
  answers : ∀ a ∈ w.answers, a.slug = board.slug → Shows directory board a.payload

/-- What a load of the board has read, and what a settlement has: a contest that was read settled
is still settled. -/
def Bound (directory : Directory) (board : Board drawHash) (w : World) : Task → Prop
  | .readEntries slug _ contest => slug = board.slug → contest.id = board.contestId ∧
    (contest.status = .settled →
      ∃ c, findBySlug directory w.db board.slug = some c ∧ c.status = .settled)
  | .store slug _ payload => slug = board.slug → Shows directory board payload
  | .platform (.distributeTx snap) => snap.contest.id = board.contestId →
    snap.ranked = board.columns.map Prod.fst
  | _ => True

variable {w : World} {t : Task} {input : Input} {c : Contest} {ordered : List Entry} {db : Db}

theorem Settles.exists_snap {contestId : ℕ} {task : Platform.Task} (h : Settles contestId task) :
    ∃ snap, task = .distributeTx snap ∧ snap.contest.id = contestId := by
  cases task with
  | distributeTx snap => exact ⟨snap, rfl, h⟩
  | ready _ | settle _ _ | publishTx _ _ | submitTx _ | cancelTx _ _ | finalizeTx _ _ | scoring _ =>
    cases h

theorem cacheKey_inj {slug slug' : String} (h : cacheKey slug = cacheKey slug') : slug = slug' := by
  have hlist := congrArg String.toList h
  simp only [cacheKey, String.toList_append, List.append_cancel_left_eq] at hlist
  exact String.toList_inj.1 hlist

theorem Standing.of_eq {db' : Db} (h : Standing directory board db c ordered)
    (hfound : findBySlug directory db' board.slug = findBySlug directory db board.slug)
    (hshown : shownEntries db' board.contestId = shownEntries db board.contestId) :
    Standing directory board db' c ordered where
  found := hfound.trans h.found
  contestId := h.contestId
  shown := hshown ▸ h.shown
  columns := h.columns
  phase := h.phase

/-- The contest keeps its standings, and a settled one stays settled. -/
theorem stands_step (hsteady : Steady directory board w) (ht : Bound directory board w t)
    (hG : Settling directory drawHash board.slug board.contestId input t w) :
    (∃ c ordered, Standing directory board (step directory drawHash input t w).1.db c ordered) ∧
      ((∃ c, findBySlug directory w.db board.slug = some c ∧ c.status = .settled) →
        ∃ c, findBySlug directory (step directory drawHash input t w).1.db board.slug = some c ∧
          c.status = .settled) := by
  obtain ⟨c, ordered, hs⟩ := hsteady.stands
  cases t with
  | platform task =>
    change (∃ c ordered, Standing directory board
        (Platform.step drawHash input.tick task w.db).1 c ordered) ∧ (_ → ∃ c,
      findBySlug directory (Platform.step drawHash input.tick task w.db).1 board.slug = some c ∧
        c.status = .settled)
    rcases hG with hsettles | ⟨hfound, hshown⟩
    · obtain ⟨snap, rfl, hid⟩ := hsettles.exists_snap
      rcases Platform.step_cases drawHash input.tick (.distributeTx snap) w.db with
        ⟨next, db', hok, hstep⟩ | ⟨_, hstep⟩
      · obtain ⟨_, r, hd⟩ := action_ok drawHash hok
        have hs' := hs.distributed hd hid (ht hid)
        rw [hstep]
        exact ⟨⟨_, _, hs'⟩, fun _ => ⟨_, hs'.found, rfl⟩⟩
      · rw [hstep]
        exact ⟨⟨c, ordered, hs⟩, fun h => h⟩
    · rw [hfound]
      exact ⟨⟨c, ordered, hs.of_eq hfound hshown⟩, fun h => h⟩
  | lookup slug =>
    simp only [step, act]
    split
    · exact ⟨⟨c, ordered, hs⟩, fun h => h⟩
    · exact ⟨⟨c, ordered, hs⟩, fun h => h⟩
  | readContest _ | readEntries _ _ _ | store _ _ _ | push _ _ | evict _ =>
    exact ⟨⟨c, ordered, hs⟩, fun h => h⟩

theorem Steady.answer {now : DateTime} {slug : String} {payload : Payload}
    (h : Steady directory board w) (hshows : slug = board.slug → Shows directory board payload) :
    Steady directory board (w.answer now slug payload) := by
  refine ⟨h.stands, h.cache, fun a ha => ?_⟩
  rcases List.mem_append.1 ha with ha | ha
  · exact h.answers a ha
  · rw [List.mem_singleton.1 ha]
    exact hshows

theorem steady_step (h : Steady directory board w) (ht : Bound directory board w t)
    (hG : Settling directory drawHash board.slug board.contestId input t w) :
    Steady directory board (step directory drawHash input t w).1 := by
  have hstands := (stands_step h ht hG).1
  cases t with
  | lookup slug =>
    have hseen : Steady directory board (w.see input.tick.now) := ⟨h.stands, h.cache, h.answers⟩
    simp only [step, act]
    cases hget : (w.see input.tick.now).cache.get input.tick.now (cacheKey slug) with
    | none => exact hseen
    | some payload =>
      refine hseen.answer ?_
      rintro rfl
      obtain ⟨slot, hslot, hlive⟩ := Option.bind_eq_some_iff.1 hget
      split_ifs at hlive with hexpires
      cases hlive
      exact h.cache slot hslot
  | store slug readAt payload =>
    have hcached : Steady directory board { w.see input.tick.now with
        cache := w.cache.set input.tick.now cacheTtl (cacheKey slug) payload } := by
      refine ⟨h.stands, fun slot hslot => ?_, h.answers⟩
      by_cases hkey : cacheKey board.slug = cacheKey slug
      · simp only [ReadThrough.Cache.set, hkey, Function.update_self, Option.some.injEq] at hslot
        rw [← hslot]
        exact ht (cacheKey_inj hkey).symm
      · simp only [ReadThrough.Cache.set, Function.update_of_ne hkey] at hslot
        exact h.cache slot hslot
    exact hcached.answer ht
  | evict key =>
    refine ⟨h.stands, fun slot hslot => ?_, h.answers⟩
    by_cases hkey : cacheKey board.slug = key
    · simp [step, act, ReadThrough.Cache.del, hkey] at hslot
    · simp only [step, act, ReadThrough.Cache.del, Function.update_of_ne hkey] at hslot
      exact h.cache slot hslot
  | readContest _ | readEntries _ _ _ | push _ _ | platform _ => exact ⟨hstands, h.cache, h.answers⟩

/-- A prepared settlement has been read. -/
theorem read_of_prepared {now : DateTime} {snap : SettlementSnapshot}
    (h : Prepared drawHash now db (.distributeTx snap)) :
    ∃ contestId, distributeRead drawHash contestId db = some snap := by
  cases h with
  | distributeTx _ contestId hread => exact ⟨contestId, hread⟩

theorem ranked_of_read {contestId : ℕ} {snap : SettlementSnapshot}
    (h : distributeRead drawHash contestId db = some snap) :
    snap.ranked = ranking drawHash contestId db := by
  unfold distributeRead at h
  simp only [Option.bind_eq_bind, Option.bind_eq_some_iff] at h
  obtain ⟨_, _, _, _, hrest⟩ := h
  split_ifs at hrest
  rw [← Option.some.inj hrest]
  rfl

/-- Where no entry is settled the active ones are shown. -/
theorem activeEntries_eq {contestId : ℕ}
    (h : ∀ e ∈ db.entries.rows, e.contestId = contestId → e.status ≠ .settled) :
    activeEntries db contestId = shownEntries db contestId := by
  apply List.filter_congr
  intro e he
  by_cases hcontest : e.contestId = contestId
  · simp [hcontest, h e he hcontest]
  · simp [hcontest]

/-- While the contest is scored its ranking is the board. -/
theorem Standing.ranking_eq (h : Standing directory board db c ordered) (hc : c.status = .scored) :
    ranking drawHash board.contestId db = board.columns.map Prod.fst := by
  have hactive : ∀ e ∈ ordered, e.status = .active := by
    rcases h.phase with ⟨_, hactive⟩ | ⟨hsettled, _⟩
    · exact hactive
    · rw [hc] at hsettled
      cases hsettled
  have hshown : activeEntries db board.contestId = shownEntries db board.contestId := by
    apply activeEntries_eq
    intro e he hcontest hsettled
    have hmem := mem_shownEntries.2 ⟨he, hcontest, Or.inr hsettled⟩
    cases hsettled.symm.trans (hactive e (h.shown.mem_iff.2 hmem))
  have hdraws : DistinctDraws drawHash board.contestId (ordered.map rankable) := by
    rw [h.rankables]
    exact board.draws
  rw [ranking, hshown, rankEntries_eq_of_perm hdraws (h.shown.symm.map rankable), h.rankables,
    board.ranked]

/-- Between the settlements a load and a settlement read the board. -/
theorem bound_next {t' : Task} (h : Steady directory board w) (ht : Bound directory board w t)
    (hnext : (step directory drawHash input t w).2 = some t') :
    Bound directory board (step directory drawHash input t w).1 t' := by
  obtain ⟨c, ordered, hs⟩ := h.stands
  cases t with
  | lookup slug =>
    simp only [step, act] at hnext
    split at hnext
    · cases hnext
    · cases hnext
      trivial
  | readContest slug =>
    obtain ⟨contest, hvisible, rfl⟩ := Option.map_eq_some_iff.1 hnext
    rintro rfl
    have hfound := (visible_eq_some_iff.1 hvisible).1
    have heq : contest = c := Option.some.inj (hfound.symm.trans hs.found)
    exact ⟨heq ▸ hs.contestId, fun hsettled => ⟨contest, hfound, hsettled⟩⟩
  | readEntries slug readAt contest =>
    obtain ⟨payload, hrender, rfl⟩ := Option.map_eq_some_iff.1 hnext
    rintro rfl
    obtain ⟨hid, hsettled⟩ := ht rfl
    refine shows_of_render input.reorders hs hid (fun hread => ?_) hrender
    obtain ⟨c', hfound, hstatus⟩ := hsettled hread
    rwa [Option.some.inj (hs.found.symm.trans hfound)]
  | push contestId type =>
    obtain ⟨r, _, rfl⟩ := Option.map_eq_some_iff.1 hnext
    trivial
  | platform task =>
    obtain ⟨task', htask', rfl⟩ := Option.map_eq_some_iff.1 hnext
    cases task' with
    | distributeTx snap =>
      rintro hid
      rcases step_next drawHash htask' with ⟨call, rfl, _, hprep⟩ | ⟨_, _, _, hjob⟩ | ⟨_, _, hjob⟩
      · obtain ⟨contestId, hread⟩ := read_of_prepared hprep
        obtain ⟨hfind, hcontest, hscored, _⟩ := distributeRead_some hread
        have hc : snap.contest = c := by
          have hfound := find_of_slug hs.found
          rw [hs.contestId, ← hid, hcontest] at hfound
          exact Option.some.inj (hfind.symm.trans hfound)
        rw [ranked_of_read hread, ← hcontest, hid]
        exact hs.ranking_eq (hc ▸ hscored)
      · cases hjob
      · cases hjob
    | ready _ | settle _ _ | publishTx _ _ | submitTx _ | cancelTx _ _ | finalizeTx _ _
    | scoring _ => trivial
  | store _ _ _ => cases hnext
  | evict _ => cases hnext

theorem bound_stable {u : Task} (h : Steady directory board w) (ht : Bound directory board w t)
    (hG : Settling directory drawHash board.slug board.contestId input t w)
    (hu : Bound directory board w u) :
    Bound directory board (step directory drawHash input t w).1 u := by
  cases u with
  | readEntries slug readAt contest =>
    intro hslug
    obtain ⟨hid, hsettled⟩ := hu hslug
    exact ⟨hid, fun hread => (stands_step h ht hG).2 (hsettled hread)⟩
  | platform task =>
    cases task with
    | distributeTx snap => exact hu
    | ready _ | settle _ _ | publishTx _ _ | submitTx _ | cancelTx _ _ | finalizeTx _ _
    | scoring _ => trivial
  | store _ _ _ => exact hu
  | lookup _ | readContest _ | push _ _ | evict _ => trivial

theorem inductive_steady (directory : Directory) (board : Board drawHash) :
    (protocol directory drawHash).Inductive (Settling directory drawHash board.slug board.contestId)
      (Steady directory board) (Bound directory board) where
  init w call _ := by
    cases call with
    | forContest _ | pushLive _ _ | platform _ => trivial
  shared _ _ _ hI ht hG := steady_step hI ht hG
  cont _ _ _ _ hI ht _ hnext := bound_next hI ht hnext
  stable _ _ _ _ hI ht hG hu := bound_stable hI ht hG hu

theorem perm_ranking :
    (ranking drawHash c.id db).Perm ((activeEntries db c.id).map rankable) :=
  rankEntries_perm drawHash c.id _

theorem fst_standingColumns {ordered : List Entry}
    (hmap : ordered.map rankable = ranking drawHash c.id db) :
    (ordered.map standingColumns).map Prod.fst = ranking drawHash c.id db := by
  rw [← hmap, List.map_map]
  rfl

/-- The board of the entries in the order of the ranking. -/
def boardOf (slug : String)
    (hdraws : DistinctDraws drawHash c.id ((activeEntries db c.id).map rankable))
    {ordered : List Entry} (hmap : ordered.map rankable = ranking drawHash c.id db) :
    Board drawHash where
  slug := slug
  contestId := c.id
  columns := ordered.map standingColumns
  draws := by
    rw [fst_standingColumns hmap]
    exact ((perm_ranking.map _).nodup_iff).2 hdraws
  ranked := by
    rw [fst_standingColumns hmap, rankEntries_eq_of_perm hdraws perm_ranking]
    rfl

/-- While none of its entries is settled, a contest shows just the entries of its ranking. -/
theorem shownEntries_of_ranked
    (hunsettled : ∀ e ∈ db.entries.rows, e.contestId = c.id → e.status ≠ .settled)
    {ordered : List Entry} (hmap : ordered.map rankable = ranking drawHash c.id db)
    (hactive : ∀ e ∈ ordered, e ∈ activeEntries db c.id) :
    ordered.Perm (shownEntries db c.id) := by
  have hids : (ordered.map (·.id)).Nodup := by
    have hentries : ordered.map (·.id) = (ranking drawHash c.id db).map (·.entryId) := by
      rw [← hmap, List.map_map]
      rfl
    rw [hentries]
    exact nodup_ranking
  rw [← activeEntries_eq hunsettled, List.perm_ext_iff_of_nodup (List.Nodup.of_map _ hids)
    (List.Nodup.of_map _ (ids_activeEntries db c.id))]
  intro e
  constructor
  · exact hactive e
  · intro he
    have hq : rankable e ∈ ordered.map rankable := by
      rw [hmap]
      exact mem_ranking.2 ⟨e, he, rfl⟩
    obtain ⟨e', he', heq⟩ := List.mem_map.1 hq
    have hid : e'.id = e.id := congrArg RankableEntry.entryId heq
    have hrow : e' ∈ db.entries.rows := (mem_activeEntries.1 (hactive e' he')).1
    rwa [← db.entries.eq_of_id_eq hrow (mem_activeEntries.1 he).1 hid]

/-- The board that a request shows before any settlement. -/
theorem exists_board {rows : List Entry → List Entry} (hrows : Reorders rows) {slug : String}
    {payload : Payload} (hslug : findBySlug directory db slug = some c)
    (hscored : c.status = .scored)
    (hunsettled : ∀ e ∈ db.entries.rows, e.contestId = c.id → e.status ≠ .settled)
    (hdraws : DistinctDraws drawHash c.id ((activeEntries db c.id).map rankable))
    (hpayload : forContest directory drawHash none rows slug db = .ok (payload, db)) :
    ∃ (board : Board drawHash) (ordered : List Entry), board.slug = slug ∧ board.contestId = c.id ∧
      Standing directory board db c ordered ∧ Shows directory board payload := by
  obtain ⟨ordered, hlive, hmap, hactive⟩ := standings_live hrows hslug hscored hunsettled hdraws
  have hshown := shownEntries_of_ranked hunsettled hmap hactive
  have hpayload' : payload = toPayload directory c ordered := by
    have hok := hpayload.symm.trans (forContest_of_standings hlive)
    exact (Prod.mk.inj (Except.ok.inj hok)).1
  refine ⟨boardOf slug hdraws hmap, ordered, rfl, rfl,
    ⟨hslug, rfl, hshown, rfl, Or.inl ⟨hscored, fun e he => ?_⟩⟩, ?_⟩
  · exact (mem_activeEntries.1 (hactive e he)).2.2
  · rw [hpayload']
    exact shows_of_columns rfl (fun hsettled => by rw [hscored] at hsettled; cases hsettled)

/-- From a scored contest on, whatever settlements of it run, between whichever reads they fall,
whenever what was loaded is stored and however often the key is deleted: every answer for its slug
shows the same standings, those of a request that reads the scored contest alone. -/
theorem shows_of_run (directory : Directory) (drawHash : ℕ → ℕ → String)
    {rows : List Entry → List Entry} (hrows : Reorders rows) {db : Db} {slug : String} {c : Contest}
    {payload : Payload} (hslug : findBySlug directory db slug = some c)
    (hscored : c.status = .scored)
    (hunsettled : ∀ e ∈ db.entries.rows, e.contestId = c.id → e.status ≠ .settled)
    (hdraws : DistinctDraws drawHash c.id ((activeEntries db c.id).map rankable))
    (hpayload : forContest directory drawHash none rows slug db = .ok (payload, db))
    {as : List (Act Call Input)}
    (h : (protocol directory drawHash).Along (Settling directory drawHash slug c.id)
      ⟨begins db, []⟩ as) :
    ∀ a ∈ ((protocol directory drawHash).run ⟨begins db, []⟩ as).shared.answers, a.slug = slug →
      a.payload.entries.map LeaderboardRow.standing =
        payload.entries.map LeaderboardRow.standing := by
  obtain ⟨board, ordered, rfl, hid, hstanding, hshows⟩ :=
    exists_board hrows hslug hscored hunsettled hdraws hpayload
  have hstart : Steady directory board (begins db) := by
    refine ⟨⟨c, ordered, hstanding⟩, fun slot hslot => ?_, fun a ha => ?_⟩
    · cases hslot
    · cases ha
  rw [← hid] at h
  have hsteady := ((inductive_steady directory board).run ⟨hstart, by simp⟩ h).1
  intro a ha hslug'
  exact (hsteady.answers a ha hslug').trans hshows.symm

end Runs

section Sample

instance (contestId : ℕ) : DecidablePred (Settles contestId)
  | .distributeTx snap => inferInstanceAs (Decidable (snap.contest.id = contestId))
  | .ready _ | .settle _ _ | .publishTx _ _ | .submitTx _ | .cancelTx _ _ | .finalizeTx _ _
  | .scoring _ => .isFalse (fun h => h)

instance (directory : Directory) (drawHash : ℕ → ℕ → String) (slug : String) (contestId : ℕ)
    (input : Input) (w : World) :
    ∀ t, Decidable (Settling directory drawHash slug contestId input t w)
  | .platform _ => inferInstanceAs (Decidable (_ ∨ _ ∧ _))
  | .lookup _ | .readContest _ | .readEntries _ _ _ | .store _ _ _ | .push _ _ | .evict _ =>
    .isTrue trivial

theorem shows_of_run_straddled : ∃ payload,
    forContest matchday drawOf none List.reverse "matchday-1" Settlement.scoredDb =
        .ok (payload, Settlement.scoredDb) ∧
      ∀ a ∈ straddledWorld.answers, a.slug = "matchday-1" →
        a.payload.entries.map LeaderboardRow.standing =
          payload.entries.map LeaderboardRow.standing := by
  have hslug : findBySlug matchday Settlement.scoredDb "matchday-1" = some scoredContest := by
    decide
  have hunsettled : ∀ e ∈ Settlement.scoredDb.entries.rows, e.contestId = scoredContest.id →
      e.status ≠ .settled := by decide
  have hdraws : DistinctDraws drawOf scoredContest.id
      ((activeEntries Settlement.scoredDb scoredContest.id).map rankable) := by
    unfold DistinctDraws
    decide
  obtain ⟨ordered, hlive, _⟩ := standings_live List.reverse_perm hslug rfl hunsettled hdraws
  refine ⟨_, forContest_of_standings hlive, ?_⟩
  exact shows_of_run matchday drawOf List.reverse_perm hslug rfl hunsettled hdraws
    (forContest_of_standings hlive) (by decide +kernel)

end Sample

end LeaderboardCache
end FootballIQ
