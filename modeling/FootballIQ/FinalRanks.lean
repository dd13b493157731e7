import FootballIQ.Frames
import FootballIQ.RankOrder

/-!
# The final ranks

What one committed settlement leaves on the entries: the batches store the position of every
ranked entry, whatever the number of batches, and no other entry is settled.
-/

namespace FootballIQ
namespace Settlement

open Transaction Relational Contests Ranking Platform

section Batches

theorem find_unranked (batches : List (List (ℕ × ℕ))) (t : Table Entry) {k : ℕ}
    (hno : ∀ rows ∈ batches, (rows.lookup k).isSome = false) :
    (batches.foldl settleEntries t).find k = t.find k := by
  induction batches generalizing t with
  | nil => rfl
  | cons rows batches ih =>
    rw [List.foldl_cons, ih _ (fun rows' hr => hno rows' (List.mem_cons_of_mem _ hr)),
      find_settleEntries, hno rows List.mem_cons_self]
    simp

end Batches

section Entries
variable {now : DateTime} {snap : SettlementSnapshot} {db : Db} {r : PUnit × Db}

/-- The entries after a settlement: prizes awarded, then ranks recorded. -/
theorem entries_distributed (h : distributeTx now snap db = .ok r) :
    ∃ lines, (∀ line ∈ lines, line.winner ∈ snap.ranked) ∧ r.2.entries =
      (rankBatches snap.ranked).foldl settleEntries (awardPrizes db.entries lines) := by
  obtain ⟨escrow, platform, db₁, _, _, hpay, _, hr⟩ := (distributeTx_ok_iff now snap db r).1 h
  rcases hpay with ⟨_, _, hpay⟩ | ⟨_, rfl⟩
  · obtain ⟨prizes, winners, id, l, ns, _, hwin, _, _, hdb⟩ := payOut_ok hpay
    rw [show db₁ = _ from hdb] at hr
    refine ⟨winners, fun line hline => ?_, by rw [hr]⟩
    obtain ⟨p, hp, hpair, _⟩ := forall₂_mem_right (winnerLines_ok hwin).2 hline
    rw [hpair] at hp
    exact (List.of_mem_zip hp).2
  · exact ⟨[], by simp, by rw [hr]; rfl⟩

/-- A settlement changes the status of its contest and no other one. -/
theorem contests_distributed (h : distributeTx now snap db = .ok r) :
    r.2.contests = db.contests.update snap.contest.id
      (fun c => { c with status := .settled, settledAt := some now }) (fun _ => rfl) := by
  obtain ⟨escrow, platform, db₁, _, _, hpay, _, hr⟩ := (distributeTx_ok_iff now snap db r).1 h
  rcases hpay with ⟨_, _, hpay⟩ | ⟨_, rfl⟩
  · obtain ⟨prizes, winners, id, l, ns, _, _, _, _, hdb⟩ := payOut_ok hpay
    rw [show db₁ = _ from hdb] at hr
    rw [hr]
  · rw [hr]

/-- A ranked entry ends settled at its position. -/
theorem find_ranked (h : distributeTx now snap db = .ok r)
    (hnd : (snap.ranked.map (·.entryId)).Nodup) {i : ℕ} {q : RankableEntry}
    (hi : snap.ranked[i]? = some q) {e : Entry} (he : db.entries.find q.entryId = some e) :
    ∃ prize, r.2.entries.find q.entryId =
      some { e with prizeMinor := prize, finalRank := some (i + 1), status := .settled } := by
  obtain ⟨lines, _, hentries⟩ := entries_distributed h
  obtain ⟨hall, hex⟩ := rankBatches_spec hnd hi
  have hfind := find_awardPrizes lines db.entries q.entryId
  rw [he, Option.map_some] at hfind
  exact ⟨_, hentries ▸ find_settled _ _ hall hfind hex⟩

/-- An entry that is not ranked keeps its rank and its status. -/
theorem find_not_ranked (h : distributeTx now snap db = .ok r) {k : ℕ}
    (hk : k ∉ snap.ranked.map (·.entryId)) {e : Entry} (he : db.entries.find k = some e) :
    ∃ prize, r.2.entries.find k = some { e with prizeMinor := prize } := by
  obtain ⟨lines, _, hentries⟩ := entries_distributed h
  have hno : ∀ rows ∈ rankBatches snap.ranked, (rows.lookup k).isSome = false := by
    intro rows hrows
    by_contra hin
    exact hk (ranked_of_lookup hrows (Bool.eq_true_of_not_eq_false hin))
  have hfind := find_awardPrizes lines db.entries k
  rw [he, Option.map_some] at hfind
  exact ⟨_, by rw [hentries, find_unranked _ _ hno, hfind]⟩

/-- A settlement creates no entry. -/
theorem find_of_distributed (h : distributeTx now snap db = .ok r) {k : ℕ} {e' : Entry}
    (he' : r.2.entries.find k = some e') : ∃ e, db.entries.find k = some e := by
  obtain ⟨lines, _, hentries⟩ := entries_distributed h
  have hsame : Table.Same (feeColumns unwatched) db.entries r.2.entries := by
    rw [hentries]
    exact (same_awardPrizes _ _).trans (same_settleEntries _ _ (fun _ _ _ _ _ => rfl))
  have hfind := hsame.find (fun e e' heq => congrArg Prod.fst heq) k
  rw [he', Option.map_some] at hfind
  obtain ⟨e, he, _⟩ := Option.map_eq_some_iff.1 hfind.symm
  exact ⟨e, he⟩

/-- An entry that is not ranked was there before, with the same contest and status. -/
theorem unranked_before (h : distributeTx now snap db = .ok r) {x : Entry}
    (hx : x ∈ r.2.entries.rows) (hk : x.id ∉ snap.ranked.map (·.entryId)) :
    ∃ e ∈ db.entries.rows, e.id = x.id ∧ e.contestId = x.contestId ∧ e.status = x.status := by
  have hfound : r.2.entries.find x.id = some x := r.2.entries.find_id hx
  obtain ⟨e, he⟩ := find_of_distributed h hfound
  obtain ⟨hmem, hid⟩ := (Table.find_eq_some_iff _ _ _).1 he
  obtain ⟨prize, hkept⟩ := find_not_ranked h hk he
  have hxe : x = { e with prizeMinor := prize } := Option.some.inj (hfound.symm.trans hkept)
  exact ⟨e, hmem, hid, by rw [hxe], by rw [hxe]⟩

end Entries

section Positions
variable {drawHash : ℕ → ℕ → String} {contestId : ℕ} {db : Db}

/-- The ranking of the active entries, read in any order. -/
def ranking (drawHash : ℕ → ℕ → String) (contestId : ℕ) (db : Db) : List RankableEntry :=
  rankEntries drawHash contestId ((activeEntries db contestId).map rankable)

theorem mem_ranking {q : RankableEntry} :
    q ∈ ranking drawHash contestId db ↔ ∃ e ∈ activeEntries db contestId, rankable e = q := by
  rw [ranking, (rankEntries_perm drawHash contestId _).mem_iff, List.mem_map]

theorem nodup_ranking : ((ranking drawHash contestId db).map (·.entryId)).Nodup := by
  rw [ranking, ((rankEntries_perm drawHash contestId _).map _).nodup_iff, List.map_map]
  exact ids_activeEntries db contestId

theorem find_of_mem_ranking {q : RankableEntry} (hq : q ∈ ranking drawHash contestId db) :
    ∃ e ∈ activeEntries db contestId, rankable e = q ∧ db.entries.find q.entryId = some e := by
  obtain ⟨e, he, rfl⟩ := mem_ranking.1 hq
  exact ⟨e, he, rfl, find_of_active he⟩

end Positions

/-- The stored rank of an entry. -/
def finalRankOf (db : Db) (entryId : ℕ) : Option ℕ :=
  (db.entries.find entryId).bind (·.finalRank)

/-- The stored ranks number the ranking from one on. -/
structure Numbers (ranked : List RankableEntry) (db : Db) : Prop where
  kth : ∀ i q, ranked[i]? = some q → finalRankOf db q.entryId = some (i + 1)
  bijective : Set.BijOn (fun entryId => (finalRankOf db entryId).getD 0)
    {entryId | entryId ∈ ranked.map (·.entryId)} (Set.Icc 1 ranked.length)

theorem numbers_of_kth {ranked : List RankableEntry} {db : Db}
    (hkth : ∀ i q, ranked[i]? = some q → finalRankOf db q.entryId = some (i + 1)) :
    Numbers ranked db := by
  have hat : ∀ entryId ∈ ranked.map (·.entryId), ∃ i q, ranked[i]? = some q ∧
      q.entryId = entryId ∧ (finalRankOf db entryId).getD 0 = i + 1 := by
    intro entryId hmem
    obtain ⟨q, hq, rfl⟩ := List.mem_map.1 hmem
    obtain ⟨i, hi⟩ := List.mem_iff_getElem?.1 hq
    exact ⟨i, q, hi, rfl, by rw [hkth i q hi, Option.getD_some]⟩
  refine ⟨hkth, ?_, ?_, ?_⟩
  · intro entryId hmem
    obtain ⟨i, q, hi, _, hrank⟩ := hat entryId hmem
    have hlt := (List.getElem?_eq_some_iff.1 hi).1
    change (finalRankOf db entryId).getD 0 ∈ Set.Icc 1 ranked.length
    rw [hrank, Set.mem_Icc]
    omega
  · intro a ha b hb heq
    obtain ⟨i, q, hi, rfl, hrank⟩ := hat a ha
    obtain ⟨j, q', hj, rfl, hrank'⟩ := hat b hb
    have hij : i = j := by
      have hsum : i + 1 = j + 1 := hrank.symm.trans (heq.trans hrank')
      omega
    subst hij
    rw [Option.some.inj (hi.symm.trans hj)]
  · intro m hm
    rw [Set.mem_Icc] at hm
    have hlt : m - 1 < ranked.length := by omega
    refine ⟨ranked[m - 1].entryId, List.mem_map_of_mem (List.getElem_mem hlt), ?_⟩
    change (finalRankOf db _).getD 0 = m
    rw [hkth (m - 1) _ (List.getElem?_eq_getElem hlt), Option.getD_some]
    omega

end Settlement
end FootballIQ
