import FootballIQ.Settlement

/-!
# Accounting of one settlement

The building blocks of the conservation proof: what the payout lines sum to and
put on each account, what the loop over the winners leaves on the entries, and
what the batched rank updates leave there.
-/

namespace FootballIQ
namespace Settlement

open Transaction Relational WalletAccounts Contests Ranking

section Positions
variable {α : Type*} (key : α → ℕ)

/-- The prize at a position; unpaid positions have none. -/
def prizeAt (prizes : List ℤ) (i : ℕ) : ℤ := prizes.getD i 0

/-- Over distinct keys, the payments to the key at position `i` are the prize there. -/
theorem sum_paid_at (prizes : List ℤ) (rs : List α) (hnd : (rs.map key).Nodup) {i : ℕ} {r : α}
    (hi : rs[i]? = some r) :
    ((prizes.zip rs).map (fun p => if key p.2 = key r then p.1 else 0)).sum = prizeAt prizes i := by
  induction prizes generalizing rs i with
  | nil => simp [prizeAt]
  | cons p ps ih =>
    cases rs with
    | nil => simp at hi
    | cons q qs =>
      rw [List.map_cons, List.nodup_cons] at hnd
      rw [List.zip_cons_cons, List.map_cons, List.sum_cons]
      cases i with
      | zero =>
        simp only [List.getElem?_cons_zero, Option.some.injEq] at hi
        subst hi
        have hrest : ((ps.zip qs).map (fun p => if key p.2 = key q then p.1 else 0)).sum = 0 := by
          apply List.sum_eq_zero
          intro x hx
          obtain ⟨⟨a, b⟩, hab, rfl⟩ := List.mem_map.1 hx
          rw [if_neg]
          intro heq
          exact hnd.1 (heq ▸ List.mem_map_of_mem (List.of_mem_zip hab).2)
        rw [if_pos rfl, hrest, add_zero]
        rfl
      | succ i =>
        simp only [List.getElem?_cons_succ] at hi
        have hne : key q ≠ key r := fun heq =>
          hnd.1 (heq ▸ List.mem_map_of_mem (List.mem_of_getElem? hi))
        rw [if_neg hne, zero_add, ih qs hnd.2 hi]
        rfl

theorem sum_zip_fst (prizes : List ℤ) (rs : List α) (hlen : prizes.length ≤ rs.length) :
    ((prizes.zip rs).map Prod.fst).sum = prizes.sum := by
  rw [List.map_fst_zip hlen]

theorem map_snd_zip_sublist {β : Type*} (as : List α) (bs : List β) :
    ((as.zip bs).map Prod.snd).Sublist bs := by
  induction as generalizing bs with
  | nil => exact List.nil_sublist _
  | cons a as ih =>
    cases bs with
    | nil => exact List.nil_sublist _
    | cons b bs => exact (ih bs).cons_cons b

/-- The prizes of all positions are the prizes, padded with zeros. -/
theorem sum_prizeAt (prizes : List ℤ) (n : ℕ) (hlen : prizes.length ≤ n) :
    ((List.range n).map (prizeAt prizes)).sum = prizes.sum := by
  induction prizes generalizing n with
  | nil =>
    apply List.sum_eq_zero
    intro x hx
    obtain ⟨i, _, rfl⟩ := List.mem_map.1 hx
    rfl
  | cons p ps ih =>
    obtain ⟨m, rfl⟩ : ∃ m, n = m + 1 := ⟨n - 1, by simp at hlen; omega⟩
    rw [List.range_succ_eq_map, List.map_cons, List.map_map, List.sum_cons, List.sum_cons]
    have hrest := ih m (by simpa using hlen)
    rw [← hrest]
    rfl

end Positions

section Winners

/-- The account id of a user's wallet. -/
def walletId (db : Db) (userId : ℕ) : ℕ :=
  ((ofUser db.ledger.accounts userId .userAvailable "NGN").map (·.id)).getD 0

theorem walletId_eq {db : Db} {userId : ℕ} {a : LedgerAccount}
    (h : ofUser db.ledger.accounts userId .userAvailable "NGN" = some a) :
    walletId db userId = a.id := by simp [walletId, h]

def winnersOf (db : Db) (prizes : List ℤ) (ranked : List RankableEntry) : List WinnerLine :=
  (prizes.zip ranked).map (fun p => ⟨walletId db p.2.userId, p.1, p.2⟩)

/-- With a wallet for everyone and no holes, the winner lines pair prizes and ranks. -/
theorem winnerLines_of_wallets (db : Db) (prizes : List ℤ) (ranked : List RankableEntry)
    (hw : ∀ r ∈ ranked, ∃ a, ofUser db.ledger.accounts r.userId .userAvailable "NGN" = some a) :
    winnerLines ((prizes.map some).zip ranked) db = .ok (winnersOf db prizes ranked, db) := by
  induction prizes generalizing ranked with
  | nil => rfl
  | cons p ps ih =>
    cases ranked with
    | nil => rfl
    | cons r rs =>
      obtain ⟨a, ha⟩ := hw r List.mem_cons_self
      rw [List.map_cons, List.zip_cons_cons]
      simp only [winnerLines, bind_ok_iff, userAvailable_ok_iff, pure_ok_iff]
      refine ⟨a, db, ⟨ha, rfl⟩, _, _, ih rs (fun r hr => hw r (List.mem_cons_of_mem _ hr)), ?_, rfl⟩
      simp [winnersOf, walletId_eq ha]

theorem paidLines_cons_of_pos {w : WinnerLine} (ws : List WinnerLine) (h : 0 < w.prizeMinor) :
    paidLines (w :: ws) = ⟨w.accountId, w.prizeMinor⟩ :: paidLines ws := by
  simp [paidLines, h]

theorem paidLines_cons_of_zero {w : WinnerLine} (ws : List WinnerLine) (h : w.prizeMinor = 0) :
    paidLines (w :: ws) = paidLines ws := by
  simp [paidLines, h]

/-- A line without an amount is left out, so nothing that ignores such lines misses it. -/
theorem sum_paidLines (f : JournalLine → ℤ) (hf : ∀ line, line.amountMinor = 0 → f line = 0)
    (ws : List WinnerLine) (hpos : ∀ w ∈ ws, 0 ≤ w.prizeMinor) :
    ((paidLines ws).map f).sum = (ws.map (fun w => f ⟨w.accountId, w.prizeMinor⟩)).sum := by
  induction ws with
  | nil => rfl
  | cons w ws ih =>
    have hrest := ih (fun v hv => hpos v (List.mem_cons_of_mem w hv))
    rw [List.map_cons, List.sum_cons, ← hrest]
    rcases (hpos w List.mem_cons_self).lt_or_eq with hw | hw
    · rw [paidLines_cons_of_pos ws hw, List.map_cons, List.sum_cons]
    · rw [paidLines_cons_of_zero ws hw.symm, hf _ hw.symm, zero_add]

theorem lineTotal_paidLines (ws : List WinnerLine) (hpos : ∀ w ∈ ws, 0 ≤ w.prizeMinor) :
    Ledger.lineTotal (paidLines ws) = (ws.map (·.prizeMinor)).sum :=
  sum_paidLines (·.amountMinor) (fun _ h => h) ws hpos

theorem amountOn_paidLines (k : ℕ) (ws : List WinnerLine) (hpos : ∀ w ∈ ws, 0 ≤ w.prizeMinor) :
    Ledger.amountOn k (paidLines ws) =
      (ws.map (fun w => if w.accountId = k then w.prizeMinor else 0)).sum := by
  rw [Ledger.amountOn_eq_sum]
  exact sum_paidLines (fun line => if line.accountId = k then line.amountMinor else 0)
    (fun line h => by rw [h, ite_self]) ws hpos

theorem paidLines_sublist (ws : List WinnerLine) :
    ((paidLines ws).map (·.accountId)).Sublist (ws.map (·.accountId)) := by
  unfold paidLines
  rw [List.map_map]
  exact List.filter_sublist.map _

/-- The prize that the loop over the winners leaves on an entry. -/
def awarded (lines : List WinnerLine) (entryId : ℕ) (prizeMinor : ℤ) : ℤ :=
  lines.foldl (fun p line => if line.winner.entryId = entryId then line.prizeMinor else p)
    prizeMinor

theorem find_awardPrizes (lines : List WinnerLine) (t : Table Entry) (k : ℕ) :
    (awardPrizes t lines).find k =
      (t.find k).map (fun e => { e with prizeMinor := awarded lines k e.prizeMinor }) := by
  induction lines generalizing t with
  | nil =>
    cases h : t.find k <;> simp [awardPrizes, awarded, h]
  | cons line lines ih =>
    change (awardPrizes (t.update line.winner.entryId
      (fun e => { e with prizeMinor := line.prizeMinor }) (fun _ => rfl)) lines).find k = _
    rw [ih, Table.find_update, Option.map_map]
    congr 1
    funext e
    by_cases hk : k = line.winner.entryId
    · simp [awarded, hk]
    · simp [awarded, hk, Ne.symm hk]

theorem awarded_winnersOf (db : Db) (prizes : List ℤ) (ranked : List RankableEntry)
    (hnd : (ranked.map (·.entryId)).Nodup) {i : ℕ} {r : RankableEntry}
    (hi : ranked[i]? = some r) :
    awarded (winnersOf db prizes ranked) r.entryId 0 = prizeAt prizes i := by
  have hfold : ∀ (ps : List ℤ) (rs : List RankableEntry) (p : ℤ), r.entryId ∉ rs.map (·.entryId) →
      awarded (winnersOf db ps rs) r.entryId p = p := by
    intro ps
    induction ps with
    | nil => exact fun _ _ _ => rfl
    | cons q qs ih =>
      intro rs p hnot
      cases rs with
      | nil => rfl
      | cons s ss =>
        rw [List.map_cons, List.mem_cons, not_or] at hnot
        change awarded (winnersOf db qs ss) r.entryId
          (if s.entryId = r.entryId then q else p) = p
        rw [if_neg (Ne.symm hnot.1), ih ss p hnot.2]
  induction prizes generalizing ranked i with
  | nil => simp [winnersOf, awarded, prizeAt]
  | cons p ps ih =>
    cases ranked with
    | nil => simp at hi
    | cons s ss =>
      rw [List.map_cons, List.nodup_cons] at hnd
      change awarded (winnersOf db ps ss) r.entryId (if s.entryId = r.entryId then p else 0) = _
      cases i with
      | zero =>
        simp only [List.getElem?_cons_zero, Option.some.injEq] at hi
        subst hi
        rw [if_pos rfl, hfold ps ss p hnd.1]
        rfl
      | succ i =>
        simp only [List.getElem?_cons_succ] at hi
        have hne : s.entryId ≠ r.entryId := fun heq =>
          hnd.1 (heq ▸ List.mem_map_of_mem (List.mem_of_getElem? hi))
        rw [if_neg hne, ih ss hnd.2 hi]
        rfl

end Winners

section Ranks

theorem find_settleEntries (t : Table Entry) (rows : List (ℕ × ℕ)) (k : ℕ) :
    (settleEntries t rows).find k = (t.find k).map (fun e =>
      if (rows.lookup k).isSome then { e with finalRank := rows.lookup k, status := .settled }
      else e) := by
  rw [settleEntries, Table.find_updateWhere]
  cases h : t.find k with
  | none => rfl
  | some e =>
    have hid : e.id = k := ((Table.find_eq_some_iff _ _ _).1 h).2
    simp only [Option.map_some, hid]

/-- An entry that the batches rank at `n` only, and at least once, ends settled at `n`. -/
theorem find_settled (batches : List (List (ℕ × ℕ))) (t : Table Entry) {k n : ℕ} {e : Entry}
    (hall : ∀ rows ∈ batches, ∀ m, rows.lookup k = some m → m = n) (ht : t.find k = some e)
    (hex : ∃ rows ∈ batches, (rows.lookup k).isSome) :
    (batches.foldl settleEntries t).find k =
      some { e with finalRank := some n, status := .settled } := by
  have hstep : ∀ (rows : List (ℕ × ℕ)) (t : Table Entry) (e : Entry),
      (∀ m, rows.lookup k = some m → m = n) → t.find k = some e →
      (settleEntries t rows).find k =
        some (if (rows.lookup k).isSome then { e with finalRank := some n, status := .settled }
          else e) := by
    intro rows t e hrows ht
    rw [find_settleEntries, ht, Option.map_some]
    cases hl : rows.lookup k with
    | none => rfl
    | some m => rw [hrows m hl]
  have hrest : ∀ (bs : List (List (ℕ × ℕ))) (t : Table Entry) (e : Entry),
      (∀ rows ∈ bs, ∀ m, rows.lookup k = some m → m = n) →
      t.find k = some { e with finalRank := some n, status := .settled } →
      (bs.foldl settleEntries t).find k =
        some { e with finalRank := some n, status := .settled } := by
    intro bs
    induction bs with
    | nil => exact fun _ _ _ ht => ht
    | cons rows bs ih =>
      intro t e hall ht
      refine ih _ e (fun rows' hr => hall rows' (List.mem_cons_of_mem _ hr)) ?_
      rw [hstep rows t _ (hall rows List.mem_cons_self) ht]
      split_ifs <;> rfl
  induction batches generalizing t with
  | nil => simp at hex
  | cons rows bs ih =>
    have hrows := hstep rows t e (hall rows List.mem_cons_self) ht
    have hbs := fun rows' hr => hall rows' (List.mem_cons_of_mem rows hr)
    by_cases hone : (rows.lookup k).isSome
    · rw [if_pos hone] at hrows
      exact hrest bs _ e hbs hrows
    · rw [if_neg hone] at hrows
      obtain ⟨rows', hr, hsome⟩ := hex
      rcases List.mem_cons.1 hr with rfl | hr
      · exact absurd hsome hone
      · exact ih _ hbs hrows ⟨rows', hr, hsome⟩

theorem mem_rankRows {ranked : List RankableEntry} {offset k m : ℕ}
    (h : (k, m) ∈ rankRows ranked offset) :
    ∃ i r, ranked[i]? = some r ∧ r.entryId = k ∧ m = i + 1 := by
  unfold rankRows at h
  obtain ⟨j, hj⟩ := List.mem_iff_getElem?.1 h
  rw [List.getElem?_zipIdx, Option.map_eq_some_iff] at hj
  obtain ⟨id, hid, heq⟩ := hj
  rw [List.getElem?_map, Option.map_eq_some_iff] at hid
  obtain ⟨r, hr, hrid⟩ := hid
  rw [List.getElem?_take] at hr
  split_ifs at hr with hlt
  · rw [List.getElem?_drop] at hr
    obtain ⟨hk, hm⟩ := Prod.mk.injEq _ _ _ _ ▸ heq
    exact ⟨offset + j, r, hr, hrid.trans hk, by omega⟩

theorem rankRows_mem {ranked : List RankableEntry} {i : ℕ} {r : RankableEntry}
    (hi : ranked[i]? = some r) :
    (r.entryId, i + 1) ∈ rankRows ranked (i / chunkSize * chunkSize) := by
  have hmod : i % chunkSize < chunkSize := Nat.mod_lt i (by decide)
  have hsplit : i / chunkSize * chunkSize + i % chunkSize = i := Nat.div_add_mod' i chunkSize
  refine List.mem_iff_getElem?.2 ⟨i % chunkSize, ?_⟩
  rw [rankRows, List.getElem?_zipIdx, List.getElem?_map, List.getElem?_take, if_pos hmod,
    List.getElem?_drop, hsplit, hi]
  simp only [Option.map_some, Option.some.injEq, Prod.mk.injEq, true_and]
  omega

/-- Every ranked entry is ranked by the batches at its own position and nowhere else. -/
theorem rankBatches_spec {ranked : List RankableEntry} (hnd : (ranked.map (·.entryId)).Nodup)
    {i : ℕ} {r : RankableEntry} (hi : ranked[i]? = some r) :
    (∀ rows ∈ rankBatches ranked, ∀ m, rows.lookup r.entryId = some m → m = i + 1) ∧
      ∃ rows ∈ rankBatches ranked, (rows.lookup r.entryId).isSome := by
  have hlt : i < ranked.length := (List.getElem?_eq_some_iff.1 hi).1
  constructor
  · intro rows hrows m hm
    obtain ⟨b, _, rfl⟩ := List.mem_map.1 hrows
    obtain ⟨l₁, l₂, hsplit, _⟩ := List.lookup_eq_some_iff.1 hm
    have hmem : (r.entryId, m) ∈ rankRows ranked (b * chunkSize) := by simp [hsplit]
    obtain ⟨j, r', hj, hid, rfl⟩ := mem_rankRows hmem
    have hij : i = j := by
      refine (List.getElem?_inj (by rwa [List.length_map]) hnd).1 ?_
      rw [List.getElem?_map, List.getElem?_map, hi, hj, Option.map_some, Option.map_some, hid]
    rw [hij]
  · refine ⟨rankRows ranked (i / chunkSize * chunkSize), ?_, ?_⟩
    · refine List.mem_map.2 ⟨i / chunkSize, List.mem_range.2 ?_, rfl⟩
      unfold chunkSize
      omega
    · rw [List.lookup_isSome_iff]
      exact ⟨_, rankRows_mem hi, by simp⟩

end Ranks

end Settlement
end FootballIQ
