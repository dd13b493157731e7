import FootballIQ.Platform
import FootballIQ.PrizeAccounting

/-!
# Settlement conserves the pot

One run of `distribute` on a scored contest commits, empties the escrow into the
platform's commission and the winners' wallets, and settles every entry at its
rank. The template tiles its positions; its rounding never loses or creates a
minor unit, because the first position takes the dust.
-/

namespace FootballIQ
namespace Settlement

open Transaction Relational WalletAccounts Contests Ranking

/-- A scored contest with money in its escrow, at least one active entry, and a
wallet for each of its distinct users. -/
structure Ready (db : Db) (c : Contest) (template : List PayoutRow)
    (escrow platform : LedgerAccount) : Prop where
  contest : db.contests.find c.id = some c
  scored : c.status = .scored
  commission_pos : 1 ≤ c.commissionBps
  commission_le : c.commissionBps ≤ 10000
  template_eq : (db.payoutTemplates.find c.payoutTemplateId).map (·.structure_) = some template
  escrow_eq : ofContest db.ledger.accounts c.id = some escrow
  escrow_type : escrow.type = .contestEscrow
  gross_pos : 0 < escrow.balanceMinor
  platform_eq : ofSystem db.ledger.accounts .platformRevenue = some platform
  entered : activeEntries db c.id ≠ []
  users_nodup : ((activeEntries db c.id).map (·.userId)).Nodup
  wallets : ∀ e ∈ activeEntries db c.id,
    ∃ a, ofUser db.ledger.accounts e.userId .userAvailable "NGN" = some a ∧ 0 ≤ a.balanceMinor
  unprized : ∀ e ∈ activeEntries db c.id, e.prizeMinor = 0
  key_unused : db.ledger.entryByKey (settlementKey c.id) = none

/-- The rows tile the positions up to some `n`, and the first position has a share. -/
def PaysFirst (template : List PayoutRow) : Prop :=
  ∃ n, Tiles template n ∧
    ∃ row ∈ template, 1 ∈ PayoutRow.positions row ∧ 1 ≤ PayoutRow.share row

/-- The prize stored on an entry. -/
def storedPrize (db : Db) (entryId : ℕ) : ℤ :=
  ((db.entries.find entryId).map (·.prizeMinor)).getD 0

/-- What the settlement of `snap` did between `db` and `db'`. -/
structure Conserved (db db' : Db) (snap : SettlementSnapshot) (escrow platform : LedgerAccount)
    (pool : ℤ) : Prop where
  journal : ∃ j, db'.ledger.journal.rows = db.ledger.journal.rows ++ [j] ∧
    j.type = .prizePayout ∧ j.idempotencyKey = settlementKey snap.contest.id ∧
    Ledger.lineTotal j.lines = 0
  escrow_empty : db'.ledger.accounts.find escrow.id = some { escrow with balanceMinor := 0 }
  platform_rise : db'.ledger.accounts.find platform.id = some { platform with
    balanceMinor := platform.balanceMinor + (escrow.balanceMinor - pool) }
  prizes_sum : (snap.ranked.map (fun r => storedPrize db' r.entryId)).sum = pool
  positions : ∀ i r, snap.ranked[i]? = some r → ∃ e wallet,
    db'.entries.find r.entryId = some e ∧ e.userId = r.userId ∧ e.status = .settled ∧
      e.finalRank = some (i + 1) ∧
      ofUser db.ledger.accounts r.userId .userAvailable "NGN" = some wallet ∧
      db'.ledger.accounts.find wallet.id = some { wallet with
        balanceMinor := wallet.balanceMinor + e.prizeMinor }
  contest_settled : ∃ c, db'.contests.find snap.contest.id = some c ∧ c.status = .settled

section Run
variable {db : Db} {c : Contest} {template : List PayoutRow} {escrow platform : LedgerAccount}

def snapshotOf (drawHash : ℕ → ℕ → String) (db : Db) (c : Contest) (template : List PayoutRow) :
    SettlementSnapshot :=
  ⟨c, template, rankEntries drawHash c.id ((activeEntries db c.id).map rankable)⟩

theorem Ready.read (h : Ready db c template escrow platform) (drawHash : ℕ → ℕ → String) :
    distributeRead drawHash c.id db = some (snapshotOf drawHash db c template) := by
  obtain ⟨t, ht, rfl⟩ := Option.map_eq_some_iff.1 h.template_eq
  simp [distributeRead, h.contest, ht, h.scored, snapshotOf]

/-- The pool of the code, with its division that truncates, is the floor. -/
theorem poolOf_eq {gross bps : ℤ} (hgross : 0 ≤ gross) (hbps : bps ≤ 10000) :
    poolOf gross bps = gross * (10000 - bps) / 10000 := by
  rw [poolOf, Int.tdiv_eq_ediv_of_nonneg (mul_nonneg hgross (by omega))]

theorem pool_bounds {gross bps : ℤ} (hgross : 0 < gross) (hpos : 1 ≤ bps) (hbps : bps ≤ 10000) :
    0 ≤ gross * (10000 - bps) / 10000 ∧ gross * (10000 - bps) / 10000 < gross := by
  constructor
  · exact Int.ediv_nonneg (mul_nonneg hgross.le (by omega)) (by omega)
  · rw [Int.ediv_lt_iff_lt_mul (by omega)]
    nlinarith

theorem Ready.ranked_perm (drawHash : ℕ → ℕ → String) :
    (snapshotOf drawHash db c template).ranked.Perm ((activeEntries db c.id).map rankable) :=
  rankEntries_perm drawHash c.id _

theorem entryIds_nodup (db : Db) (c : Contest) (template : List PayoutRow)
    (drawHash : ℕ → ℕ → String) :
    ((snapshotOf drawHash db c template).ranked.map (·.entryId)).Nodup := by
  refine ((rankEntries_perm drawHash c.id _).map _).nodup_iff.2 ?_
  rw [List.map_map]
  exact ids_activeEntries db c.id

theorem Ready.wallet_of (h : Ready db c template escrow platform) (drawHash : ℕ → ℕ → String)
    {r : RankableEntry} (hr : r ∈ (snapshotOf drawHash db c template).ranked) :
    ∃ a, ofUser db.ledger.accounts r.userId .userAvailable "NGN" = some a ∧
      0 ≤ a.balanceMinor := by
  obtain ⟨e, he, rfl⟩ := List.mem_map.1 ((rankEntries_perm drawHash c.id _).subset hr)
  exact h.wallets e he

/-- Distinct users have distinct wallets. -/
theorem Ready.walletIds_nodup (h : Ready db c template escrow platform)
    (drawHash : ℕ → ℕ → String) :
    ((snapshotOf drawHash db c template).ranked.map (fun r => walletId db r.userId)).Nodup := by
  have husers : ((snapshotOf drawHash db c template).ranked.map (·.userId)).Nodup := by
    refine ((rankEntries_perm drawHash c.id _).map _).nodup_iff.2 ?_
    rw [List.map_map]
    exact h.users_nodup
  have hcomp : (snapshotOf drawHash db c template).ranked.map (fun r => walletId db r.userId) =
      ((snapshotOf drawHash db c template).ranked.map (·.userId)).map (walletId db) := by
    rw [List.map_map]
    rfl
  rw [hcomp]
  refine List.Nodup.map_on ?_ husers
  intro u hu v hv heq
  obtain ⟨r, hr, rfl⟩ := List.mem_map.1 hu
  obtain ⟨q, hq, rfl⟩ := List.mem_map.1 hv
  obtain ⟨a, ha, _⟩ := h.wallet_of drawHash hr
  obtain ⟨b, hb, _⟩ := h.wallet_of drawHash hq
  rw [walletId_eq ha, walletId_eq hb] at heq
  obtain ⟨hma, hua, _⟩ := ofUser_some ha
  obtain ⟨hmb, hub, _⟩ := ofUser_some hb
  have hab : a = b := db.ledger.accounts.eq_of_id_eq hma hmb heq
  rw [hab, hub] at hua
  exact (Option.some.inj hua).symm

theorem Ready.find_escrow (h : Ready db c template escrow platform) :
    db.ledger.accounts.find escrow.id = some escrow :=
  db.ledger.accounts.find_id (ofContest_some h.escrow_eq).1

theorem Ready.find_platform (h : Ready db c template escrow platform) :
    db.ledger.accounts.find platform.id = some platform :=
  db.ledger.accounts.find_id (ofSystem_some h.platform_eq).1

/-- Escrow, platform and wallets are pairwise different accounts. -/
theorem Ready.accounts_ne (h : Ready db c template escrow platform) :
    escrow.id ≠ platform.id ∧ ∀ u a, ofUser db.ledger.accounts u .userAvailable "NGN" = some a →
      a.id ≠ escrow.id ∧ a.id ≠ platform.id := by
  obtain ⟨hme, hce⟩ := ofContest_some h.escrow_eq
  obtain ⟨hmp, _, hup, hcp, _⟩ := ofSystem_some h.platform_eq
  refine ⟨?_, fun u a ha => ?_⟩
  · intro heq
    rw [db.ledger.accounts.eq_of_id_eq hme hmp heq, hcp] at hce
    cases hce
  · obtain ⟨hma, hua, hta, _⟩ := ofUser_some ha
    constructor
    · intro heq
      have htype := h.escrow_type
      rw [← db.ledger.accounts.eq_of_id_eq hma hme heq, hta] at htype
      cases htype
    · intro heq
      rw [db.ledger.accounts.eq_of_id_eq hma hmp heq, hup] at hua
      cases hua

end Run

/-- Prizes without holes for at most `n` positions, of less than `gross` altogether. -/
structure Fits (prizes : List ℤ) (n : ℕ) (gross : ℤ) : Prop where
  length_le : prizes.length ≤ n
  nonneg : ∀ p ∈ prizes, 0 ≤ p
  sum_lt : prizes.sum < gross

section Posting
variable {db : Db} {c : Contest} {template : List PayoutRow} {escrow platform : LedgerAccount}
  {drawHash : ℕ → ℕ → String} {prizes : List ℤ}

/-- The winner lines of the settlement. -/
def winnersIn (drawHash : ℕ → ℕ → String) (prizes : List ℤ) (db : Db) (c : Contest)
    (template : List PayoutRow) : List WinnerLine :=
  winnersOf db prizes (snapshotOf drawHash db c template).ranked

/-- The posting of the settlement. -/
def payout (drawHash : ℕ → ℕ → String) (prizes : List ℤ) (db : Db) (c : Contest)
    (template : List PayoutRow) (escrow platform : LedgerAccount) : PostJournalInput :=
  payoutInput c escrow platform (escrow.balanceMinor - prizes.sum)
    (winnersIn drawHash prizes db c template)

theorem mem_winnersIn {w : WinnerLine} (hw : w ∈ winnersIn drawHash prizes db c template) :
    w.prizeMinor ∈ prizes ∧ w.winner ∈ (snapshotOf drawHash db c template).ranked ∧
      w.accountId = walletId db w.winner.userId := by
  obtain ⟨⟨p, r⟩, hp, rfl⟩ := List.mem_map.1 hw
  exact ⟨(List.of_mem_zip hp).1, (List.of_mem_zip hp).2, rfl⟩

theorem winnersIn_nonneg (hfit : Fits prizes (activeEntries db c.id).length escrow.balanceMinor) :
    ∀ w ∈ winnersIn drawHash prizes db c template, 0 ≤ w.prizeMinor :=
  fun _ hw => hfit.nonneg _ (mem_winnersIn hw).1

theorem winnersIn_sum (hfit : Fits prizes (activeEntries db c.id).length escrow.balanceMinor) :
    ((winnersIn drawHash prizes db c template).map (·.prizeMinor)).sum = prizes.sum := by
  have hlen : prizes.length ≤ (snapshotOf drawHash db c template).ranked.length := by
    rw [(Ready.ranked_perm drawHash).length_eq, List.length_map]
    exact hfit.length_le
  rw [winnersIn, winnersOf, List.map_map]
  exact sum_zip_fst prizes _ hlen

theorem winnersIn_ids_nodup (h : Ready db c template escrow platform) :
    ((winnersIn drawHash prizes db c template).map (·.accountId)).Nodup := by
  have hids : (winnersIn drawHash prizes db c template).map (·.accountId) =
      ((prizes.zip (snapshotOf drawHash db c template).ranked).map Prod.snd).map
        (fun r => walletId db r.userId) := by
    rw [winnersIn, winnersOf, List.map_map, List.map_map]
    rfl
  rw [hids]
  exact ((map_snd_zip_sublist prizes _).map _).nodup (h.walletIds_nodup drawHash)

/-- A paid account is a wallet, and neither the escrow nor the platform. -/
theorem paid_account (h : Ready db c template escrow platform) {k : ℕ}
    (hk : k ∈ (paidLines (winnersIn drawHash prizes db c template)).map (·.accountId)) :
    (∃ a, db.ledger.accounts.find k = some a ∧ a.type = .userAvailable ∧ 0 ≤ a.balanceMinor) ∧
      k ≠ escrow.id ∧ k ≠ platform.id := by
  obtain ⟨w, hw, rfl⟩ := List.mem_map.1 ((paidLines_sublist _).subset hk)
  obtain ⟨_, hr, hacc⟩ := mem_winnersIn hw
  obtain ⟨a, ha, hbal⟩ := h.wallet_of drawHash hr
  obtain ⟨hne, hne'⟩ := h.accounts_ne.2 _ a ha
  obtain ⟨hmem, _, htype, _⟩ := ofUser_some ha
  rw [hacc, walletId_eq ha]
  exact ⟨⟨a, db.ledger.accounts.find_id hmem, htype, hbal⟩, hne, hne'⟩

theorem payout_nodup (h : Ready db c template escrow platform) :
    ((payout drawHash prizes db c template escrow platform).lines.map (·.accountId)).Nodup := by
  change (escrow.id :: platform.id :: (paidLines _).map (·.accountId)).Nodup
  rw [List.nodup_cons, List.nodup_cons, List.mem_cons, not_or]
  refine ⟨⟨h.accounts_ne.1, ?_⟩, ?_, (paidLines_sublist _).nodup (winnersIn_ids_nodup h)⟩
  · exact fun hk => (paid_account h hk).2.1 rfl
  · exact fun hk => (paid_account h hk).2.2 rfl

theorem payout_valid (h : Ready db c template escrow platform)
    (hfit : Fits prizes (activeEntries db c.id).length escrow.balanceMinor) :
    Ledger.validateLines (payout drawHash prizes db c template escrow platform).lines =
      .ok () := by
  have htotal : Ledger.lineTotal (paidLines (winnersIn drawHash prizes db c template)) =
      prizes.sum :=
    (lineTotal_paidLines _ (winnersIn_nonneg hfit)).trans (winnersIn_sum hfit)
  have hgross := h.gross_pos
  have hless := hfit.sum_lt
  rw [Ledger.validateLines_ok_iff]
  change 2 ≤ List.length (_ :: _ :: _) ∧ (∀ line ∈ _ :: _ :: _, _) ∧
    Ledger.lineTotal (⟨escrow.id, -escrow.balanceMinor⟩ ::
      ⟨platform.id, escrow.balanceMinor - prizes.sum⟩ :: paidLines _) = 0
  refine ⟨by simp, ?_, ?_⟩
  · intro line hline
    rcases List.mem_cons.1 hline with rfl | hline
    · simp only
      omega
    · rcases List.mem_cons.1 hline with rfl | hline
      · simp only
        omega
      · obtain ⟨w, hw, rfl⟩ := List.mem_map.1 hline
        have hpos : 0 < w.prizeMinor := by simpa using (List.mem_filter.1 hw).2
        exact hpos.ne'
  · simp only [Ledger.lineTotal, List.map_cons, List.sum_cons] at htotal ⊢
    rw [htotal]
    ring

theorem payout_accounts (h : Ready db c template escrow platform) :
    ∀ line ∈ (payout drawHash prizes db c template escrow platform).lines,
      ∃ a, db.ledger.accounts.find line.accountId = some a := by
  intro line hline
  rcases List.mem_cons.1 hline with rfl | hline
  · exact ⟨escrow, h.find_escrow⟩
  · rcases List.mem_cons.1 hline with rfl | hline
    · exact ⟨platform, h.find_platform⟩
    · obtain ⟨⟨a, ha, _⟩, _⟩ := paid_account h (List.mem_map_of_mem hline)
      exact ⟨a, ha⟩

theorem payout_covers (h : Ready db c template escrow platform) :
    Ledger.Covers db.ledger.accounts
      (payout drawHash prizes db c template escrow platform).lines := by
  intro line hline a ha ht
  rw [Ledger.amountOn_of_nodup (payout_nodup h) hline]
  rcases List.mem_cons.1 hline with rfl | hline
  · have hae : a = escrow := Option.some.inj (ha.symm.trans h.find_escrow)
    simp [hae]
  · rcases List.mem_cons.1 hline with rfl | hline
    · have hap : a = platform := Option.some.inj (ha.symm.trans h.find_platform)
      rw [hap, (ofSystem_some h.platform_eq).2.1] at ht
      simp [Ledger.nonNegativeAccountTypes] at ht
    · obtain ⟨⟨b, hb, _, hbal⟩, _⟩ := paid_account h (List.mem_map_of_mem hline)
      have hab : a = b := Option.some.inj (ha.symm.trans hb)
      obtain ⟨w, hw, rfl⟩ := List.mem_map.1 hline
      have hpos : 0 < w.prizeMinor := by simpa using (List.mem_filter.1 hw).2
      rw [hab]
      exact add_nonneg hbal hpos.le

theorem post_payout (h : Ready db c template escrow platform)
    (hfit : Fits prizes (activeEntries db c.id).length escrow.balanceMinor) :
    Ledger.post (payout drawHash prizes db c template escrow platform) db.ledger =
      .ok (db.ledger.journal.fresh,
        Ledger.posted db.ledger (payout drawHash prizes db c template escrow platform)) := by
  refine Ledger.post_of_nodup (payout_valid h hfit) h.key_unused (payout_nodup h) ?_
    (payout_covers h)
  intro line hline
  obtain ⟨a, ha⟩ := payout_accounts h line hline
  rw [ha]
  exact Option.some_ne_none a

/-- An account after the posting: its balance moved by the line on it. -/
theorem balance_after {k : ℕ} {a : LedgerAccount} (ha : db.ledger.accounts.find k = some a) :
    (Ledger.posted db.ledger
      (payout drawHash prizes db c template escrow platform)).accounts.find k =
        some { a with balanceMinor := a.balanceMinor +
          Ledger.amountOn k (payout drawHash prizes db c template escrow platform).lines } := by
  rw [Ledger.posted, Ledger.find_creditAll, ha]
  rfl

theorem amountOn_escrow (h : Ready db c template escrow platform) :
    Ledger.amountOn escrow.id (payout drawHash prizes db c template escrow platform).lines =
      -escrow.balanceMinor := by
  have hmem : (⟨escrow.id, -escrow.balanceMinor⟩ : JournalLine) ∈
      (payout drawHash prizes db c template escrow platform).lines := List.mem_cons_self
  exact Ledger.amountOn_of_nodup (payout_nodup h) hmem

theorem amountOn_platform (h : Ready db c template escrow platform) :
    Ledger.amountOn platform.id (payout drawHash prizes db c template escrow platform).lines =
      escrow.balanceMinor - prizes.sum := by
  have hmem : (⟨platform.id, escrow.balanceMinor - prizes.sum⟩ : JournalLine) ∈
      (payout drawHash prizes db c template escrow platform).lines :=
    List.mem_cons_of_mem _ List.mem_cons_self
  exact Ledger.amountOn_of_nodup (payout_nodup h) hmem

theorem amountOn_wallet (h : Ready db c template escrow platform)
    (hfit : Fits prizes (activeEntries db c.id).length escrow.balanceMinor) {i : ℕ}
    {r : RankableEntry} (hi : (snapshotOf drawHash db c template).ranked[i]? = some r) :
    Ledger.amountOn (walletId db r.userId)
      (payout drawHash prizes db c template escrow platform).lines = prizeAt prizes i := by
  obtain ⟨a, ha, _⟩ := h.wallet_of drawHash (List.mem_of_getElem? hi)
  obtain ⟨hne, hne'⟩ := h.accounts_ne.2 _ a ha
  have hlines : (payout drawHash prizes db c template escrow platform).lines =
      ⟨escrow.id, -escrow.balanceMinor⟩ :: ⟨platform.id, escrow.balanceMinor - prizes.sum⟩ ::
        paidLines (winnersIn drawHash prizes db c template) := rfl
  rw [hlines, Ledger.amountOn_cons, Ledger.amountOn_cons, walletId_eq ha, if_neg hne.symm,
    if_neg hne'.symm, zero_add, zero_add, amountOn_paidLines _ _ (winnersIn_nonneg hfit),
    ← walletId_eq ha, winnersIn, winnersOf, List.map_map]
  exact sum_paid_at (fun r => walletId db r.userId) prizes _ (h.walletIds_nodup drawHash) hi

end Posting

section Settling
variable {db : Db} {c : Contest} {template : List PayoutRow} {escrow platform : LedgerAccount}
  {drawHash : ℕ → ℕ → String} {prizes : List ℤ}

/-- The entry behind a ranked row. -/
theorem ranked_entry (h : Ready db c template escrow platform) {r : RankableEntry}
    (hr : r ∈ (snapshotOf drawHash db c template).ranked) :
    ∃ e, db.entries.find r.entryId = some e ∧ e.userId = r.userId ∧ e.prizeMinor = 0 := by
  obtain ⟨e, he, rfl⟩ := List.mem_map.1 ((Ready.ranked_perm drawHash).subset hr)
  exact ⟨e, find_of_active he, rfl, h.unprized e he⟩

/-- The state after the payout: the posting, and the prizes on the entries. -/
theorem payOut_commits (drawHash : ℕ → ℕ → String) (h : Ready db c template escrow platform)
    (hfit : Fits prizes (activeEntries db c.id).length escrow.balanceMinor)
    (hprizes : computePrizes (poolOf escrow.balanceMinor c.commissionBps) template
      (activeEntries db c.id).length = .ok (prizes.map some)) :
    ∃ ns, payOut (snapshotOf drawHash db c template) escrow platform db = .ok (⟨⟩, { db with
      ledger := Ledger.posted db.ledger (payout drawHash prizes db c template escrow platform)
      entries := awardPrizes db.entries (winnersIn drawHash prizes db c template)
      notifications := ns }) := by
  have hlen : (snapshotOf drawHash db c template).ranked.length =
      (activeEntries db c.id).length := by
    rw [(Ready.ranked_perm drawHash).length_eq, List.length_map]
  have hwin : winnerLines ((prizes.map some).zip (snapshotOf drawHash db c template).ranked) db =
      .ok (winnersIn drawHash prizes db c template, db) :=
    winnerLines_of_wallets db prizes _ (fun r hr =>
      (h.wallet_of drawHash hr).imp (fun a ha => ha.1))
  have hpost : Ledger.post (payoutInput c escrow platform
      (escrow.balanceMinor - (prizes.map some).reduceOption.sum)
      (winnersIn drawHash prizes db c template)) db.ledger = .ok (db.ledger.journal.fresh,
        Ledger.posted db.ledger (payout drawHash prizes db c template escrow platform)) := by
    rw [reduceOption_map_some]
    exact post_payout h hfit
  obtain ⟨r, hr⟩ := recordPrizes_commits c (winnersIn drawHash prizes db c template)
    { db with
      ledger := Ledger.posted db.ledger (payout drawHash prizes db c template escrow platform) }
    (fun w hw => (ranked_entry h (mem_winnersIn hw).2.1).imp (fun e he => he.1))
  obtain ⟨ns, hdb⟩ := recordPrizes_ok hr
  refine ⟨ns, ?_⟩
  simp only [payOut, bind_ok_iff, check_ok_iff, Db.post_ok_iff, assertEscrowEmpty_ok_iff]
  refine ⟨prizes.map some, db, ⟨hlen ▸ hprizes, rfl⟩, _, db, hwin, _, _, ⟨_, hpost, rfl⟩, ⟨⟩, _,
    ⟨⟨_, balance_after h.find_escrow, ?_⟩, rfl⟩, ?_⟩
  · simp only
    rw [amountOn_escrow h, add_neg_cancel]
  · rw [← hdb]
    exact hr

/-- The entry at a position of the ranking, once the settlement has committed. -/
theorem entry_after (prizes : List ℤ) (h : Ready db c template escrow platform) {i : ℕ} {r : RankableEntry}
    (hi : (snapshotOf drawHash db c template).ranked[i]? = some r) :
    ∃ e, ((rankBatches (snapshotOf drawHash db c template).ranked).foldl settleEntries
        (awardPrizes db.entries (winnersIn drawHash prizes db c template))).find r.entryId =
          some e ∧ e.userId = r.userId ∧ e.status = .settled ∧ e.finalRank = some (i + 1) ∧
      e.prizeMinor = prizeAt prizes i := by
  obtain ⟨e, he, huser, hzero⟩ := ranked_entry h (List.mem_of_getElem? hi)
  have hnd := entryIds_nodup db c template drawHash
  obtain ⟨hall, hex⟩ := rankBatches_spec hnd hi
  have hfind : (awardPrizes db.entries (winnersIn drawHash prizes db c template)).find r.entryId =
      some { e with prizeMinor := prizeAt prizes i } := by
    rw [find_awardPrizes, he, Option.map_some, hzero, winnersIn,
      awarded_winnersOf db prizes _ hnd hi]
  exact ⟨_, find_settled _ _ hall hfind hex, huser, rfl, rfl, rfl⟩

theorem conserved_of_commit (h : Ready db c template escrow platform)
    (hfit : Fits prizes (activeEntries db c.id).length escrow.balanceMinor) (now : DateTime)
    (ns : List Notification) :
    Conserved db { db with
      ledger := Ledger.posted db.ledger (payout drawHash prizes db c template escrow platform)
      entries := (rankBatches (snapshotOf drawHash db c template).ranked).foldl settleEntries
        (awardPrizes db.entries (winnersIn drawHash prizes db c template))
      contests := db.contests.update c.id
        (fun c => { c with status := .settled, settledAt := some now }) (fun _ => rfl)
      notifications := ns
      outbox := db.outbox ++ [.prizesDistributed c.id] }
      (snapshotOf drawHash db c template) escrow platform prizes.sum where
  journal := ⟨Ledger.entryOf (payout drawHash prizes db c template escrow platform) _, rfl, rfl,
    rfl, ((Ledger.validateLines_ok_iff _ _).1 (payout_valid h hfit)).2.2⟩
  escrow_empty := by
    refine (balance_after h.find_escrow).trans ?_
    rw [amountOn_escrow h, add_neg_cancel]
  platform_rise := by
    refine (balance_after h.find_platform).trans ?_
    rw [amountOn_platform h]
  prizes_sum := by
    have hlen : prizes.length ≤ (snapshotOf drawHash db c template).ranked.length := by
      rw [(Ready.ranked_perm drawHash).length_eq, List.length_map]
      exact hfit.length_le
    rw [← sum_prizeAt prizes _ hlen]
    congr 1
    refine List.ext_getElem? (fun i => ?_)
    rw [List.getElem?_map, List.getElem?_map]
    cases hi : (snapshotOf drawHash db c template).ranked[i]? with
    | none =>
      rw [List.getElem?_eq_none]
      · rfl
      · rw [List.length_range]
        exact List.getElem?_eq_none_iff.1 hi
    | some r =>
      obtain ⟨e, he, _, _, _, hprize⟩ := entry_after prizes h hi
      rw [List.getElem?_range (List.getElem?_eq_some_iff.1 hi).1, Option.map_some,
        Option.map_some, ← hprize]
      simp [storedPrize, he]
  positions := by
    intro i r hi
    obtain ⟨e, he, huser, hstatus, hrank, hprize⟩ := entry_after prizes h hi
    obtain ⟨a, ha, _⟩ := h.wallet_of drawHash (List.mem_of_getElem? hi)
    refine ⟨e, a, he, huser, hstatus, hrank, ha, ?_⟩
    refine (balance_after (db.ledger.accounts.find_id (ofUser_some ha).1)).trans ?_
    rw [hprize, ← amountOn_wallet h hfit hi, walletId_eq ha]
    rfl
  contest_settled := ⟨{ c with status := .settled, settledAt := some now },
    Table.find_update_self db.contests
      (fun c => { c with status := .settled, settledAt := some now }) (fun _ => rfl) h.contest, rfl⟩

end Settling

/-- One run of `distribute` on a scored contest with a pot commits and conserves
the pot: every minor unit of the escrow ends as commission or in a winner's wallet. -/
theorem distribute_conserves (drawHash : ℕ → ℕ → String) (now : DateTime) {db : Db} {c : Contest}
    {template : List PayoutRow} {escrow platform : LedgerAccount}
    (h : Ready db c template escrow platform) (ht : PaysFirst template) :
    ∃ snap db', distributeRead drawHash c.id db = some snap ∧ snap.contest = c ∧
      snap.ranked.Perm ((activeEntries db c.id).map rankable) ∧
      distributeTx now snap db = .ok (⟨⟩, db') ∧
      Conserved db db' snap escrow platform
        (escrow.balanceMinor * (10000 - c.commissionBps) / 10000) := by
  obtain ⟨n, htiles, row, hrow, hone, hshare⟩ := ht
  obtain ⟨hpool, hless⟩ := pool_bounds h.gross_pos h.commission_pos h.commission_le
  have hentrants : 1 ≤ (activeEntries db c.id).length :=
    List.length_pos_iff.2 h.entered
  rw [← poolOf_eq h.gross_pos.le h.commission_le] at hpool hless ⊢
  obtain ⟨prizes, hprizes, hlen, hpos, hsum⟩ :=
    computePrizes_of_tiles htiles hrow hone hshare hentrants hpool
  have hfit : Fits prizes (activeEntries db c.id).length escrow.balanceMinor :=
    ⟨hlen, hpos, hsum ▸ hless⟩
  obtain ⟨ns, hpay⟩ := payOut_commits drawHash h hfit hprizes
  refine ⟨snapshotOf drawHash db c template, _, h.read drawHash, rfl, Ready.ranked_perm drawHash,
    (distributeTx_ok_iff now _ db _).2 ⟨escrow, platform, _, h.escrow_eq, h.platform_eq,
      Or.inl ⟨h.gross_pos, ?_, hpay⟩, ?_, rfl⟩, ?_⟩
  · rw [← List.length_pos_iff, (Ready.ranked_perm drawHash).length_eq, List.length_map]
    exact hentrants
  · change db.contests.find c.id ≠ none
    rw [h.contest]
    exact Option.some_ne_none c
  · rw [← hsum]
    exact conserved_of_commit h hfit now ns

section Sample

/-- Two entrants of a contest with a fee of 1000, and a template for three positions. -/
def scoredContest : Contest := { Platform.openContest 1 with status := .scored }

def potEscrow : LedgerAccount := ⟨2, .contestEscrow, none, some 1, "NGN", 2000⟩

def platformAccount : LedgerAccount := ⟨1, .platformRevenue, none, none, "NGN", 0⟩

def threePositions : List PayoutRow := [⟨1, 1, 5000⟩, ⟨2, 3, 5000⟩]

def scoredDb : Db :=
  { Db.empty with
    ledger := ⟨⟨[platformAccount, potEscrow, ⟨3, .userAvailable, some 7, none, "NGN", 50⟩,
      ⟨4, .userAvailable, some 8, none, "NGN", 0⟩], by decide⟩, Table.empty⟩
    contests := ⟨[scoredContest], by decide⟩
    entries := ⟨[⟨1, 1, 7, .active, 1, 10, 250, 3, 1, 1, none, 0, none, none⟩,
      ⟨2, 1, 8, .active, 2, 11, 400, 4, 1, 1, none, 0, none, none⟩], by decide⟩
    payoutTemplates := ⟨[⟨1, true, threePositions⟩], by decide⟩ }

theorem scoredDb_ready : Ready scoredDb scoredContest threePositions potEscrow platformAccount where
  contest := by decide
  scored := rfl
  commission_pos := by decide
  commission_le := by decide
  template_eq := by decide
  escrow_eq := by decide
  escrow_type := rfl
  gross_pos := by decide
  platform_eq := by decide
  entered := by decide
  users_nodup := by decide
  wallets := by
    intro e he
    have hcases : e.userId = 7 ∨ e.userId = 8 := by
      revert e
      decide
    rcases hcases with hu | hu
    · rw [hu]
      exact ⟨⟨3, .userAvailable, some 7, none, "NGN", 50⟩, by decide, by decide⟩
    · rw [hu]
      exact ⟨⟨4, .userAvailable, some 8, none, "NGN", 0⟩, by decide, by decide⟩
  unprized := by decide
  key_unused := by decide

theorem distribute_conserves_sample :
    ∃ snap db', distributeRead (fun c e => toString c ++ ":" ++ toString e) 1 scoredDb = some snap ∧
      snap.contest = scoredContest ∧
      snap.ranked.Perm ((activeEntries scoredDb 1).map rankable) ∧
      distributeTx 100 snap scoredDb = .ok (⟨⟩, db') ∧
      Conserved scoredDb db' snap potEscrow platformAccount 1700 :=
  distribute_conserves _ 100 scoredDb_ready
    ⟨3, by decide, ⟨1, 1, 5000⟩, by decide, by decide, by decide⟩

end Sample

end Settlement
end FootballIQ
