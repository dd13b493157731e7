import FootballIQ.EscrowPot

/-!
# The escrow pays out one way only

Cancellations and settlements act on what they read earlier and look at no
status in their transactions. The pot of a contest still leaves its escrow once,
because both insist on an empty escrow at their end: refunds need the whole pot
for their entrants, a payout needs a new journal entry, and over an empty escrow
neither moves anything.
-/

namespace FootballIQ
namespace EscrowExit

open Transaction Relational Interleaving WalletAccounts Contests Settlement Ranking Platform

section Refunds
variable {pot : Pot} {snap : CancelSnapshot} {reason : String}

/-- The loop posts one refund for each entry whose key is unused, and each takes a fee
out of the escrow; the other turns are replays. -/
theorem refunds_ok {escrow : LedgerAccount} (hesc : snap.escrow = some escrow)
    (hid : escrow.id = pot.escrowId) (hfee : snap.contest.entryFeeMinor = pot.feeMinor)
    (es : List Entry) {db : Db} {r : PUnit × Db}
    (h : (forM es (refundEntry snap reason) : Tx Failure Db PUnit) db = .ok r)
    (hwallet : ∀ id, Ledger.IsWallet db.ledger.accounts id → id ≠ pot.escrowId) :
    ∃ es' js, es'.Sublist es ∧ Table.Same Ledger.owner db.ledger.accounts r.2.ledger.accounts ∧
      r.2.ledger.journal.rows = db.ledger.journal.rows ++ js ∧
      List.Forall₂ (pot.IsRefund db) (es'.map entrant) js ∧
      (∀ amount, pot.Holds db amount → pot.Holds r.2 (amount - pot.feeMinor * es'.length)) ∧
      (es' = [] → r.2.ledger = db.ledger) := by
  induction es generalizing db with
  | nil =>
    rw [forM_nil_ok_iff] at h
    rw [← h]
    exact ⟨[], [], List.Sublist.refl _, Table.Same.refl _ _, by simp, List.Forall₂.nil,
      by simp, fun _ => rfl⟩
  | cons e es ih =>
    obtain ⟨db₁, hone, hrest⟩ := (forM_cons_ok_iff _ _ _ _ _).1 h
    obtain ⟨wallet, escrow', id, l, hw, hesc', hpost, rfl⟩ := refundEntry_ok hone
    have hee : escrow' = escrow := Option.some.inj (hesc'.symm.trans hesc)
    subst hee
    obtain ⟨_, ⟨_, _, _, rfl⟩ | ⟨_, _, rfl, _, _⟩⟩ := Ledger.post_ok_cases hpost
    · obtain ⟨es', js, hsub, hsame, hjs, hall, hholds, hnil⟩ := ih hrest hwallet
      refine ⟨es', js, hsub.cons e, hsame, hjs, hall.imp ?_, hholds, hnil⟩
      exact fun p j hj => isRefund_frame hj (Table.Same.refl _ _)
    · have hsame := Ledger.same_creditAll db.ledger.accounts
        (refundInput snap.contest reason e escrow' wallet).lines
      obtain ⟨es', js, hsub, hsame', hjs, hall, hholds, _⟩ :=
        ih hrest (fun id hid => hwallet id (hid.of_same hsame))
      refine ⟨e :: es', Ledger.entryOf (refundInput snap.contest reason e escrow' wallet)
        db.ledger.journal.fresh :: js, hsub.cons_cons e, hsame.trans hsame', ?_,
        List.Forall₂.cons ?_ (hall.imp ?_), ?_, by simp⟩
      · rw [hjs]
        change (db.ledger.journal.rows ++ [_]) ++ js = _
        rw [List.append_assoc]
        rfl
      · obtain ⟨hmem, huser, htype, _⟩ := ofUser_some hw
        exact ⟨rfl, rfl, wallet, hmem, huser, htype, by rw [← hid, ← hfee]; rfl⟩
      · rintro p j ⟨htype, hkey, wallet', hmem', huser', htype', hlines⟩
        obtain ⟨wallet, hmem, howner⟩ := hsame.mem hmem'
        exact ⟨htype, hkey, wallet, hmem, (Ledger.userId_of_owner howner).trans huser',
          (Ledger.type_of_owner howner).trans htype', by rw [hlines, Ledger.id_of_owner howner]⟩
      · rintro amount ⟨a, ha, rfl⟩
        have hne : wallet.id ≠ pot.escrowId := hwallet _ (Ledger.isWallet_ofUser hw)
        have hheld := hholds (a.balanceMinor - pot.feeMinor) ⟨_, by
          change (Ledger.creditAll _ _).find _ = _
          rw [Ledger.find_creditAll, ha, Option.map_some], by
          simp only [refundInput, Ledger.amountOn_cons, Ledger.amountOn_nil, if_pos hid,
            if_neg hne, hfee]
          ring⟩
        rw [List.length_cons, Nat.cast_succ]
        convert hheld using 1
        ring

end Refunds

section Own
variable {pot : Pot} {db : Db}

theorem unwatched_frame {tick : Tick} {t : Task} (drawHash : ℕ → ℕ → String)
    (hG : NoNewEntry tick t db) :
    Frame NotFee unwatched db (step drawHash tick t db).1 :=
  frame_notFee drawHash tick t db (by rintro slip rfl; exact hG) (by rintro c lockAt rfl; exact hG)

theorem isRefund_touches {p : Entrant} {j : JournalEntry} (h : pot.IsRefund db p j) :
    pot.Touches j := by
  obtain ⟨wallet, _, _, _, hlines⟩ := h.lines
  exact ⟨_, hlines ▸ List.mem_cons_self, rfl⟩

theorem holds_unique {a b : ℤ} (ha : pot.Holds db a) (hb : pot.Holds db b) : a = b := by
  obtain ⟨x, hx, rfl⟩ := ha
  obtain ⟨y, hy, rfl⟩ := hb
  rw [Option.some.inj (hx.symm.trans hy)]

theorem holds_of_ledger {db' : Db} (hl : db'.ledger = db.ledger) {amount : ℤ}
    (h : pot.Holds db amount) : pot.Holds db' amount := by
  unfold Pot.Holds
  rwa [hl]

theorem movements_of_ledger {db' : Db} (hl : db'.ledger = db.ledger) :
    pot.movements db' = pot.movements db := by
  unfold Pot.movements Pot.journalOf
  rw [hl]

theorem isClosed_update {contests : Table Contest} {f : Contest → Contest}
    (hf : ∀ c, Row.id (f c) = Row.id c) (hex : contests.find pot.contestId ≠ none)
    (hstatus : ∀ c, (f c).status ∈ closedStatuses)
    (hdb : db.contests = contests.update pot.contestId f hf) : pot.IsClosed db := by
  obtain ⟨c, hc⟩ := Option.ne_none_iff_exists'.1 hex
  exact ⟨f c, hdb ▸ Table.find_update_self _ _ hf hc, hstatus c⟩

theorem pot_pos (hs : Static pot db) : 0 < pot.feeMinor * pot.entrants.length :=
  mul_pos hs.fee_pos (by exact_mod_cast List.length_pos_iff.2 hs.nonempty)

/-- Over an unmoved ledger with an empty escrow the pot stays where it went. -/
theorem Phase.of_ledger {db' : Db} (hl : db'.ledger = db.ledger) (hp : Phase pot db)
    (hempty : pot.Holds db 0) (hs : Static pot db) (hclosed : pot.IsClosed db') :
    Phase pot db' := by
  have hjournal : pot.journalOf db' = pot.journalOf db := by
    unfold Pot.journalOf
    rw [hl]
  cases hp with
  | untouched balance _ _ _ _ =>
    exact absurd (holds_unique hempty balance) (pot_pos hs).ne
  | refunded balance refunds noPayout _ =>
    refine .refunded (holds_of_ledger hl balance) ?_ ?_ hclosed
    · rw [movements_of_ledger hl]
      exact refunds.imp (fun p j hj => isRefund_frame hj (by rw [hl]; exact Table.Same.refl _ _))
    · unfold Pot.NoPayout
      rwa [hjournal]
  | paidOut balance payout moved type key noRefund _ =>
    refine .paidOut (holds_of_ledger hl balance) payout ((movements_of_ledger hl).trans moved) type
      key ?_ hclosed
    unfold Pot.NoRefund
    rwa [hjournal]

/-- A committed cancellation of this contest refunds everyone, or moves nothing. -/
theorem cancelTx_phase {now : DateTime} {snap : CancelSnapshot} {reason : String} {r : PUnit × Db}
    (hs : Static pot db) (hp : Phase pot db) (hk : Known pot db (.cancelTx snap reason))
    (hid : snap.contest.id = pot.contestId) (h : cancelTx now snap reason db = .ok r) :
    Phase pot r.2 := by
  obtain ⟨hfee, ⟨escrow, hesc, heid⟩, hents⟩ := hk.1 hid
  obtain ⟨db₁, hloop, hzero, hr⟩ := cancelTx_ok h
  have hframe : Frame (fun _ => True) unwatched db db₁ :=
    frame_refunds snap.entries hloop (fun _ _ _ _ _ _ _ => trivial) (fun _ _ _ _ _ => rfl)
  have hclosed : pot.IsClosed r.2 := by
    obtain ⟨c, hc, _⟩ := hs.fee
    obtain ⟨c', hc', _⟩ := hframe.contests.find hc
    have hcontests := congrArg Db.contests hr
    rw [hid] at hcontests
    exact isClosed_update (by intro c; rfl) (Option.ne_none_iff_exists'.2 ⟨c', hc'⟩)
      (by simp [closedStatuses]) hcontests
  have hledger : r.2.ledger = db₁.ledger := by rw [hr]
  have hempty : pot.Holds db₁ 0 := by
    obtain ⟨a, ha, hbal⟩ := hzero escrow hesc
    exact ⟨a, heid ▸ ha, hbal⟩
  obtain ⟨es', js, hsub, hsame, hjs, hall, hholds, hnil⟩ :=
    refunds_ok hesc heid hfee snap.entries hloop (fun _ hw => hs.wallet_ne hw)
  -- over an empty escrow the transaction can only have replayed
  have hreplayed : pot.Holds db 0 → Phase pot r.2 := by
    intro hbal
    have hspent := holds_unique hempty (hholds 0 hbal)
    have hnone : es' = [] := by
      rw [zero_sub, zero_eq_neg, mul_eq_zero, Nat.cast_eq_zero, List.length_eq_zero_iff] at hspent
      exact hspent.resolve_left hs.fee_pos.ne'
    exact hp.of_ledger (hledger.trans (hnil hnone)) hbal hs hclosed
  cases hp with
  | untouched balance unmoved noPayout _ _ =>
    -- an emptied escrow means that every turn was a refund
    have hspent := holds_unique hempty (hholds _ balance)
    have hlen : snap.entries.length = pot.entrants.length := by rw [← hents, List.length_map]
    have hes : es' = snap.entries := by
      refine hsub.eq_of_length ?_
      rw [hlen]
      have hmul : pot.feeMinor * (es'.length : ℤ) = pot.feeMinor * pot.entrants.length := by
        linarith
      exact_mod_cast mul_left_cancel₀ hs.fee_pos.ne' hmul
    rw [hes, hents] at hall
    have hmoved : pot.movements r.2 = js := by
      rw [movements_of_ledger hledger, movements_append hs.posted_le hjs, unmoved, List.nil_append]
      refine List.filter_eq_self.2 (fun j hj => ?_)
      obtain ⟨p, _, hone⟩ := forall₂_mem_right hall hj
      exact decide_eq_true (isRefund_touches hone)
    refine .refunded (holds_of_ledger hledger hempty) ?_ ?_ hclosed
    · rw [hmoved]
      exact hall.imp (fun p j hj => isRefund_frame hj (by rw [hledger]; exact hsame))
    · refine noPayout_append hs.posted_le (hledger ▸ hjs) noPayout (fun j hj => ?_)
      obtain ⟨p, _, hone⟩ := forall₂_mem_right hall hj
      rw [hone.key]
      exact Ledger.key_ne rfl rfl (by decide) _ _
  | refunded balance _ _ _ => exact hreplayed balance
  | paidOut balance _ _ _ _ _ _ => exact hreplayed balance

/-- A committed settlement of this contest pays out, or finds the escrow empty. -/
theorem distributeTx_phase {now : DateTime} {snap : SettlementSnapshot} {r : PUnit × Db}
    (hs : Static pot db) (hp : Phase pot db) (hk : Known pot db (.distributeTx snap))
    (hid : snap.contest.id = pot.contestId) (h : distributeTx now snap db = .ok r) :
    Phase pot r.2 := by
  have hne := hk.1 hid
  obtain ⟨escrow, platform, db₁, he, _, hpay, hex, hr⟩ := (distributeTx_ok_iff now snap db r).1 h
  obtain ⟨b, hb, hbid, _⟩ := hs.escrow
  rw [hid] at he
  have hesc : escrow.id = pot.escrowId := by rw [← hbid, Option.some.inj (he.symm.trans hb)]
  have hbal : pot.Holds db escrow.balanceMinor :=
    ⟨escrow, hesc ▸ db.ledger.accounts.find_id (ofContest_some he).1, rfl⟩
  have hclosed : pot.IsClosed r.2 := by
    have hcontests := congrArg Db.contests hr
    rw [hid] at hcontests hex
    exact isClosed_update (by intro c; rfl) hex (by simp [closedStatuses]) hcontests
  have hledger : r.2.ledger = db₁.ledger := by rw [hr]
  -- over an empty escrow nothing is posted
  have hskipped : pot.Holds db 0 → Phase pot r.2 := by
    intro hempty
    rcases hpay with ⟨hpos, _, _⟩ | ⟨_, rfl⟩
    · exact absurd (holds_unique hbal hempty) hpos.ne'
    · exact hp.of_ledger hledger hempty hs hclosed
  cases hp with
  | untouched balance unmoved _ noRefund _ =>
    have hpot := holds_unique hbal balance
    rcases hpay with ⟨_, _, hpay⟩ | ⟨hno, _⟩
    · obtain ⟨prizes, winners, id, l, ns, _, _, hpost, ⟨a, ha, hzero⟩, hdb⟩ := payOut_ok hpay
      have hl : r.2.ledger = l := hledger.trans (by rw [show db₁ = _ from hdb])
      obtain ⟨_, ⟨_, _, _, rfl⟩ | ⟨_, _, rfl, _, _⟩⟩ := Ledger.post_ok_cases hpost
      · have hstill := holds_unique balance ⟨a, hesc ▸ ha, hzero⟩
        exact absurd hstill (pot_pos hs).ne'
      · have hjs : r.2.ledger.journal.rows = db.ledger.journal.rows ++
            [Ledger.entryOf (payoutInput snap.contest escrow platform
              (escrow.balanceMinor - prizes.reduceOption.sum) winners) db.ledger.journal.fresh] := by
          rw [hl]
          rfl
        have hmoved := movements_append hs.posted_le hjs
        rw [unmoved, List.nil_append, List.filter_eq_self.2] at hmoved
        · refine .paidOut ⟨a, ?_, hzero⟩ _ hmoved rfl ?_ ?_ hclosed
          · rw [hl, ← hesc]
            exact ha
          · rw [← hid]
            rfl
          · refine noRefund_append hs.posted_le hjs noRefund (fun j hj p _ => ?_)
            rw [List.mem_singleton.1 hj]
            exact Ledger.key_ne rfl rfl (by decide) _ _
        · intro j hj
          rw [List.mem_singleton.1 hj]
          exact decide_eq_true ⟨_, List.mem_cons_self, hesc⟩
    · exact absurd ⟨hpot ▸ pot_pos hs, hne⟩ hno
  | refunded balance _ _ _ => exact hskipped balance
  | paidOut balance _ _ _ _ _ _ => exact hskipped balance

end Own

section Steps
variable {pot : Pot} {db db' : Db}

theorem Phase.of_open (hp : Phase pot db) (hopen : ¬ pot.IsClosed db) :
    (activeEntries db pot.contestId).map entrant = pot.entrants := by
  cases hp with
  | untouched _ _ _ _ active => exact active
  | refunded _ _ _ closed => exact absurd closed hopen
  | paidOut _ _ _ _ _ _ closed => exact absurd closed hopen

theorem open_of_find {c : Contest} (hc : db.contests.find pot.contestId = some c)
    (hs : c.status ∉ closedStatuses) : ¬ pot.IsClosed db := by
  rintro ⟨c', hc', hclosed⟩
  rw [Option.some.inj (hc'.symm.trans hc)] at hclosed
  exact hs hclosed

theorem known_of_cancelRead {snap : CancelSnapshot} {reason : String} {contestId : ℕ}
    (hs : Static pot db) (hp : Phase pot db) (h : cancelRead contestId db = .ok (snap, db)) :
    Known pot db (.cancelTx snap reason) := by
  obtain ⟨hfind, rfl, hstatus, hents, hesc, _⟩ := cancelRead_ok h
  constructor
  · intro hid
    rw [hid] at hfind hents hesc
    obtain ⟨c, hc, hfee⟩ := hs.fee
    obtain ⟨a, ha, haid, _⟩ := hs.escrow
    have hopen : ∀ s ∈ cancellable, s ∉ closedStatuses := by decide
    have hactive := hp.of_open (open_of_find hfind (hopen _ hstatus))
    refine ⟨?_, ⟨a, hesc.trans ha, haid⟩, hents ▸ hactive⟩
    rw [← hfee, Option.some.inj (hfind.symm.trans hc)]
  · intro hid
    rw [hents, hesc]
    constructor
    · intro a ha
      obtain ⟨hmem, hcontest⟩ := ofContest_some ha
      exact hs.id_ne hmem (fun heq => hid (Option.some.inj (hcontest.symm.trans heq)))
    · intro e he
      obtain ⟨hmem, hcontest, _⟩ := mem_activeEntries.1 he
      exact ⟨e, hmem, rfl, hcontest⟩

theorem known_of_distributeRead {drawHash : ℕ → ℕ → String} {snap : SettlementSnapshot}
    {contestId : ℕ} (hs : Static pot db) (hp : Phase pot db)
    (h : distributeRead drawHash contestId db = some snap) : Known pot db (.distributeTx snap) := by
  obtain ⟨hfind, rfl, hstatus, hperm⟩ := distributeRead_some h
  constructor
  · intro hid
    rw [hid] at hfind hperm
    have hactive := hp.of_open (open_of_find hfind (by rw [hstatus]; decide))
    intro hnil
    rw [hnil, List.nil_perm, List.map_eq_nil_iff] at hperm
    rw [hperm] at hactive
    exact hs.nonempty hactive.symm
  · intro _ r hr
    obtain ⟨e, he, rfl⟩ := List.mem_map.1 (hperm.mem_iff.1 hr)
    obtain ⟨hmem, hcontest, _⟩ := mem_activeEntries.1 he
    exact ⟨e, hmem, rfl, hcontest⟩

theorem known_of_prepared {drawHash : ℕ → ℕ → String} {now : DateTime} {t : Task}
    (hs : Static pot db) (hp : Phase pot db) (h : Prepared drawHash now db t) : Known pot db t := by
  cases h with
  | cancelTx snap reason contestId hread => exact known_of_cancelRead hs hp hread
  | distributeTx snap contestId hread => exact known_of_distributeRead hs hp hread
  | _ => trivial

theorem step_phase (drawHash : ℕ → ℕ → String) {tick : Tick} {t : Task} (hs : Static pot db)
    (hp : Phase pot db) (hk : Known pot db t) (hG : NoNewEntry tick t db) :
    Phase pot (step drawHash tick t db).1 := by
  by_cases hown : IsOwn pot t
  · rcases step_cases drawHash tick t db with ⟨next, db', hok, hstep⟩ | ⟨_, hstep⟩
    · rw [hstep]
      cases t with
      | cancelTx snap reason =>
        obtain ⟨_, _, hc⟩ := action_ok drawHash hok
        exact cancelTx_phase hs hp hk hown hc
      | distributeTx snap =>
        obtain ⟨_, _, hd⟩ := action_ok drawHash hok
        exact distributeTx_phase hs hp hk hown hd
      | _ => exact hown.elim
    · rwa [hstep]
  · exact hp.frame hs (frame_step drawHash (inFrame_apart hs hk hG hown))

/-- The phases of the pot are an invariant of the protocol. -/
theorem inductive_phase (drawHash : ℕ → ℕ → String) (pot : Pot) :
    (protocol drawHash).Inductive NoNewEntry (fun db => Static pot db ∧ Phase pot db)
      (Known pot) where
  init _ _ _ := trivial
  shared _ _ _ hI hk hG :=
    ⟨hI.1.frame (unwatched_frame drawHash hG), step_phase drawHash hI.1 hI.2 hk hG⟩
  cont tick t db t' hI hk hG ht' := by
    rcases step_next drawHash ht' with ⟨call, rfl, hdb, hprep⟩ | ⟨_, _, _, rfl⟩ | ⟨_, _, rfl⟩
    · have hdb' : ((protocol drawHash).step tick (.ready call) db).1 = db := hdb
      rw [hdb']
      exact known_of_prepared hI.1 hI.2 hprep
    · trivial
    · trivial
  stable _ _ _ _ _ _ hG hu := hu.of_same (unwatched_frame drawHash hG).entries

end Steps

section Runs
variable {pot : Pot} {db : Db}

theorem journalOf_of_posted (h : pot.posted = db.ledger.journal.rows.length) :
    pot.journalOf db = [] := by
  rw [Pot.journalOf, h, List.drop_length]

theorem Pot.Funded.static (h : pot.Funded db) : Static pot db := by
  obtain ⟨c, hc, hfee⟩ := h.contest
  obtain ⟨a, ha, hid, htype, _⟩ := h.escrow
  refine ⟨⟨c, hc, hfee⟩, hfee ▸ c.fee_pos, ⟨a, ha, hid, htype⟩, ?_, h.nonempty, ?_,
    h.posted_eq.le⟩
  · intro p hp
    rw [← h.active] at hp
    obtain ⟨e, he, rfl⟩ := List.mem_map.1 hp
    obtain ⟨hmem, hcontest, _⟩ := mem_activeEntries.1 he
    exact ⟨e, hmem, rfl, hcontest⟩
  · have hids : pot.entrants.map (·.entryId) = (activeEntries db pot.contestId).map (·.id) := by
      rw [← h.active, List.map_map]
      rfl
    rw [hids]
    exact ids_activeEntries db pot.contestId

theorem Pot.Funded.phase (h : pot.Funded db) : Phase pot db := by
  obtain ⟨a, ha, hid, _, hbal⟩ := h.escrow
  have hnone := journalOf_of_posted h.posted_eq
  refine .untouched ⟨a, hid ▸ db.ledger.accounts.find_id (ofContest_some ha).1, hbal⟩ ?_ ?_ ?_
    h.active
  · rw [Pot.movements, hnone, List.filter_nil]
  · intro j hj
    rw [hnone] at hj
    cases hj
  · intro j hj
    rw [hnone] at hj
    cases hj

/-- From any funded pot, along any run without new entries, the pot leaves its escrow
one way only. -/
theorem oneWay_of_funded (drawHash : ℕ → ℕ → String) (hf : pot.Funded db)
    {as : List (Act Call Tick)} (hA : (protocol drawHash).Along NoNewEntry ⟨db, []⟩ as) :
    pot.OneWay ((protocol drawHash).run ⟨db, []⟩ as).shared := by
  have hstart : Protocol.Holds (fun db => Static pot db ∧ Phase pot db) (Known pot)
      (⟨db, []⟩ : Config Db Task) := ⟨⟨hf.static, hf.phase⟩, by simp⟩
  exact ((inductive_phase drawHash pot).run hstart hA).1.2.oneWay

end Runs

section Race

def stakedPot : Pot := ⟨1, 4, 1000, [⟨0, 7⟩, ⟨1, 8⟩], 2⟩

/-- Two admins cancel at once, and the settlement is asked for in between. -/
def twoCancels : List (Act Call Tick) :=
  [.start (.cancel 1 "rain"), .start (.cancel 1 "strike"), .resume 0 ⟨101, false, false⟩,
    .resume 1 ⟨101, false, false⟩, .resume 0 ⟨102, false, false⟩, .start (.distribute 1),
    .resume 1 ⟨103, false, false⟩, .resume 0 ⟨104, false, false⟩]

theorem stakedPot_funded : stakedPot.Funded stakedDb where
  contest := by
    have h : ∃ c ∈ stakedDb.contests.find 1, c.entryFeeMinor = 1000 := by decide +kernel
    exact h
  escrow := by
    have h : ∃ a ∈ ofContest stakedDb.ledger.accounts 1, a.id = 4 ∧ a.type = .contestEscrow ∧
        a.balanceMinor = 1000 * 2 := by decide +kernel
    exact h
  active := by decide +kernel
  nonempty := by decide
  posted_eq := by decide +kernel

theorem oneWay_of_funded_twoCancels :
    stakedPot.OneWay ((protocol (fun _ _ => "")).run ⟨stakedDb, []⟩ twoCancels).shared :=
  oneWay_of_funded _ stakedPot_funded (by decide +kernel)

end Race

end EscrowExit
end FootballIQ
