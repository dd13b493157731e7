import FootballIQ.Frames

/-!
# The pot of a contest

The money in the escrow of one contest, with the entrants it belongs to. Where
the pot stands is a phase, and everything but the cancellations and settlements
of the contest itself keeps the phase.
-/

namespace FootballIQ
namespace EscrowExit

open Transaction Relational Interleaving WalletAccounts Contests Settlement Ranking Platform

structure Entrant where
  entryId : ℕ
  userId : ℕ
  deriving DecidableEq

def entrant (e : Entry) : Entrant := ⟨e.id, e.userId⟩

/-- The pot of a contest when a run begins: its escrow account, its fee, its active
entries, and how many journal entries were posted before. -/
structure Pot where
  contestId : ℕ
  escrowId : ℕ
  feeMinor : ℤ
  entrants : List Entrant
  posted : ℕ
  deriving DecidableEq

namespace Pot
variable (pot : Pot)

def Touches (j : JournalEntry) : Prop := ∃ line ∈ j.lines, line.accountId = pot.escrowId

instance : DecidablePred pot.Touches := fun j =>
  inferInstanceAs (Decidable (∃ line ∈ j.lines, line.accountId = pot.escrowId))

/-- The journal entries of the run. -/
def journalOf (db : Db) : List JournalEntry := db.ledger.journal.rows.drop pot.posted

/-- The journal entries of the run that have a line on the escrow. -/
def movements (db : Db) : List JournalEntry :=
  (pot.journalOf db).filter (fun j => pot.Touches j)

def Holds (db : Db) (amount : ℤ) : Prop :=
  ∃ a, db.ledger.accounts.find pot.escrowId = some a ∧ a.balanceMinor = amount

/-- The refund of one entrant: exactly the fee, from the escrow to a wallet of the user. -/
structure IsRefund (db : Db) (p : Entrant) (j : JournalEntry) : Prop where
  type : j.type = .entryRefund
  key : j.idempotencyKey = refundKey p.entryId
  lines : ∃ wallet ∈ db.ledger.accounts.rows, wallet.userId = some p.userId ∧
    wallet.type = .userAvailable ∧
    j.lines = [⟨pot.escrowId, -pot.feeMinor⟩, ⟨wallet.id, pot.feeMinor⟩]

def NoPayout (db : Db) : Prop :=
  ∀ j ∈ pot.journalOf db, j.idempotencyKey ≠ settlementKey pot.contestId

def NoRefund (db : Db) : Prop :=
  ∀ j ∈ pot.journalOf db, ∀ p ∈ pot.entrants, j.idempotencyKey ≠ refundKey p.entryId

/-- No money has left the escrow; or every entrant was refunded once and nothing was
paid out; or there was one payout and no refund. In the last two the escrow is empty. -/
inductive OneWay (db : Db) : Prop
  | untouched (balance : pot.Holds db (pot.feeMinor * pot.entrants.length))
    (unmoved : pot.movements db = [])
  | refunded (balance : pot.Holds db 0)
    (refunds : List.Forall₂ (pot.IsRefund db) pot.entrants (pot.movements db))
    (noPayout : pot.NoPayout db)
  | paidOut (balance : pot.Holds db 0) (payout : JournalEntry)
    (moved : pot.movements db = [payout]) (type : payout.type = .prizePayout)
    (key : payout.idempotencyKey = settlementKey pot.contestId) (noRefund : pot.NoRefund db)

def IsClosed (db : Db) : Prop :=
  ∃ c, db.contests.find pot.contestId = some c ∧ c.status ∈ closedStatuses

/-- The state that a run begins in: the escrow holds the fees of the active entries. -/
structure Funded (db : Db) : Prop where
  contest : ∃ c, db.contests.find pot.contestId = some c ∧ c.entryFeeMinor = pot.feeMinor
  escrow : ∃ a, ofContest db.ledger.accounts pot.contestId = some a ∧ a.id = pot.escrowId ∧
    a.type = .contestEscrow ∧ a.balanceMinor = pot.feeMinor * pot.entrants.length
  active : (activeEntries db pot.contestId).map entrant = pot.entrants
  nonempty : pot.entrants ≠ []
  posted_eq : pot.posted = db.ledger.journal.rows.length

end Pot

/-- No entry is created, and no escrow replaced. -/
def NoNewEntry (_tick : Tick) (t : Task) (_db : Db) : Prop :=
  match t with
  | .submitTx _ => False
  | .publishTx _ _ => False
  | _ => True

instance (tick : Tick) (db : Db) : ∀ t, Decidable (NoNewEntry tick t db)
  | .submitTx _ | .publishTx _ _ => .isFalse id
  | .ready _ | .settle _ _ | .cancelTx _ _ | .finalizeTx _ _ | .scoring _ | .distributeTx _ =>
    .isTrue trivial

section Invariant
variable (pot : Pot)

/-- What no step changes: the fee, the escrow account, and where the entries belong. -/
structure Static (db : Db) : Prop where
  fee : ∃ c, db.contests.find pot.contestId = some c ∧ c.entryFeeMinor = pot.feeMinor
  fee_pos : 0 < pot.feeMinor
  escrow : ∃ a, ofContest db.ledger.accounts pot.contestId = some a ∧ a.id = pot.escrowId ∧
    a.type = .contestEscrow
  known : ∀ p ∈ pot.entrants, ∃ x ∈ db.entries.rows, x.id = p.entryId ∧
    x.contestId = pot.contestId
  nonempty : pot.entrants ≠ []
  entries_nodup : (pot.entrants.map (·.entryId)).Nodup
  posted_le : pot.posted ≤ db.ledger.journal.rows.length

/-- Where the pot stands, with what the steps still to come rely on. -/
inductive Phase (db : Db) : Prop
  | untouched (balance : pot.Holds db (pot.feeMinor * pot.entrants.length))
    (unmoved : pot.movements db = []) (noPayout : pot.NoPayout db) (noRefund : pot.NoRefund db)
    (active : (activeEntries db pot.contestId).map entrant = pot.entrants)
  | refunded (balance : pot.Holds db 0)
    (refunds : List.Forall₂ (pot.IsRefund db) pot.entrants (pot.movements db))
    (noPayout : pot.NoPayout db) (closed : pot.IsClosed db)
  | paidOut (balance : pot.Holds db 0) (payout : JournalEntry)
    (moved : pot.movements db = [payout]) (type : payout.type = .prizePayout)
    (key : payout.idempotencyKey = settlementKey pot.contestId) (noRefund : pot.NoRefund db)
    (closed : pot.IsClosed db)

theorem Phase.oneWay {db : Db} (h : Phase pot db) : pot.OneWay db := by
  cases h with
  | untouched balance unmoved _ _ _ => exact .untouched balance unmoved
  | refunded balance refunds noPayout _ => exact .refunded balance refunds noPayout
  | paidOut balance payout moved type key noRefund _ =>
    exact .paidOut balance payout moved type key noRefund

/-- What a pending call knows from its read. A call on this contest has read its
entrants; one on another contest has read entries of that contest. -/
def Known (db : Db) (t : Task) : Prop :=
  match t with
  | .cancelTx snap _ =>
    (snap.contest.id = pot.contestId → snap.contest.entryFeeMinor = pot.feeMinor ∧
      (∃ a, snap.escrow = some a ∧ a.id = pot.escrowId) ∧
      snap.entries.map entrant = pot.entrants) ∧
    (snap.contest.id ≠ pot.contestId → (∀ a, snap.escrow = some a → a.id ≠ pot.escrowId) ∧
      ∀ e ∈ snap.entries, ∃ x ∈ db.entries.rows, x.id = e.id ∧ x.contestId = snap.contest.id)
  | .distributeTx snap =>
    (snap.contest.id = pot.contestId → snap.ranked ≠ []) ∧
    (snap.contest.id ≠ pot.contestId → ∀ r ∈ snap.ranked, ∃ x ∈ db.entries.rows,
      x.id = r.entryId ∧ x.contestId = snap.contest.id)
  | _ => True

end Invariant

section Apart
variable (pot : Pot)

/-- A journal entry that has nothing to do with the pot. -/
def Apart (j : JournalEntry) : Prop :=
  (∀ line ∈ j.lines, line.accountId ≠ pot.escrowId) ∧
    j.idempotencyKey ≠ settlementKey pot.contestId ∧
    ∀ p ∈ pot.entrants, j.idempotencyKey ≠ refundKey p.entryId

def watching (contestId : ℕ) : Bool := contestId = pot.contestId

/-- The transaction of the task moves the pot, if it commits. -/
def IsOwn (t : Task) : Prop :=
  match t with
  | .cancelTx snap _ => snap.contest.id = pot.contestId
  | .distributeTx snap => snap.contest.id = pot.contestId
  | _ => False

variable {pot} {db : Db}

theorem Static.id_ne (hs : Static pot db) {a : LedgerAccount} (ha : a ∈ db.ledger.accounts.rows)
    (hne : a.contestId ≠ some pot.contestId) : a.id ≠ pot.escrowId := by
  obtain ⟨b, hb, hid, _⟩ := hs.escrow
  rw [← hid]
  exact Ledger.id_ne_ofContest hb ha hne

theorem Static.wallet_ne (hs : Static pot db) {id : ℕ}
    (hw : Ledger.IsWallet db.ledger.accounts id) : id ≠ pot.escrowId := by
  obtain ⟨b, hb, hid, htype⟩ := hs.escrow
  rw [← hid]
  exact Ledger.wallet_ne_ofContest hb htype hw

theorem Static.entry_ne (hs : Static pot db) {p : Entrant} (hp : p ∈ pot.entrants) {x : Entry}
    (hx : x ∈ db.entries.rows) (hne : x.contestId ≠ pot.contestId) : x.id ≠ p.entryId := by
  obtain ⟨y, hy, hid, hcontest⟩ := hs.known p hp
  intro heq
  rw [db.entries.eq_of_id_eq hx hy (heq.trans hid.symm)] at hne
  exact hne hcontest

/-- Every task but the cancellations and settlements of this contest is apart from the pot. -/
theorem inFrame_apart {tick : Tick} {t : Task} (hs : Static pot db) (hk : Known pot db t)
    (hG : NoNewEntry tick t db) (hown : ¬ IsOwn pot t) :
    InFrame (Apart pot) (watching pot) db t := by
  cases t with
  | submitTx slip => exact hG.elim
  | publishTx contest lockAt => exact hG.elim
  | settle intent verification =>
    intro provider amountMinor channel clearing userAccount id hc hu
    obtain ⟨hmem, _, _, hcontest, _⟩ := ofSystem_some hc
    refine ⟨?_, Ledger.key_ne rfl rfl (by decide) _ _,
      fun p _ => Ledger.key_ne rfl rfl (by decide) _ _⟩
    intro line hline
    simp only [Ledger.entryOf, Deposits.depositInput, List.mem_cons, List.not_mem_nil,
      or_false] at hline
    rcases hline with rfl | rfl
    · exact hs.id_ne hmem (by simp [hcontest])
    · exact hs.wallet_ne hu
  | cancelTx snap reason =>
    obtain ⟨hesc, hents⟩ := hk.2 hown
    constructor
    · intro e he escrow wallet id hescrow hw
      refine ⟨?_, Ledger.key_ne rfl rfl (by decide) _ _, ?_⟩
      · intro line hline
        simp only [Ledger.entryOf, refundInput, List.mem_cons, List.not_mem_nil,
          or_false] at hline
        rcases hline with rfl | rfl
        · exact hesc escrow hescrow
        · exact hs.wallet_ne hw
      · intro p hp hkey
        obtain ⟨x, hx, hid, hcontest⟩ := hents e he
        exact hs.entry_ne hp hx (hcontest ▸ hown) (hid.trans (Ledger.key_inj hkey))
    · intro e he x hx hid
      obtain ⟨y, hy, hyid, hcontest⟩ := hents e he
      rw [db.entries.eq_of_id_eq hx hy (hid.trans hyid.symm), hcontest]
      exact decide_eq_false hown
  | distributeTx snap =>
    have hents := hk.2 hown
    constructor
    · intro escrow platform commission winners id hescrow hplatform hw
      obtain ⟨hemem, hecontest⟩ := ofContest_some hescrow
      obtain ⟨hpmem, _, _, hpcontest, _⟩ := ofSystem_some hplatform
      refine ⟨?_, ?_, fun p _ => Ledger.key_ne rfl rfl (by decide) _ _⟩
      · intro line hline
        rcases List.mem_cons.1 hline with rfl | hline
        · exact hs.id_ne hemem (fun h => hown (Option.some.inj (hecontest.symm.trans h)))
        · rcases List.mem_cons.1 hline with rfl | hline
          · exact hs.id_ne hpmem (by simp [hpcontest])
          · obtain ⟨w, hwin, rfl⟩ := List.mem_map.1 hline
            exact hs.wallet_ne (hw w (List.mem_filter.1 hwin).1)
      · exact fun hkey => hown (Ledger.key_inj hkey)
    · intro x hx hid
      obtain ⟨r, hr, hrid⟩ := List.mem_map.1 hid
      obtain ⟨y, hy, hyid, hcontest⟩ := hents r hr
      rw [db.entries.eq_of_id_eq hx hy (hrid.symm.trans hyid.symm), hcontest]
      exact decide_eq_false hown
  | ready call => trivial
  | finalizeTx fixtureId result => trivial
  | scoring job => trivial

end Apart

section Frames
variable {pot : Pot} {P : JournalEntry → Prop} {db db' : Db}

theorem journalOf_append (hle : pot.posted ≤ db.ledger.journal.rows.length)
    {js : List JournalEntry} (hjs : db'.ledger.journal.rows = db.ledger.journal.rows ++ js) :
    pot.journalOf db' = pot.journalOf db ++ js := by
  unfold Pot.journalOf
  rw [hjs, List.drop_append_of_le_length hle]

theorem movements_append (hle : pot.posted ≤ db.ledger.journal.rows.length)
    {js : List JournalEntry} (hjs : db'.ledger.journal.rows = db.ledger.journal.rows ++ js) :
    pot.movements db' = pot.movements db ++ js.filter (fun j => pot.Touches j) := by
  unfold Pot.movements
  rw [journalOf_append hle hjs, List.filter_append]

theorem Static.frame {watched : ℕ → Bool} (hs : Static pot db) (hf : Frame P watched db db') :
    Static pot db' := by
  obtain ⟨c, hc, hfee⟩ := hs.fee
  obtain ⟨c', hc', hfee'⟩ := hf.contests.find hc
  obtain ⟨a, ha, hid, htype⟩ := hs.escrow
  obtain ⟨a', ha', howner, _⟩ := Ledger.ofContest_of_same hf.ledger.accounts ha
  obtain ⟨js, hjs, _⟩ := hf.ledger.journal
  refine ⟨⟨c', hc', hfee'.trans hfee⟩, hs.fee_pos, ⟨a', ha', ?_, ?_⟩, ?_, hs.nonempty,
    hs.entries_nodup, ?_⟩
  · exact (Ledger.id_of_owner howner).trans hid
  · exact (Ledger.type_of_owner howner).trans htype
  · intro p hp
    obtain ⟨x, hx, hxid, hcontest⟩ := hs.known p hp
    obtain ⟨x', hx', hid', hcontest'⟩ := later_entry hf.entries hx
    exact ⟨x', hx', hid'.trans hxid, hcontest'.trans hcontest⟩
  · rw [hjs, List.length_append]
    exact le_add_right hs.posted_le

/-- A refund stays one while the accounts keep their owners. -/
theorem isRefund_frame {p : Entrant} {j : JournalEntry} (h : pot.IsRefund db p j)
    (ha : Table.Same Ledger.owner db.ledger.accounts db'.ledger.accounts) :
    pot.IsRefund db' p j := by
  obtain ⟨wallet, hw, huser, htype, hlines⟩ := h.lines
  obtain ⟨wallet', hw', howner⟩ := ha.mem_of hw
  refine ⟨h.type, h.key, wallet', hw', ?_, (Ledger.type_of_owner howner).trans htype, ?_⟩
  · exact (Ledger.userId_of_owner howner).trans huser
  · rw [hlines, Ledger.id_of_owner howner]

/-- Entries keep their contests, so what the pending calls know stays true. -/
theorem Known.of_same {t : Task} (hk : Known pot db t)
    (he : Table.Same (feeColumns unwatched) db.entries db'.entries) : Known pot db' t := by
  have hentry : ∀ id contestId, (∃ x ∈ db.entries.rows, x.id = id ∧ x.contestId = contestId) →
      ∃ x ∈ db'.entries.rows, x.id = id ∧ x.contestId = contestId := by
    rintro id contestId ⟨x, hx, rfl, rfl⟩
    exact later_entry he hx
  cases t with
  | cancelTx snap reason =>
    refine ⟨hk.1, fun hid => ?_⟩
    obtain ⟨hesc, hents⟩ := hk.2 hid
    exact ⟨hesc, fun e he => hentry _ _ (hents e he)⟩
  | distributeTx snap => exact ⟨hk.1, fun hid r hr => hentry _ _ (hk.2 hid r hr)⟩
  | _ => trivial

theorem noPayout_append (hle : pot.posted ≤ db.ledger.journal.rows.length)
    {js : List JournalEntry} (hjs : db'.ledger.journal.rows = db.ledger.journal.rows ++ js)
    (h : pot.NoPayout db) (hnew : ∀ j ∈ js, j.idempotencyKey ≠ settlementKey pot.contestId) :
    pot.NoPayout db' := by
  intro j hj
  rw [journalOf_append hle hjs] at hj
  rcases List.mem_append.1 hj with hj | hj
  · exact h j hj
  · exact hnew j hj

theorem noRefund_append (hle : pot.posted ≤ db.ledger.journal.rows.length)
    {js : List JournalEntry} (hjs : db'.ledger.journal.rows = db.ledger.journal.rows ++ js)
    (h : pot.NoRefund db)
    (hnew : ∀ j ∈ js, ∀ p ∈ pot.entrants, j.idempotencyKey ≠ refundKey p.entryId) :
    pot.NoRefund db' := by
  intro j hj
  rw [journalOf_append hle hjs] at hj
  rcases List.mem_append.1 hj with hj | hj
  · exact h j hj
  · exact hnew j hj

theorem movements_frame {watched : ℕ → Bool} (hs : Static pot db)
    (hf : Frame (Apart pot) watched db db') : pot.movements db' = pot.movements db := by
  obtain ⟨js, hjs, hapart⟩ := hf.ledger.journal
  rw [movements_append hs.posted_le hjs, List.filter_eq_nil_iff.2, List.append_nil]
  intro j hj
  simp only [decide_eq_true_eq]
  rintro ⟨line, hline, hid⟩
  exact (hapart j hj).1 line hline hid

theorem Phase.frame (hs : Static pot db) (hp : Phase pot db)
    (hf : Frame (Apart pot) (watching pot) db db') : Phase pot db' := by
  obtain ⟨js, hjs, hapart⟩ := hf.ledger.journal
  have hmoved := movements_frame hs hf
  have hholds : ∀ amount, pot.Holds db amount → pot.Holds db' amount := by
    rintro amount ⟨a, ha, hbal⟩
    refine ⟨a, ?_, hbal⟩
    rw [hf.ledger.untouched pot.escrowId (fun j hj => hj.1), ha]
  have hclosed : pot.IsClosed db → pot.IsClosed db' := by
    rintro ⟨c, hc, hstatus⟩
    exact hf.closed pot.contestId c hc hstatus
  have hpayout : pot.NoPayout db → pot.NoPayout db' := fun h =>
    noPayout_append hs.posted_le hjs h (fun j hj => (hapart j hj).2.1)
  have hrefund : pot.NoRefund db → pot.NoRefund db' := fun h =>
    noRefund_append hs.posted_le hjs h (fun j hj => (hapart j hj).2.2)
  cases hp with
  | untouched balance unmoved noPayout noRefund active =>
    refine .untouched (hholds _ balance) (hmoved.trans unmoved) (hpayout noPayout)
      (hrefund noRefund) ?_
    have hsame := hf.entries.findMany
      (fun e => e.contestId = pot.contestId ∧ e.status = .active) (by
        intro r r' hr
        simp only [feeColumns, watching, Prod.mk.injEq] at hr
        obtain ⟨_, hcontest, _, _, hstatus⟩ := hr
        rw [hcontest]
        refine and_congr_right (fun hid => ?_)
        rw [hcontest, hid] at hstatus
        simp only [decide_true, if_true, Option.some.injEq] at hstatus
        rw [hstatus])
    have hmap := congrArg (List.map (fun x : ℕ × ℕ × ℕ × ℕ × Option EntryStatus =>
      (⟨x.1, x.2.2.1⟩ : Entrant))) hsame
    rw [List.map_map, List.map_map] at hmap
    exact hmap.trans active
  | refunded balance refunds noPayout closed =>
    refine .refunded (hholds _ balance) ?_ (hpayout noPayout) (hclosed closed)
    rw [hmoved]
    exact refunds.imp (fun p j hj => isRefund_frame hj hf.ledger.accounts)
  | paidOut balance payout moved type key noRefund closed =>
    exact .paidOut (hholds _ balance) payout (hmoved.trans moved) type key (hrefund noRefund)
      (hclosed closed)

end Frames

end EscrowExit
end FootballIQ
