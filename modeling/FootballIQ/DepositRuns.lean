import FootballIQ.DepositCalls
import FootballIQ.Frames

/-!
# Deposits are credited once

Webhook and client settle the same intent at the same time, on stale reads and
with answers that may differ. Every credit goes through the key of its intent,
and the status is written in the transaction that posts it.
-/

namespace FootballIQ
namespace DepositRuns

open Transaction Relational Interleaving WalletAccounts Deposits DepositCalls

section Property

def depositsOf (db : Db) (intentId : ℕ) : List JournalEntry :=
  db.ledger.journal.findMany (fun j => j.type = .deposit ∧ j.idempotencyKey = depositKey intentId)

def walletBalance (db : Db) (userId : ℕ) : ℤ :=
  ((ofUser db.ledger.accounts userId .userAvailable "NGN").map (·.balanceMinor)).getD 0

/-- What an entry moves on the wallet of the user. -/
def creditOf (db : Db) (userId : ℕ) (j : JournalEntry) : ℤ :=
  ((ofUser db.ledger.accounts userId .userAvailable "NGN").map
    (fun a => Ledger.amountOn a.id j.lines)).getD 0

/-- What the user has been credited with for the intent. -/
def credited (db : Db) (userId : ℕ) (intent : PaymentIntent) : ℤ :=
  if intent.userId = userId then ((depositsOf db intent.id).map (creditOf db userId)).sum else 0

/-- The entry credits the user of the intent with the amount of a successful answer. -/
def CreditsAnswer (w : World) (intentId : ℕ) (j : JournalEntry) : Prop :=
  ∃ intent provider amountMinor channel clearing wallet,
    w.db.paymentIntents.find intentId = some intent ∧
    (intentId, .success provider amountMinor channel) ∈ w.answers ∧
    ofUser w.db.ledger.accounts intent.userId .userAvailable "NGN" = some wallet ∧
    clearing ∈ w.db.ledger.accounts.rows ∧ clearing.type = .gatewayClearing ∧
    j.lines = [⟨clearing.id, -amountMinor⟩, ⟨wallet.id, amountMinor⟩] ∧
    creditOf w.db intent.userId j = amountMinor

/-- One deposit for an intent at most, credited as the gateway has answered; the
wallets have risen by these deposits; a call that has returned SUCCEEDED left one. -/
structure CreditedOnce (start : Db) (w : World) : Prop where
  once : ∀ k, (depositsOf w.db k).length ≤ 1
  answered : ∀ k, ∀ j ∈ depositsOf w.db k, CreditsAnswer w k j
  balance : ∀ userId, walletBalance w.db userId =
    walletBalance start userId + (w.db.paymentIntents.rows.map (credited w.db userId)).sum
  returned : ∀ k, (k, .succeeded) ∈ w.returned → depositsOf w.db k ≠ []

end Property

/-- What holds between the steps: every key of a deposit belongs to an entry that
credits an answer, and no intent succeeds without its deposit. -/
structure Tallied (start : Db) (w : World) : Prop where
  once : ∀ k, (depositsOf w.db k).length ≤ 1
  entries : ∀ j ∈ w.db.ledger.journal.rows, ∀ k, j.idempotencyKey = depositKey k →
    j.type = .deposit ∧ CreditsAnswer w k j
  balance : ∀ userId, walletBalance w.db userId =
    walletBalance start userId + (w.db.paymentIntents.rows.map (credited w.db userId)).sum
  returned : ∀ k, (k, .succeeded) ∈ w.returned → depositsOf w.db k ≠ []
  succeeded : ∀ i ∈ w.db.paymentIntents.rows, i.status = .succeeded → depositsOf w.db i.id ≠ []

/-- The intent that a call has read is in the table, for the same user. -/
def Listed (db : Db) (intent : PaymentIntent) : Prop :=
  ∃ i, db.paymentIntents.find intent.id = some i ∧ i.userId = intent.userId

def Known (w : World) (t : Task) : Prop :=
  match t with
  | .verifyDeposit intent => Listed w.db intent
  | .settleTx intent verification => Listed w.db intent ∧ (intent.id, verification) ∈ w.answers
  | _ => True

section Entries
variable {start : Db} {w w' : World}

theorem Tallied.creditedOnce (h : Tallied start w) : CreditedOnce start w := by
  refine ⟨h.once, fun k j hj => ?_, h.balance, h.returned⟩
  obtain ⟨hmem, _, hkey⟩ := (Table.mem_findMany _ _ j).1 hj
  exact (h.entries j hmem k hkey).2

theorem depositsOf_ne_nil_iff (h : Tallied start w) (k : ℕ) :
    depositsOf w.db k ≠ [] ↔ w.db.ledger.entryByKey (depositKey k) ≠ none := by
  rw [ne_eq, ne_eq, not_iff_not, Ledger.entryByKey_eq_none_iff, depositsOf,
    Table.findMany_eq_nil_iff]
  constructor
  · intro hnil j hj hkey
    exact hnil j hj ⟨(h.entries j hj k hkey).1, hkey⟩
  · rintro hnone j hmem ⟨_, hkey⟩
    exact hnone j hmem hkey

/-- An intent without a row has no deposit. -/
theorem depositsOf_eq_nil (h : Tallied start w) {k : ℕ} (hk : w.db.paymentIntents.find k = none) :
    depositsOf w.db k = [] := by
  rw [depositsOf, Table.findMany_eq_nil_iff]
  rintro j hmem ⟨_, hkey⟩
  obtain ⟨_, intent, _, _, _, _, _, hfind, _⟩ := h.entries j hmem k hkey
  cases hk.symm.trans hfind

def owner (i : PaymentIntent) : ℕ × ℕ := (i.id, i.userId)

/-- Intents without a deposit add nothing to what their users are credited with. -/
theorem sum_credited {db : Db} {rows rows' fresh : List PaymentIntent}
    (hrows : rows'.map owner = rows.map owner ++ fresh.map owner)
    (hfresh : ∀ i ∈ fresh, depositsOf db i.id = []) (u : ℕ) :
    (rows'.map (credited db u)).sum = (rows.map (credited db u)).sum := by
  -- what an intent is credited with depends on its id and its user only
  have hof : ∀ is : List PaymentIntent, (is.map (credited db u)).sum =
      ((is.map owner).map (fun p : ℕ × ℕ => if p.2 = u then
        ((depositsOf db p.1).map (creditOf db u)).sum else 0)).sum := by
    intro is
    rw [List.map_map]
    rfl
  have hzero : (fresh.map (credited db u)).sum = 0 := by
    have hall : ∀ i ∈ fresh, credited db u i = 0 := by
      intro i hi
      simp [credited, hfresh i hi]
    rw [List.map_congr_left hall]
    simp
  rw [hof, hrows, List.map_append, List.sum_append, ← hof, ← hof, hzero, add_zero]

/-- Steps that leave the ledger alone: intents keep their users, new ones have fresh
ids, and none succeeds without a deposit. -/
theorem Tallied.of_ledger (h : Tallied start w) (hl : w'.db.ledger = w.db.ledger)
    (hanswers : ∀ x ∈ w.answers, x ∈ w'.answers)
    (hreturned : ∀ k, (k, .succeeded) ∈ w'.returned →
      (k, .succeeded) ∈ w.returned ∨ depositsOf w.db k ≠ [])
    {fresh : List PaymentIntent}
    (hrows : w'.db.paymentIntents.rows.map owner = w.db.paymentIntents.rows.map owner ++
      fresh.map owner)
    (hfresh : ∀ i ∈ fresh, depositsOf w.db i.id = [])
    (hsucceeded : ∀ i ∈ w'.db.paymentIntents.rows, i.status = .succeeded →
      depositsOf w.db i.id ≠ []) : Tallied start w' := by
  have hdeposits : ∀ k, depositsOf w'.db k = depositsOf w.db k := fun k => by
    unfold depositsOf
    rw [hl]
  have hcredited : ∀ u, credited w'.db u = credited w.db u := fun u => by
    funext i
    unfold credited creditOf
    rw [hdeposits, hl]
  have hbalance : ∀ u, walletBalance w'.db u = walletBalance w.db u := fun u => by
    unfold walletBalance
    rw [hl]
  refine ⟨fun k => hdeposits k ▸ h.once k, ?_, ?_, ?_, ?_⟩
  · intro j hj k hkey
    rw [hl] at hj
    obtain ⟨htype, intent, provider, amount, channel, clearing, wallet, hfind, hans, hrest⟩ :=
      h.entries j hj k hkey
    obtain ⟨hmem, hid⟩ := (Table.find_eq_some_iff _ _ _).1 hfind
    have hin : owner intent ∈ w'.db.paymentIntents.rows.map owner := by
      rw [hrows]
      exact List.mem_append_left _ (List.mem_map_of_mem hmem)
    obtain ⟨intent', hmem', howner⟩ := List.mem_map.1 hin
    have hid' : intent'.id = intent.id := congrArg Prod.fst howner
    have huser' : intent'.userId = intent.userId := congrArg Prod.snd howner
    refine ⟨htype, intent', provider, amount, channel, clearing, wallet,
      (Table.find_eq_some_iff _ _ _).2 ⟨hmem', hid'.trans hid⟩, hanswers _ hans, ?_⟩
    unfold creditOf at hrest ⊢
    rw [huser', hl]
    exact hrest
  · intro u
    rw [hbalance, h.balance u, hcredited, sum_credited hrows hfresh]
  · intro k hk
    rw [hdeposits]
    rcases hreturned k hk with hk | hk
    · exact h.returned k hk
    · exact hk
  · intro i hi hs
    rw [hdeposits]
    exact hsucceeded i hi hs

end Entries

section Posting
variable {start : Db} {w : World} {intent : PaymentIntent} {provider channel : String}
  {amountMinor : ℤ} {clearing wallet : LedgerAccount}

/-- The database after a first posting. -/
def postedDb (db : Db) (input : PostJournalInput) : Db :=
  { db with ledger := Ledger.posted db.ledger input }

theorem depositsOf_postedDb (db : Db) (k : ℕ) :
    depositsOf (postedDb db (depositInput intent provider amountMinor channel clearing wallet)) k =
      depositsOf db k ++ if k = intent.id then [Ledger.entryOf
        (depositInput intent provider amountMinor channel clearing wallet) db.ledger.journal.fresh]
      else [] := by
  unfold depositsOf Table.findMany postedDb Ledger.posted
  rw [Table.rows_insert, List.filter_append]
  congr 1
  by_cases hk : k = intent.id
  · simp [hk, Ledger.entryOf, depositInput]
  · have hne : depositKey intent.id ≠ depositKey k := fun heq => hk (Ledger.key_inj heq).symm
    simp [hk, Ledger.entryOf, depositInput, hne]

theorem ofUser_postedDb (db : Db) (input : PostJournalInput) (u : ℕ) (type : LedgerAccountType)
    (currency : String) : ofUser (postedDb db input).ledger.accounts u type currency =
      (ofUser db.ledger.accounts u type currency).map (fun a => { a with
        balanceMinor := a.balanceMinor + Ledger.amountOn a.id input.lines }) :=
  Ledger.ofUser_creditAll _ _ u type currency

theorem creditOf_postedDb (db : Db) (input : PostJournalInput) (u : ℕ) :
    creditOf (postedDb db input) u = creditOf db u := by
  funext j
  unfold creditOf
  rw [ofUser_postedDb, Option.map_map]
  rfl

theorem amountOn_deposit {k : ℕ} (hk : k ≠ clearing.id) :
    Ledger.amountOn k [⟨clearing.id, -amountMinor⟩, ⟨wallet.id, amountMinor⟩] =
      if wallet.id = k then amountMinor else 0 := by
  simp [hk.symm]

/-- A posting moves balances only, so what credited an answer before still does. -/
theorem CreditsAnswer.posted {k : ℕ} {j : JournalEntry} (h : CreditsAnswer w k j)
    (input : PostJournalInput) : CreditsAnswer { w with db := postedDb w.db input } k j := by
  obtain ⟨i, provider, amount, channel, clearing, wallet, hfind, hanswer, hwallet, hmem, htype,
    hlines, hcredit⟩ := h
  obtain ⟨b, hb, hbid⟩ : ∃ b ∈ (Ledger.creditAll w.db.ledger.accounts input.lines).rows,
      Ledger.owner b = Ledger.owner clearing := (Ledger.same_creditAll _ _).mem_of hmem
  have hwallet' := ofUser_postedDb w.db input i.userId .userAvailable "NGN"
  rw [hwallet] at hwallet'
  refine ⟨i, provider, amount, channel, b, _, hfind, hanswer, hwallet', hb,
    (Ledger.type_of_owner hbid).trans htype, ?_, ?_⟩
  · rw [Ledger.id_of_owner hbid]
    exact hlines
  · change creditOf (postedDb _ _) _ j = amount
    rw [creditOf_postedDb]
    exact hcredit

section Accounts
variable (hwallet : ofUser w.db.ledger.accounts intent.userId .userAvailable "NGN" = some wallet)
  (hclearing : ofSystem w.db.ledger.accounts .gatewayClearing = some clearing)
include hwallet hclearing

theorem walletBalance_postedDb (u : ℕ) :
    walletBalance (postedDb w.db (depositInput intent provider amountMinor channel clearing wallet)) u =
      walletBalance w.db u + if u = intent.userId then amountMinor else 0 := by
  obtain ⟨hmem, htype, _⟩ := ofSystem_some hclearing
  exact Ledger.balance_transfer hwallet hmem (by rw [htype]; rintro ⟨⟩)
    (fun k hk => amountOn_deposit hk) u

/-- The entry of a deposit credits its user with the amount of the answer. -/
theorem creditOf_deposit (id : ℕ) : creditOf w.db intent.userId
    (Ledger.entryOf (depositInput intent provider amountMinor channel clearing wallet) id) =
      amountMinor := by
  obtain ⟨hmem, htype, _⟩ := ofSystem_some hclearing
  obtain ⟨hwmem, _, hwtype, _⟩ := ofUser_some hwallet
  have hne : wallet.id ≠ clearing.id := by
    intro heq
    rw [w.db.ledger.accounts.eq_of_id_eq hwmem hmem heq, htype] at hwtype
    cases hwtype
  unfold creditOf
  rw [hwallet]
  simp only [Option.map_some, Option.getD_some]
  exact (amountOn_deposit hne).trans (if_pos rfl)

/-- A first deposit raises what its own intent is credited with, and no other. -/
theorem credited_postedDb (hnil : depositsOf w.db intent.id = []) {i : PaymentIntent}
    (huser : i.id = intent.id → i.userId = intent.userId) (u : ℕ) :
    credited (postedDb w.db (depositInput intent provider amountMinor channel clearing wallet)) u i =
      credited w.db u i +
        if Row.id i = intent.id then (if u = intent.userId then amountMinor else 0) else 0 := by
  unfold credited
  rw [depositsOf_postedDb, creditOf_postedDb]
  by_cases hid : i.id = intent.id
  · rw [if_pos hid, if_pos (show Row.id i = intent.id from hid), hid, hnil, huser hid]
    by_cases hu : intent.userId = u
    · subst hu
      simp [creditOf_deposit hwallet hclearing]
    · simp [hu, Ne.symm hu]
  · rw [if_neg hid, if_neg (show Row.id i ≠ intent.id from hid), List.append_nil, add_zero]

theorem Tallied.posted (h : Tallied start w) (hlisted : Listed w.db intent)
    (hanswer : (intent.id, .success provider amountMinor channel) ∈ w.answers)
    (hkey : w.db.ledger.entryByKey (depositKey intent.id) = none) :
    Tallied start { w with
      db := postedDb w.db (depositInput intent provider amountMinor channel clearing wallet) } := by
  obtain ⟨i₀, hfind, huser⟩ := hlisted
  obtain ⟨hcmem, hctype, _⟩ := ofSystem_some hclearing
  have hnil : depositsOf w.db intent.id = [] := by
    by_contra hne
    exact (depositsOf_ne_nil_iff h intent.id).1 hne hkey
  have hcredited : ∀ u, ∀ i ∈ w.db.paymentIntents.rows, credited (postedDb w.db (depositInput intent
      provider amountMinor channel clearing wallet)) u i =
      credited w.db u i +
        if Row.id i = intent.id then (if u = intent.userId then amountMinor else 0) else 0 := by
    intro u i hi
    apply credited_postedDb hwallet hclearing hnil
    intro hid
    have hi₀ := (Table.find_eq_some_iff _ _ _).2 ⟨hi, hid⟩
    rw [Option.some.inj (hi₀.symm.trans hfind), huser]
  refine ⟨fun k => ?_, fun j hj k hk => ?_, fun u => ?_, fun k hk => ?_, fun i hi hs => ?_⟩
  · change (depositsOf (postedDb _ _) k).length ≤ 1
    rw [depositsOf_postedDb, List.length_append]
    split_ifs with hk
    · rw [hk, hnil]
      simp
    · have hone := h.once k
      simp only [List.length_nil]
      omega
  · rcases (Ledger.mem_posted_journal _ _ j).1 hj with hj | rfl
    · obtain ⟨htype, hcredit⟩ := h.entries j hj k hk
      exact ⟨htype, hcredit.posted _⟩
    · obtain rfl : intent.id = k := Ledger.key_inj hk
      have hentry : CreditsAnswer w intent.id (Ledger.entryOf (depositInput intent provider
          amountMinor channel clearing wallet) w.db.ledger.journal.fresh) := by
        refine ⟨i₀, provider, amountMinor, channel, clearing, wallet, hfind, hanswer, ?_, hcmem,
          hctype, rfl, ?_⟩
        · rw [huser]
          exact hwallet
        · rw [huser]
          exact creditOf_deposit hwallet hclearing _
      exact ⟨rfl, hentry.posted _⟩
  · have hsum : (w.db.paymentIntents.rows.map (credited (postedDb w.db (depositInput intent provider
        amountMinor channel clearing wallet)) u)).sum =
        (w.db.paymentIntents.rows.map (credited w.db u)).sum +
          if u = intent.userId then amountMinor else 0 := by
      rw [List.map_congr_left (hcredited u), Table.sum_add_at _ _ _ hfind]
    change walletBalance (postedDb _ _) u =
      walletBalance start u + (w.db.paymentIntents.rows.map (credited (postedDb _ _) u)).sum
    rw [hsum, walletBalance_postedDb hwallet hclearing, h.balance u, add_assoc]
  · change depositsOf (postedDb _ _) k ≠ []
    rw [depositsOf_postedDb]
    intro hnil
    exact h.returned k hk (List.append_eq_nil_iff.1 hnil).1
  · change depositsOf (postedDb _ _) i.id ≠ []
    rw [depositsOf_postedDb]
    intro hnil
    exact h.succeeded i hi hs (List.append_eq_nil_iff.1 hnil).1

end Accounts

end Posting

section Steps
variable {start : Db} {w : World}

theorem owner_update (t : Table PaymentIntent) (k : ℕ) {f : PaymentIntent → PaymentIntent}
    (hf : ∀ i, Row.id (f i) = Row.id i) (howner : ∀ i, owner (f i) = owner i) :
    (t.update k f hf).rows.map owner = t.rows.map owner ++ [].map owner := by
  rw [List.map_nil, List.append_nil]
  exact Table.same_update hf (fun i _ _ => howner i)

/-- Writing over an intent something else than a success. -/
theorem Tallied.update (h : Tallied start w) {k : ℕ} {f : PaymentIntent → PaymentIntent}
    (hf : ∀ i, Row.id (f i) = Row.id i) (howner : ∀ i, owner (f i) = owner i)
    (hstatus : ∀ i, (f i).status ≠ .succeeded) :
    Tallied start { w with
      db := { w.db with paymentIntents := w.db.paymentIntents.update k f hf } } := by
  refine h.of_ledger rfl (fun _ hx => hx) (fun _ hk => Or.inl hk) (owner_update _ k hf howner)
    (fun i hi => by cases hi) (fun i hi hs => ?_)
  obtain ⟨x, hx, rfl⟩ := (Table.mem_updateWhere _ _ _ hf i).1 hi
  split_ifs at hs ⊢
  · exact absurd hs (hstatus x)
  · exact h.succeeded x hx hs

/-- A returned status is one that the invariant covers. -/
theorem Tallied.return_ (h : Tallied start w) {k : ℕ} {status : PaymentStatus}
    (hstatus : status = .succeeded → depositsOf w.db k ≠ []) :
    Tallied start { w with returned := w.returned ++ [(k, status)] } := by
  refine ⟨h.once, h.entries, h.balance, fun j hj => ?_, h.succeeded⟩
  rcases List.mem_append.1 hj with hj | hj
  · exact h.returned j hj
  · rw [List.mem_singleton, Prod.mk.injEq] at hj
    rw [hj.1]
    exact hstatus hj.2.symm

/-- A successful settlement leaves the deposit of its intent, whether it posts or replays. -/
theorem tallied_settledDb (h : Tallied start w) (now : DateTime) {intent : PaymentIntent}
    {provider channel : String} {amountMinor : ℤ} {wallet clearing : LedgerAccount} {id : ℕ}
    {l : Ledger} (hlisted : Listed w.db intent)
    (hanswer : (intent.id, .success provider amountMinor channel) ∈ w.answers)
    (hwallet : ofUser w.db.ledger.accounts intent.userId .userAvailable "NGN" = some wallet)
    (hclearing : ofSystem w.db.ledger.accounts .gatewayClearing = some clearing)
    (hpost : Ledger.post (depositInput intent provider amountMinor channel clearing wallet)
      w.db.ledger = .ok (id, l)) :
    Tallied start { w with
      db := settledDb now intent amountMinor channel l w.db
      returned := w.returned ++ [(intent.id, .succeeded)] } := by
  have hposted : Tallied start { w with db := { w.db with ledger := l } } ∧
      depositsOf { w.db with ledger := l } intent.id ≠ [] := by
    obtain ⟨_, ⟨j, hj, _, rfl⟩ | ⟨hkey, _, rfl, _⟩⟩ := Ledger.post_ok_cases hpost
    · refine ⟨h, (depositsOf_ne_nil_iff h intent.id).2 ?_⟩
      change w.db.ledger.entryByKey (depositKey intent.id) = some j at hj
      rw [hj]
      rintro ⟨⟩
    · refine ⟨h.posted hwallet hclearing hlisted hanswer hkey, ?_⟩
      change depositsOf (postedDb _ _) intent.id ≠ []
      rw [depositsOf_postedDb, if_pos rfl]
      simp
  obtain ⟨htallied, hdeposit⟩ := hposted
  refine htallied.of_ledger rfl (fun _ hx => hx) (fun k hk => ?_)
    (owner_update _ intent.id (id_succeeded now amountMinor channel) (fun _ => rfl))
    (fun i hi => by cases hi) (fun i hi hs => ?_)
  · rcases List.mem_append.1 hk with hk | hk
    · exact Or.inl hk
    · rw [List.mem_singleton, Prod.mk.injEq] at hk
      exact Or.inr (hk.1 ▸ hdeposit)
  · obtain ⟨x, hx, rfl⟩ := (Table.mem_updateWhere _ _ _ (id_succeeded now amountMinor channel) i).1 hi
    split_ifs at hs ⊢ with hid
    · rw [show (succeeded now amountMinor channel x).id = intent.id from hid]
      exact hdeposit
    · exact htallied.succeeded x hx hs

theorem Tallied.effect (h : Tallied start w) {config : Config} {tick : Tick} {t : Task} {w' : World}
    {o : Option Task} (ht : Known w t) (heffect : Effect config tick w t w' o) :
    Tallied start w' := by
  cases heffect with
  | stop t => exact h
  | userFound userId amountMinor user hfind => exact h
  | created user amountMinor hfree =>
    refine h.of_ledger rfl (fun _ hx => hx) (fun _ hk => Or.inl hk)
      (show _ = _ ++ [newIntent config.provider user.id amountMinor
        w.db.paymentIntents.fresh].map owner from List.map_append) (fun i hi => ?_)
      (fun i hi hs => ?_)
    · rw [List.mem_singleton.1 hi]
      exact depositsOf_eq_nil h w.db.paymentIntents.find_fresh
    · rcases (Table.mem_insert _ _ (id_newIntent _ _ _) i).1 hi with hi | rfl
      · exact h.succeeded i hi hs
      · cases hs
  | initialized input providerRef hanswer => exact h
  | attached intentId providerRef i hfind hfree =>
    exact h.update (id_attached providerRef) (fun _ => rfl) (fun _ => by simp [DepositCalls.attached])
  | intentRead reference intent hfind hstatus => exact h
  | alreadySettled reference i hfind hstatus =>
    obtain ⟨hmem, hid⟩ := (Table.find_eq_some_iff _ _ _).1 hfind
    exact h.return_ (fun _ => hid ▸ h.succeeded i hmem hstatus)
  | verified intent =>
    refine ⟨h.once, fun j hj k hk => ?_, h.balance, h.returned, h.succeeded⟩
    obtain ⟨htype, intent', provider, amount, channel, clearing, wallet, hfind, hans, hrest⟩ :=
      h.entries j hj k hk
    exact ⟨htype, intent', provider, amount, channel, clearing, wallet, hfind,
      List.mem_append_left _ hans, hrest⟩
  | stillPending intent => exact h.return_ (by rintro ⟨⟩)
  | refused intent hrow =>
    have hupdate := h.update (k := intent.id) id_refused (fun _ => rfl)
      (fun _ => by simp [DepositCalls.refused])
    exact hupdate.return_ (by rintro ⟨⟩)
  | succeeded intent provider amountMinor channel wallet clearing id l hwallet hclearing hpost =>
    exact tallied_settledDb h tick.now ht.1 ht.2 hwallet hclearing hpost

end Steps

section Runs

/-- No step removes an intent, gives it to another user or forgets an answer. -/
theorem Known.effect {config : Config} {tick : Tick} {w w' : World} {t u : Task} {o : Option Task}
    (heffect : Effect config tick w t w' o) (hu : Known w u) : Known w' u := by
  have hkeeps : Table.Keeps PaymentIntent.userId w.db.paymentIntents w'.db.paymentIntents := by
    cases heffect with
    | created user amountMinor hfree => exact Table.keeps_insert _ _ _ (id_newIntent _ _ _)
    | attached intentId providerRef i hfind hfree =>
      exact Table.keeps_updateWhere _ _ _ _ (id_attached providerRef) (fun _ => rfl)
    | refused intent hrow => exact Table.keeps_updateWhere _ _ _ _ id_refused (fun _ => rfl)
    | succeeded intent provider amountMinor channel =>
      exact Table.keeps_updateWhere _ _ _ _ (id_succeeded tick.now amountMinor channel) (fun _ => rfl)
    | _ => exact Table.Keeps.refl _ _
  have hlisted : ∀ {intent : PaymentIntent}, Listed w.db intent → Listed w'.db intent := by
    rintro intent ⟨i, hfind, huser⟩
    obtain ⟨i', hfind', huser'⟩ := hkeeps.find hfind
    exact ⟨i', hfind', huser'.trans huser⟩
  have hanswers : ∀ x ∈ w.answers, x ∈ w'.answers := by
    intro x hx
    cases heffect with
    | verified intent => exact List.mem_append_left _ hx
    | _ => exact hx
  cases u with
  | verifyDeposit intent => exact hlisted hu
  | settleTx intent verification => exact ⟨hlisted hu.1, hanswers _ hu.2⟩
  | _ => trivial

/-- What a call hands on is known. -/
theorem Known.next {config : Config} {tick : Tick} {w w' : World} {t t' : Task}
    (heffect : Effect config tick w t w' (some t')) (ht : Known w t) : Known w' t' := by
  cases heffect with
  | intentRead reference intent hfind hstatus =>
    obtain ⟨_, rfl⟩ := (Table.find_eq_some_iff _ _ _).1 hfind
    exact ⟨intent, hfind, rfl⟩
  | verified intent => exact ⟨ht, List.mem_append_right _ (List.mem_singleton.2 rfl)⟩
  | _ => trivial

theorem tallied_inductive (config : Config) (start : Db) :
    (protocol config).Inductive (fun _ _ _ => True) (Tallied start) Known where
  init _ _ _ := trivial
  shared tick t w h ht _ := h.effect ht (effect_step config tick t w)
  cont tick t w _ _ ht _ hnext := Known.next (hnext ▸ effect_step config tick t w) ht
  stable tick t w _ _ _ _ hu := hu.effect (effect_step config tick t w)

/-- Before the first settlement. -/
structure Opened (w : World) : Prop where
  answers : w.answers = []
  returned : w.returned = []
  keys : ∀ j ∈ w.db.ledger.journal.rows, ∀ k, j.idempotencyKey ≠ depositKey k
  unsettled : ∀ i ∈ w.db.paymentIntents.rows, i.status ≠ .succeeded

theorem Opened.depositsOf_eq_nil {w : World} (h : Opened w) (k : ℕ) : depositsOf w.db k = [] := by
  rw [depositsOf, Table.findMany_eq_nil_iff]
  rintro j hmem ⟨_, hkey⟩
  exact h.keys j hmem k hkey

theorem Opened.tallied {w : World} (h : Opened w) : Tallied w.db w := by
  have hnil := h.depositsOf_eq_nil
  refine ⟨fun k => by simp [hnil k], fun j hj k hk => absurd hk (h.keys j hj k), fun u => ?_,
    fun k hk => ?_, fun i hi hs => absurd hs (h.unsettled i hi)⟩
  · have hzero : ∀ i ∈ w.db.paymentIntents.rows, credited w.db u i = 0 := by
      intro i _
      simp [credited, hnil]
    rw [List.map_congr_left hzero]
    simp
  · rw [h.returned] at hk
    cases hk

/-- In every interleaving of checkouts and settlements, whatever the gateway answers,
each intent is credited at most once, to its user and with an answer's amount; the
wallets rise by exactly these deposits, and SUCCEEDED is returned only over one. -/
theorem creditedOnce_of_run (config : Config) {w : World} (h : Opened w)
    (as : List (Act Call Tick)) :
    (protocol config).Throughout (CreditedOnce w.db) ⟨w, []⟩ as :=
  (tallied_inductive config w.db).throughout (fun _ htallied => htallied.creditedOnce)
    ⟨h.tallied, by simp⟩ ((protocol config).along_of_forall (fun _ _ _ => trivial) ⟨w, []⟩ as)

end Runs

section Sample

def paystack : Config := ⟨"PAYSTACK", "https://app.example"⟩

/-- A user with an empty wallet and no deposit yet. -/
def checkoutWorld : World where
  db := { Db.empty with
    users := ⟨[⟨7, "ada@example.com"⟩], by decide⟩
    ledger :=
      { accounts := ⟨[⟨0, .gatewayClearing, none, none, "NGN", 0⟩,
          ⟨1, .userAvailable, some 7, none, "NGN", 0⟩], by decide⟩
        journal := Table.empty } }
  answers := []
  returned := []

def paidTick : Tick := ⟨10, some "ref-0", .success "PAYSTACK" 50000 "card"⟩

/-- A checkout, and then webhook and client settle side by side. -/
def settledTwice : List (Act Call Tick) :=
  [.start (.initiate 7 50000), .resume 0 paidTick, .resume 0 paidTick, .resume 0 paidTick,
    .resume 0 paidTick, .start (.settle 0), .start (.settle 0), .resume 0 paidTick,
    .resume 1 paidTick, .resume 0 paidTick, .resume 1 paidTick, .resume 0 paidTick,
    .resume 0 paidTick]

theorem creditedOnce_of_run_settledTwice :
    (protocol paystack).Throughout (CreditedOnce checkoutWorld.db) ⟨checkoutWorld, []⟩ settledTwice ∧
      ((protocol paystack).run ⟨checkoutWorld, []⟩ settledTwice).shared.returned =
        [(0, .succeeded), (0, .succeeded)] ∧
      walletBalance ((protocol paystack).run ⟨checkoutWorld, []⟩ settledTwice).shared.db 7 = 50000 :=
  ⟨creditedOnce_of_run paystack ⟨rfl, rfl, (fun j hj => by cases hj), by decide⟩ settledTwice, by decide +kernel,
    by decide +kernel⟩

end Sample

end DepositRuns
end FootballIQ
