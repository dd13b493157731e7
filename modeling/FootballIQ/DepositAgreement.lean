import FootballIQ.DepositRuns

/-!
# Journal, intent and outbox of a deposit

The key keeps a deposit from being posted twice, and nothing else. A status write
or an event that comes after the posting is neither refused nor repeated
harmlessly, so the three stores agree only as long as no such write comes.
-/

namespace FootballIQ
namespace DepositAgreement

open Transaction Relational Interleaving WalletAccounts Deposits DepositCalls DepositRuns

section Property

def isCreditFor (intentId : ℕ) : DomainEvent → Bool
  | .walletCredited _ _ source reference => source = "DEPOSIT" ∧ reference = intentId
  | _ => false

def creditEvents (db : Db) (intentId : ℕ) : List DomainEvent :=
  db.outbox.filter (isCreditFor intentId)

/-- An intent with a deposit has succeeded with its amount and one event. -/
def Agreed (amountOf : ℕ → ℤ) (w : World) : Prop :=
  ∀ k, depositsOf w.db k ≠ [] →
    (∃ i, w.db.paymentIntents.find k = some i ∧ i.status = .succeeded ∧
      i.amountMinor = amountOf k) ∧ (creditEvents w.db k).length = 1

/-- The gateway reports every success of a payment with one positive amount. -/
def Honest (amountOf : ℕ → ℤ) (tick : Tick) (t : Task) (_ : World) : Prop :=
  match t, tick.verification with
  | .verifyDeposit intent, .success _ amountMinor _ =>
    amountMinor = amountOf intent.id ∧ 0 < amountMinor
  | _, _ => True

instance (amountOf : ℕ → ℤ) (tick : Tick) (t : Task) (w : World) :
    Decidable (Honest amountOf tick t w) := by
  unfold Honest
  split <;> infer_instance

/-- No write comes after the deposit: not the status of a failure, not a second
success, and not the reference of the checkout, unless that is taken. -/
def Timely (_ : Tick) (t : Task) (w : World) : Prop :=
  match t with
  | .settleTx intent .failed | .settleTx intent (.success _ _ _) => depositsOf w.db intent.id = []
  | .attachRef intentId providerRef => depositsOf w.db intentId = [] ∨
    ∀ i, w.db.paymentIntents.find intentId = some i → RefTaken w.db intentId i.provider providerRef
  | _ => True

end Property

/-- Beside the tally: no event without a deposit, and no deposit without a clearing account. -/
structure Traced (start : Db) (w : World) : Prop where
  tallied : Tallied start w
  events : ∀ k, depositsOf w.db k = [] → creditEvents w.db k = []
  clearing : ∀ k, depositsOf w.db k ≠ [] → ofSystem w.db.ledger.accounts .gatewayClearing ≠ none

/-- An answer on its way has the amount of its payment. -/
def Priced (amountOf : ℕ → ℤ) (w : World) (t : Task) : Prop :=
  Known w t ∧ match t with
    | .settleTx intent (.success _ amountMinor _) =>
      amountMinor = amountOf intent.id ∧ 0 < amountMinor
    | _ => True

section Invariant
variable {start : Db} {w w' : World}

theorem creditEvents_append (db : Db) (userId : ℕ) (amountMinor : ℤ) (intentId k : ℕ) :
    creditEvents { db with
      outbox := db.outbox ++ [.walletCredited userId amountMinor "DEPOSIT" intentId] } k =
      creditEvents db k ++
        if intentId = k then [.walletCredited userId amountMinor "DEPOSIT" intentId] else [] := by
  unfold creditEvents
  rw [List.filter_append]
  by_cases hk : intentId = k
  · simp [isCreditFor, hk]
  · simp [isCreditFor, hk]

theorem ofSystem_of_post {l l' : Ledger} {input : PostJournalInput} {id : ℕ}
    (h : Ledger.post input l = .ok (id, l')) {type : LedgerAccountType}
    (hsome : ofSystem l.accounts type ≠ none) : ofSystem l'.accounts type ≠ none := by
  have hsame : (ofSystem l'.accounts type).map Ledger.owner =
      (ofSystem l.accounts type).map Ledger.owner := by
    refine (Ledger.extends_of_post h).accounts.findFirst _ (fun r r' hr => ?_)
    have ht := congrArg LedgerAccount.type hr
    have hu := congrArg LedgerAccount.userId hr
    have hc := congrArg LedgerAccount.contestId hr
    have hcur := congrArg LedgerAccount.currency hr
    simp only [Ledger.owner] at ht hu hc hcur
    rw [ht, hu, hc, hcur]
  intro hnone
  rw [hnone, Option.map_none, eq_comm, Option.map_eq_none_iff] at hsame
  exact hsome hsame

/-- A successful settlement adds a deposit to its intent at most. -/
theorem depositsOf_settledDb {tick : Tick} {intent : PaymentIntent} {provider channel : String}
    {amountMinor : ℤ} {wallet clearing : LedgerAccount} {id : ℕ} {l : Ledger}
    (hpost : Ledger.post (depositInput intent provider amountMinor channel clearing wallet)
      w.db.ledger = .ok (id, l)) {k : ℕ} (hk : k ≠ intent.id) :
    depositsOf (settledDb tick.now intent amountMinor channel l w.db) k = depositsOf w.db k := by
  obtain ⟨_, ⟨_, _, _, rfl⟩ | ⟨_, _, rfl, _⟩⟩ := Ledger.post_ok_cases hpost
  · rfl
  · change depositsOf (postedDb _ _) k = _
    rw [depositsOf_postedDb, if_neg hk, List.append_nil]

theorem Traced.effect (h : Traced start w) {config : Config} {tick : Tick} {t : Task}
    {o : Option Task} (ht : Known w t) (heffect : Effect config tick w t w' o) : Traced start w' := by
  have htallied := h.tallied.effect ht heffect
  cases heffect with
  | succeeded intent provider amountMinor channel wallet clearing id l hwallet hclearing hpost =>
    have hdeposit : depositsOf (settledDb tick.now intent amountMinor channel l w.db) intent.id ≠ [] :=
      htallied.returned intent.id (List.mem_append_right _ (List.mem_singleton.2 rfl))
    refine ⟨htallied, fun k hk => ?_, fun k _ => ?_⟩
    · have hne : k ≠ intent.id := by
        rintro rfl
        exact hdeposit hk
      change depositsOf (settledDb _ _ _ _ _ _) k = [] at hk
      rw [depositsOf_settledDb hpost hne] at hk
      refine (creditEvents_append w.db intent.userId amountMinor intent.id k).trans ?_
      rw [if_neg hne.symm, h.events k hk, List.append_nil]
    · refine ofSystem_of_post hpost ?_
      rw [hclearing]
      rintro ⟨⟩
  | _ => exact ⟨htallied, h.events, h.clearing⟩

theorem Priced.next {amountOf : ℕ → ℤ} {config : Config} {tick : Tick} {t t' : Task}
    (heffect : Effect config tick w t w' (some t')) (ht : Known w t)
    (hF : Honest amountOf tick t w) : Priced amountOf w' t' := by
  refine ⟨Known.next heffect ht, ?_⟩
  cases heffect with
  | verified intent =>
    cases hv : tick.verification with
    | pending | failed => trivial
    | success provider amountMinor channel =>
      simp only [Honest, hv] at hF
      exact hF
  | _ => trivial

theorem traced_inductive (config : Config) (start : Db) (amountOf : ℕ → ℤ) :
    (protocol config).Inductive (Honest amountOf) (Traced start) (Priced amountOf) where
  init _ _ _ := ⟨trivial, trivial⟩
  shared tick t w h ht _ := h.effect ht.1 (effect_step config tick t w)
  cont tick t w _ _ ht hF hnext := Priced.next (hnext ▸ effect_step config tick t w) ht.1 hF
  stable tick t w _ _ _ _ hu := ⟨hu.1.effect (effect_step config tick t w), hu.2⟩

end Invariant

section Steps
variable {start : Db} {w : World} {amountOf : ℕ → ℤ} {tick : Tick}

/-- Where no deposit is, an intent may be written. -/
theorem agreed_update (hq : Agreed amountOf w) {k : ℕ} (hk : depositsOf w.db k = [])
    {f : PaymentIntent → PaymentIntent} (hf : ∀ i, Row.id (f i) = Row.id i) {w' : World}
    (hdb : w'.db = { w.db with paymentIntents := w.db.paymentIntents.update k f hf }) :
    Agreed amountOf w' := by
  intro j hj
  rw [hdb] at hj ⊢
  obtain ⟨⟨i, hfind, hi⟩, hevents⟩ := hq j hj
  have hne : j ≠ k := by
    rintro rfl
    exact hj hk
  exact ⟨⟨i, (Table.find_update_of_ne _ _ hf hne).trans hfind, hi⟩, hevents⟩

/-- Over a deposit, another status disagrees with the journal. -/
theorem not_agreed_update {k : ℕ} (hk : depositsOf w.db k ≠ []) {f : PaymentIntent → PaymentIntent}
    (hf : ∀ i, Row.id (f i) = Row.id i) (hstatus : ∀ i, (f i).status ≠ .succeeded) {w' : World}
    (hdb : w'.db = { w.db with paymentIntents := w.db.paymentIntents.update k f hf }) :
    ¬ Agreed amountOf w' := by
  intro h
  obtain ⟨⟨i, hfind, hs, _⟩, _⟩ := h k (by rw [hdb]; exact hk)
  rw [hdb] at hfind
  change (w.db.paymentIntents.update k f hf).find k = some i at hfind
  rw [Table.find_update] at hfind
  obtain ⟨x, _, rfl⟩ := Option.map_eq_some_iff.1 hfind
  rw [if_pos rfl] at hs
  exact hstatus x hs

/-- A deposit that exists can always be settled again. -/
theorem settle_replays (h : Traced start w) {intent : PaymentIntent} {provider channel : String}
    {amountMinor : ℤ} (hlisted : Listed w.db intent) (hpos : 0 < amountMinor)
    (hk : depositsOf w.db intent.id ≠ []) :
    settleTx tick.now intent (.success provider amountMinor channel) w.db =
      .ok (.succeeded, settledDb tick.now intent amountMinor channel w.db.ledger w.db) := by
  obtain ⟨j, hj⟩ := Option.ne_none_iff_exists'.1 ((depositsOf_ne_nil_iff h.tallied intent.id).1 hk)
  obtain ⟨clearing, hclearing⟩ := Option.ne_none_iff_exists'.1 (h.clearing intent.id hk)
  obtain ⟨d, hd⟩ := List.exists_mem_of_ne_nil _ hk
  obtain ⟨hmem, _, hkey⟩ := (Table.mem_findMany _ _ d).1 hd
  obtain ⟨_, i, _, _, _, _, wallet, hfind, _, hwallet, _⟩ := h.tallied.entries d hmem intent.id hkey
  obtain ⟨i', hfind', huser⟩ := hlisted
  rw [Option.some.inj (hfind.symm.trans hfind'), huser] at hwallet
  have hvalid : Ledger.validateLines (depositInput intent provider amountMinor channel clearing
      wallet).lines = .ok () := by
    rw [Ledger.validateLines_ok_iff]
    refine ⟨le_refl 2, ?_, by simp [depositInput, Ledger.lineTotal]⟩
    intro line hline
    simp only [depositInput, List.mem_cons, List.not_mem_nil, or_false] at hline
    rcases hline with rfl | rfl
    · exact neg_ne_zero.2 hpos.ne'
    · exact hpos.ne'
  refine (settleTx_success_ok_iff _ _ _ _ _ _).2 ⟨wallet, clearing, j.id, w.db.ledger, hwallet,
    hclearing, Ledger.post_replay hvalid hj, ?_, rfl, rfl⟩
  rw [hfind']
  rintro ⟨⟩

/-- A success keeps the stores in agreement exactly when it is the first. -/
theorem success_agreed_iff (config : Config) (h : Traced start w) (hq : Agreed amountOf w)
    {intent : PaymentIntent} {provider channel : String} {amountMinor : ℤ}
    (ht : Priced amountOf w (.settleTx intent (.success provider amountMinor channel))) :
    Agreed amountOf (step config tick (.settleTx intent (.success provider amountMinor channel)) w).1 ↔
      depositsOf w.db intent.id = [] := by
  obtain ⟨⟨hlisted, _⟩, hamount, hpos⟩ := ht
  constructor
  · intro hagreed
    by_contra hk
    simp only [step, settle_replays h hlisted hpos hk] at hagreed
    obtain ⟨_, hevents⟩ := hagreed intent.id hk
    obtain ⟨_, hone⟩ := hq intent.id hk
    have happend := creditEvents_append w.db intent.userId amountMinor intent.id intent.id
    change creditEvents (settledDb tick.now intent amountMinor channel w.db.ledger w.db) intent.id =
      _ at happend
    rw [happend, List.length_append, hone, if_pos rfl, List.length_singleton] at hevents
    omega
  · intro hnil
    cases hrun : settleTx tick.now intent (.success provider amountMinor channel) w.db with
    | error e =>
      simp only [step, hrun]
      exact hq
    | ok r =>
      obtain ⟨status, db⟩ := r
      simp only [step, hrun]
      obtain ⟨wallet, clearing, id, l, _, _, hpost, hrow, _, rfl⟩ :=
        (settleTx_success_ok_iff tick.now intent provider amountMinor channel status).1 hrun
      obtain ⟨i, hfind⟩ := Option.ne_none_iff_exists'.1 hrow
      intro k hk
      change depositsOf (settledDb tick.now intent amountMinor channel l w.db) k ≠ [] at hk
      have happend := creditEvents_append w.db intent.userId amountMinor intent.id k
      change creditEvents (settledDb tick.now intent amountMinor channel l w.db) k = _ at happend
      change (∃ i, (w.db.paymentIntents.update intent.id (succeeded tick.now amountMinor channel)
        (id_succeeded tick.now amountMinor channel)).find k = some i ∧ _) ∧
        (creditEvents (settledDb tick.now intent amountMinor channel l w.db) k).length = 1
      rw [happend]
      by_cases hki : k = intent.id
      · subst hki
        rw [h.events intent.id hnil, if_pos rfl]
        exact ⟨⟨_, Table.find_update_self _ _ (id_succeeded tick.now amountMinor channel) hfind, rfl,
          hamount⟩, rfl⟩
      · rw [depositsOf_settledDb hpost hki] at hk
        obtain ⟨⟨x, hx, hxs⟩, hone⟩ := hq k hk
        rw [if_neg (Ne.symm hki), List.append_nil]
        exact ⟨⟨x, (Table.find_update_of_ne _ _ (id_succeeded tick.now amountMinor channel) hki).trans
          hx, hxs⟩, hone⟩

/-- A reported failure keeps them so exactly when nothing has been posted. -/
theorem failed_agreed_iff (config : Config) (hq : Agreed amountOf w) {intent : PaymentIntent}
    (hlisted : Listed w.db intent) :
    Agreed amountOf (step config tick (.settleTx intent .failed) w).1 ↔
      depositsOf w.db intent.id = [] := by
  obtain ⟨i, hfind, _⟩ := hlisted
  have hrow : w.db.paymentIntents.find intent.id ≠ none := by
    rw [hfind]
    rintro ⟨⟩
  have hrun := (settleTx_failed_ok_iff tick.now intent .failed).2 ⟨hrow, rfl, rfl⟩
  simp only [step, hrun]
  constructor
  · intro hagreed
    by_contra hk
    exact not_agreed_update hk id_refused (fun _ => by simp [refused]) rfl hagreed
  · intro hnil
    exact agreed_update hq hnil id_refused rfl

/-- The reference of the checkout keeps them so unless it overwrites a success. -/
theorem attachRef_agreed_iff (config : Config) (hq : Agreed amountOf w)
    (intentId : ℕ) (providerRef : String) :
    Agreed amountOf (step config tick (.attachRef intentId providerRef) w).1 ↔
      depositsOf w.db intentId = [] ∨ ∀ i, w.db.paymentIntents.find intentId = some i →
        RefTaken w.db intentId i.provider providerRef := by
  simp only [step, thenDo]
  cases hrun : attachRef intentId providerRef w.db with
  | ok r =>
    obtain ⟨u, db⟩ := r
    obtain ⟨i, hfind, hfree, rfl⟩ := (attachRef_ok_iff intentId providerRef u).1 hrun
    constructor
    · intro hagreed
      by_contra hno
      obtain ⟨hk, _⟩ := not_or.1 hno
      exact not_agreed_update hk (id_attached providerRef) (fun _ => by simp [attached]) rfl
        hagreed
    · rintro (hnil | htaken)
      · exact agreed_update hq hnil (id_attached providerRef) rfl
      · exact absurd (htaken i hfind) hfree
  | error e =>
    refine iff_of_true hq (Or.inr (fun i hfind => ?_))
    by_contra hfree
    cases hrun.symm.trans ((attachRef_ok_iff intentId providerRef ⟨⟩).2 ⟨i, hfind, hfree, rfl⟩)

/-- A step keeps the stores in agreement exactly when it is timely. -/
theorem step_agreed_iff (config : Config) {t : Task} (h : Traced start w) (ht : Priced amountOf w t)
    (hq : Agreed amountOf w) :
    Agreed amountOf (step config tick t w).1 ↔ Timely tick t w := by
  have haside : (step config tick t w).1.db = w.db → Agreed amountOf (step config tick t w).1 := by
    intro hdb
    unfold Agreed
    rw [hdb]
    exact hq
  have heffect := effect_step config tick t w
  cases t with
  | ready call =>
    refine iff_of_true (haside ?_) trivial
    generalize (step config tick (.ready call) w).1 = w',
      (step config tick (.ready call) w).2 = o at heffect
    cases heffect <;> rfl
  | createIntent user amountMinor =>
    refine iff_of_true ?_ trivial
    generalize (step config tick (.createIntent user amountMinor) w).1 = w',
      (step config tick (.createIntent user amountMinor) w).2 = o at heffect
    cases heffect with
    | stop => exact hq
    | created _ _ hfree =>
      intro k hk
      obtain ⟨⟨i, hfind, hi⟩, hone⟩ := hq k hk
      exact ⟨⟨i, Table.find_insert_of_some _ _ (id_newIntent _ _ _) hfind, hi⟩, hone⟩
  | initializeDeposit input => exact iff_of_true (haside rfl) trivial
  | attachRef intentId providerRef => exact attachRef_agreed_iff config hq intentId providerRef
  | verifyDeposit intent => exact iff_of_true (haside rfl) trivial
  | settleTx intent verification =>
    cases verification with
    | pending => exact iff_of_true (haside rfl) trivial
    | failed => exact failed_agreed_iff config hq ht.1.1
    | success provider amountMinor channel => exact success_agreed_iff config h hq ht

end Steps

/-- Where the gateway reports one positive amount for each payment, journal, intent
and outbox agree in every state of a run exactly when no write comes after a deposit. -/
theorem agreed_iff (config : Config) {w : World} (h : Opened w)
    (hevents : ∀ k, creditEvents w.db k = []) (amountOf : ℕ → ℤ) (as : List (Act Call Tick))
    (hhonest : (protocol config).Along (Honest amountOf) ⟨w, []⟩ as) :
    (protocol config).Throughout (Agreed amountOf) ⟨w, []⟩ as ↔
      (protocol config).Along Timely ⟨w, []⟩ as := by
  have hnone : ∀ k, depositsOf w.db k = [] := h.depositsOf_eq_nil
  have htraced : Traced w.db w :=
    ⟨h.tallied, fun k _ => hevents k, fun k hk => absurd (hnone k) hk⟩
  have hinductive := (traced_inductive config w.db amountOf).guarded
    (G := fun tick t w => Honest amountOf tick t w ∧ Timely tick t w) (fun _ _ _ hG => hG.1)
  exact hinductive.throughout_iff_along (fun _ _ _ _ hI hL hQ => step_agreed_iff config hI hL hQ)
    ⟨htraced, by simp⟩ (fun k hk => absurd (hnone k) hk) hhonest

section Sample

/-- A checkout that is settled once. -/
def settledOnce : List (Act Call Tick) :=
  [.start (.initiate 7 50000), .resume 0 paidTick, .resume 0 paidTick, .resume 0 paidTick,
    .resume 0 paidTick, .start (.settle 0), .resume 0 paidTick, .resume 0 paidTick,
    .resume 0 paidTick]

theorem checkoutWorld_opened : Opened checkoutWorld :=
  ⟨rfl, rfl, (fun j hj => by cases hj), by decide⟩

theorem agreed_iff_settledOnce :
    (protocol paystack).Throughout (Agreed (fun _ => 50000)) ⟨checkoutWorld, []⟩ settledOnce ↔
      (protocol paystack).Along Timely ⟨checkoutWorld, []⟩ settledOnce :=
  agreed_iff paystack checkoutWorld_opened (fun _ => rfl) (fun _ => 50000) settledOnce
    (by decide +kernel)

def failedTick : Tick := ⟨10, some "ref-0", .failed⟩

/-- The gateway first reports a failure and then the success, and the status of the
failure is written last. -/
def settledBackwards : List (Act Call Tick) :=
  [.start (.initiate 7 50000), .resume 0 paidTick, .resume 0 paidTick, .resume 0 paidTick,
    .resume 0 paidTick, .start (.settle 0), .resume 0 paidTick, .resume 0 failedTick,
    .start (.settle 0), .resume 1 paidTick, .resume 1 paidTick, .resume 1 paidTick,
    .resume 0 failedTick]

/-- A deposit that is in the wallet then belongs to a failed intent. -/
theorem failed_after_success :
    ¬ (protocol paystack).Throughout (Agreed (fun _ => 50000)) ⟨checkoutWorld, []⟩
      settledBackwards := by
  intro h
  have hlast := ((protocol paystack).throughout_iff_prefixes _ _ _).1 h settledBackwards
    (List.prefix_refl _)
  have hdeposit : depositsOf ((protocol paystack).run ⟨checkoutWorld, []⟩
      settledBackwards).shared.db 0 ≠ [] := by decide +kernel
  have hfailed : (((protocol paystack).run ⟨checkoutWorld, []⟩
      settledBackwards).shared.db.paymentIntents.find 0).map (·.status) = some .failed := by
    decide +kernel
  obtain ⟨⟨i, hfind, hstatus, _⟩, _⟩ := hlast 0 hdeposit
  rw [hfind, Option.map_some, hstatus] at hfailed
  cases hfailed

end Sample

end DepositAgreement
end FootballIQ
