import FootballIQ.DepositRuns

/-!
# The blank reference of an open checkout

An intent is inserted with an empty provider reference and gets its own only after
the gateway has answered. The pair of provider and reference is unique, so one such
row keeps every further checkout out, whoever opens it.
-/

namespace FootballIQ
namespace DepositIntents

open Transaction Relational Interleaving Deposits DepositCalls
open DepositRuns (paystack)

section Property

/-- The insert of a further `initiate` satisfies the unique index, for every user. -/
def Unblocked (config : Config) (w : World) : Prop :=
  ∀ userId amountMinor, ∃ r, createIntent config.provider userId amountMinor w.db = .ok r

/-- The reference that `initiate` sets below. -/
def Blank (config : Config) (i : PaymentIntent) : Prop :=
  i.provider = config.provider ∧ i.providerRef = ""

/-- The step is no insert of an intent. -/
def NoInsert (_ : Tick) (t : Task) (_ : World) : Prop :=
  match t with
  | .createIntent _ _ => False
  | _ => True

instance (tick : Tick) (t : Task) (w : World) : Decidable (NoInsert tick t w) := by
  unfold NoInsert
  split <;> infer_instance

end Property

section Steps
variable {config : Config} {w w' : World} {tick : Tick}

theorem refTaken_fresh_iff (db : Db) (provider providerRef : String) :
    RefTaken db db.paymentIntents.fresh provider providerRef ↔
      ∃ i ∈ db.paymentIntents.rows, i.provider = provider ∧ i.providerRef = providerRef := by
  constructor
  · rintro ⟨i, hi, _, hpair⟩
    exact ⟨i, hi, hpair⟩
  · rintro ⟨i, hi, hpair⟩
    exact ⟨i, hi, db.paymentIntents.fresh_ne hi, hpair⟩

/-- Checkouts can be opened exactly while no intent waits for its reference. -/
theorem unblocked_iff (config : Config) (w : World) :
    Unblocked config w ↔ ∀ i ∈ w.db.paymentIntents.rows, ¬ Blank config i := by
  constructor
  · intro h i hi hblank
    obtain ⟨⟨id, db⟩, hok⟩ := h 0 0
    obtain ⟨hfree, _⟩ := (createIntent_ok_iff config.provider 0 0 id).1 hok
    exact hfree ((refTaken_fresh_iff _ _ _).2 ⟨i, hi, hblank⟩)
  · intro h userId amountMinor
    refine ⟨_, (createIntent_ok_iff config.provider userId amountMinor _).2 ⟨?_, rfl, rfl⟩⟩
    intro htaken
    obtain ⟨i, hi, hblank⟩ := (refTaken_fresh_iff _ _ _).1 htaken
    exact h i hi hblank

theorem blank_newIntent (config : Config) (userId : ℕ) (amountMinor : ℤ) (id : ℕ) :
    Blank config (newIntent config.provider userId amountMinor id) := ⟨rfl, rfl⟩

/-- The columns that the unique index reads, with the id of the row. -/
def reference (i : PaymentIntent) : ℕ × String × String := (i.id, i.provider, i.providerRef)

theorem blank_congr {i i' : PaymentIntent} (h : reference i' = reference i) :
    Blank config i' ↔ Blank config i := by
  simp only [reference, Prod.mk.injEq] at h
  obtain ⟨_, hprovider, hproviderRef⟩ := h
  rw [Blank, Blank, hprovider, hproviderRef]

/-- A step inserts an intent, or sets the reference of one, or changes no reference. -/
theorem references_of_effect {t : Task} {o : Option Task} (h : Effect config tick w t w' o) :
    (∃ user amountMinor, t = .createIntent user amountMinor ∧
      ¬ RefTaken w.db w.db.paymentIntents.fresh config.provider "" ∧
      w'.db.paymentIntents.rows = w.db.paymentIntents.rows ++
        [newIntent config.provider user.id amountMinor w.db.paymentIntents.fresh]) ∨
    (∃ intentId providerRef i, t = .attachRef intentId providerRef ∧
      w.db.paymentIntents.find intentId = some i ∧
      ¬ RefTaken w.db intentId i.provider providerRef ∧
      w'.db.paymentIntents = w.db.paymentIntents.update intentId (attached providerRef)
        (id_attached providerRef)) ∨
    Table.Same reference w.db.paymentIntents w'.db.paymentIntents := by
  cases h with
  | created user amountMinor hfree => exact Or.inl ⟨user, amountMinor, rfl, hfree, rfl⟩
  | attached intentId providerRef i hfind hfree =>
    exact Or.inr (Or.inl ⟨intentId, providerRef, i, rfl, hfind, hfree, rfl⟩)
  | refused intent =>
    exact Or.inr (Or.inr (Table.same_update id_refused (fun _ _ _ => rfl)))
  | succeeded intent provider amountMinor channel =>
    exact Or.inr (Or.inr (Table.same_update (id_succeeded tick.now amountMinor channel)
      (fun _ _ _ => rfl)))
  | _ => exact Or.inr (Or.inr (Table.Same.refl _ _))

theorem unblocked_of_same (h : Table.Same reference w.db.paymentIntents w'.db.paymentIntents)
    (hw : Unblocked config w) : Unblocked config w' := by
  rw [unblocked_iff] at hw ⊢
  intro i' hi' hblank
  obtain ⟨i, hi, heq⟩ := h.mem hi'
  exact hw i hi ((blank_congr heq).2 hblank)

/-- An intent without a reference waits, or its own update has come. -/
theorem blank_of_effect {t : Task} {o : Option Task} (h : Effect config tick w t w' o)
    {i : PaymentIntent} (hi : i ∈ w.db.paymentIntents.rows) (hblank : Blank config i)
    (ht : ∀ providerRef, t ≠ .attachRef i.id providerRef) :
    ∃ i' ∈ w'.db.paymentIntents.rows, i'.id = i.id ∧ Blank config i' := by
  obtain ⟨user, amountMinor, _, _, hrows⟩ | ⟨intentId, providerRef, _, rfl, _, _, hrows⟩ | hsame :=
    references_of_effect h
  · exact ⟨i, hrows ▸ List.mem_append_left _ hi, rfl, hblank⟩
  · have hne : intentId ≠ i.id := by
      rintro rfl
      exact ht providerRef rfl
    have hfind : w'.db.paymentIntents.find i.id = some i := by
      rw [hrows, Table.find_update_of_ne _ _ (id_attached providerRef) hne.symm]
      exact Table.find_id _ hi
    exact ⟨i, ((Table.find_eq_some_iff _ _ i).1 hfind).1, rfl, hblank⟩
  · obtain ⟨i', hi', heq⟩ := hsame.mem_of hi
    exact ⟨i', hi', congrArg Prod.fst heq, (blank_congr heq).2 hblank⟩

end Steps

section Runs
variable {config : Config}

/-- No call is past its insert. -/
def BeforeInsert (_ : World) (t : Task) : Prop :=
  match t with
  | .initializeDeposit _ | .attachRef _ _ => False
  | _ => True

theorem BeforeInsert.next {tick : Tick} {t t' : Task} {w w' : World}
    (heffect : Effect config tick w t w' (some t')) (ht : BeforeInsert w t)
    (hno : NoInsert tick t w) : BeforeInsert w' t' := by
  cases heffect with
  | created => exact absurd hno id
  | initialized => exact absurd ht id
  | _ => trivial

theorem beforeInsert_inductive (config : Config) :
    (protocol config).Inductive NoInsert (fun _ => True) BeforeInsert where
  init _ _ _ := trivial
  shared _ _ _ _ _ _ := trivial
  cont tick t w _ _ ht hno hnext := ht.next (hnext ▸ effect_step config tick t w) hno
  stable _ _ _ _ _ _ _ hu := hu

/-- The insert that takes place blocks the next one. -/
theorem step_unblocked_iff (tick : Tick) {t : Task} {w : World} (ht : BeforeInsert w t)
    (hw : Unblocked config w) :
    Unblocked config (step config tick t w).1 ↔ NoInsert tick t w := by
  have heffect := effect_step config tick t w
  obtain ⟨user, amountMinor, rfl, _, hrows⟩ | ⟨_, _, _, rfl, _⟩ | hsame :=
    references_of_effect heffect
  · refine iff_of_false ?_ id
    rw [unblocked_iff]
    intro h
    refine h _ ?_ (blank_newIntent config user.id amountMinor w.db.paymentIntents.fresh)
    rw [hrows]
    exact List.mem_append_right _ List.mem_cons_self
  · exact absurd ht id
  · refine iff_of_true (unblocked_of_same hsame hw) ?_
    cases t with
    | createIntent user amountMinor =>
      obtain ⟨r, hr⟩ := hw user.id amountMinor
      obtain ⟨_, _, hdb⟩ := (createIntent_ok_iff config.provider user.id amountMinor r.1).1 hr
      have hmem : newIntent config.provider user.id amountMinor w.db.paymentIntents.fresh ∈
          (step config tick (.createIntent user amountMinor) w).1.db.paymentIntents.rows := by
        simp [step, thenDo, hr, hdb]
      obtain ⟨i, hi, heq⟩ := hsame.mem hmem
      exact absurd (congrArg Prod.fst heq) (w.db.paymentIntents.fresh_ne hi)
    | _ => trivial

/-- Every checkout of a run can be opened, in every state of it, exactly when the
first one can and none is. -/
theorem unblocked_iff_noInsert (config : Config) (w : World) (as : List (Act Call Tick)) :
    (protocol config).Throughout (Unblocked config) ⟨w, []⟩ as ↔
      Unblocked config w ∧ (protocol config).Along NoInsert ⟨w, []⟩ as := by
  have hstart : (protocol config).Throughout (Unblocked config) ⟨w, []⟩ as → Unblocked config w := by
    intro h
    exact ((protocol config).throughout_iff_prefixes _ _ _).1 h [] (List.nil_prefix)
  have hiff : Unblocked config w → ((protocol config).Throughout (Unblocked config) ⟨w, []⟩ as ↔
      (protocol config).Along NoInsert ⟨w, []⟩ as) := by
    intro hw
    exact (beforeInsert_inductive config).throughout_iff
      (fun tick t s _ ht hs => step_unblocked_iff tick ht hs) ⟨trivial, by simp⟩ hw as
  exact ⟨fun h => ⟨hstart h, (hiff (hstart h)).1 h⟩, fun h => (hiff h.1).2 h.2⟩

/-- From its insert until its own update an intent keeps every checkout out; where the
gateway never answers, for good. -/
theorem blocked_until_attached (config : Config) {c : Interleaving.Config World Task}
    {i : PaymentIntent} (hi : i ∈ c.shared.db.paymentIntents.rows) (hblank : Blank config i)
    {as : List (Act Call Tick)}
    (hA : (protocol config).Along (fun _ t _ => ∀ providerRef, t ≠ .attachRef i.id providerRef) c as) :
    (protocol config).Throughout (fun w => ¬ Unblocked config w) c as := by
  have hwaits : (protocol config).Inductive
      (fun _ t _ => ∀ providerRef, t ≠ .attachRef i.id providerRef)
      (fun w => ∃ i' ∈ w.db.paymentIntents.rows, i'.id = i.id ∧ Blank config i')
      (fun _ _ => True) :=
    { init := fun _ _ _ => trivial
      shared := by
        rintro tick t w ⟨i', hi', hid, hblank'⟩ _ ht
        obtain ⟨i'', hi'', hid', hblank''⟩ :=
          blank_of_effect (effect_step config tick t w) hi' hblank' (hid ▸ ht)
        exact ⟨i'', hi'', hid'.trans hid, hblank''⟩
      cont := fun _ _ _ _ _ _ _ _ => trivial
      stable := fun _ _ _ _ _ _ _ _ => trivial }
  apply hwaits.throughout _ ⟨⟨i, hi, rfl, hblank⟩, by simp⟩ hA
  rintro w ⟨i', hi', _, hblank'⟩ hw
  exact (unblocked_iff config w).1 hw i' hi' hblank'

/-- One intent at most waits for its reference. -/
def Alone (config : Config) (w : World) : Prop :=
  ∀ i ∈ w.db.paymentIntents.rows, ∀ i' ∈ w.db.paymentIntents.rows,
    Blank config i → Blank config i' → i.id = i'.id

theorem alone_step (tick : Tick) (t : Task) {w : World} (h : Alone config w) :
    Alone config (step config tick t w).1 := by
  obtain ⟨user, amountMinor, _, hfree, hrows⟩ | ⟨intentId, providerRef, i, _, hfind, hfree, hrows⟩ |
    hsame := references_of_effect (effect_step config tick t w)
  · -- the index lets an intent in only when none waits
    have hnone : ∀ x ∈ w.db.paymentIntents.rows, ¬ Blank config x := fun x hx hblank =>
      hfree ((refTaken_fresh_iff _ _ _).2 ⟨x, hx, hblank⟩)
    intro x hx y hy hbx hby
    rw [hrows, List.mem_append, List.mem_singleton] at hx hy
    obtain hx | rfl := hx
    · exact absurd hbx (hnone x hx)
    obtain hy | rfl := hy
    · exact absurd hby (hnone y hy)
    rfl
  · have hold : ∀ x ∈ (step config tick t w).1.db.paymentIntents.rows, x.id ≠ intentId →
        x ∈ w.db.paymentIntents.rows := by
      intro x hx hne
      rw [hrows] at hx
      exact Table.mem_of_mem_update _ _ (id_attached providerRef) hx hne
    have hset : ∀ x ∈ (step config tick t w).1.db.paymentIntents.rows, x.id = intentId →
        x = attached providerRef i := by
      intro x hx hid
      have hx' := (Table.find_update_self w.db.paymentIntents _ (id_attached providerRef) hfind)
      rw [← hrows] at hx'
      exact Option.some.inj (((Table.find_eq_some_iff _ _ x).2 ⟨hx, hid⟩).symm.trans hx')
    have hapart : ∀ x ∈ (step config tick t w).1.db.paymentIntents.rows,
        ∀ y ∈ (step config tick t w).1.db.paymentIntents.rows, x.id = intentId → y.id ≠ intentId →
        Blank config x → ¬ Blank config y := by
      intro x hx y hy hid hne hbx hby
      rw [hset x hx hid] at hbx
      exact hfree ⟨y, hold y hy hne, hne, hby.1.trans hbx.1.symm, hby.2.trans hbx.2.symm⟩
    intro x hx y hy hbx hby
    by_cases hidx : x.id = intentId
    · by_contra hne
      exact hapart x hx y hy hidx (fun hidy => hne (hidx.trans hidy.symm)) hbx hby
    · by_cases hidy : y.id = intentId
      · exact absurd hbx (hapart y hy x hx hidy hidx hby)
      · exact h x (hold x hx hidx) y (hold y hy hidy) hbx hby
  · intro x hx y hy hbx hby
    obtain ⟨x', hx', heqx⟩ := hsame.mem hx
    obtain ⟨y', hy', heqy⟩ := hsame.mem hy
    have hid := h x' hx' y' hy' ((blank_congr heqx).2 hbx) ((blank_congr heqy).2 hby)
    exact (congrArg Prod.fst heqx).symm.trans (hid.trans (congrArg Prod.fst heqy))

/-- In every state of a run one intent at most keeps the others out. -/
theorem alone_of_run {w : World} (h : Alone config w) (as : List (Act Call Tick)) :
    (protocol config).Throughout (Alone config) ⟨w, []⟩ as := by
  have halone : (protocol config).Inductive (fun _ _ _ => True) (Alone config) (fun _ _ => True) :=
    { init := fun _ _ _ => trivial
      shared := fun tick t _ hw _ _ => alone_step tick t hw
      cont := fun _ _ _ _ _ _ _ _ => trivial
      stable := fun _ _ _ _ _ _ _ _ => trivial }
  exact halone.throughout (fun _ hw => hw) ⟨h, by simp⟩
    ((protocol config).along_of_forall (fun _ _ _ => trivial) _ as)

/-- The reference of the waiting intent lets them in again. -/
theorem unblocked_of_attachRef {w : World} (h : Alone config w) {i : PaymentIntent}
    (hi : i ∈ w.db.paymentIntents.rows) (hblank : Blank config i) {providerRef : String}
    (href : providerRef ≠ "") (hfree : ¬ RefTaken w.db i.id i.provider providerRef) (tick : Tick) :
    Unblocked config (step config tick (.attachRef i.id providerRef) w).1 := by
  have hrun := (attachRef_ok_iff i.id providerRef ⟨⟩).2 ⟨i, Table.find_id _ hi, hfree, rfl⟩
  simp only [step, thenDo, hrun]
  rw [unblocked_iff]
  intro x hx hbx
  obtain ⟨y, hy, rfl⟩ := (Table.mem_updateWhere _ _ _ (id_attached providerRef) x).1 hx
  split_ifs at hbx with hid
  · exact href hbx.2
  · exact hid (h y hy i hi hbx hblank)

end Runs

section Sample

/-- Two users without a deposit. -/
def twoUsersWorld : World where
  db := { Db.empty with
    users := ⟨[⟨7, "ada@example.com"⟩, ⟨8, "obi@example.com"⟩], by decide⟩ }
  answers := []
  returned := []

def noCheckout : Tick := ⟨10, none, .pending⟩

/-- The gateway cannot open the checkout of the first user. -/
def abandoned : List (Act Call Tick) :=
  [.start (.initiate 7 50000), .resume 0 noCheckout, .resume 0 noCheckout, .resume 0 noCheckout]

/-- The second user then cannot open one either. -/
theorem blocked_by_abandoned :
    ¬ (protocol paystack).Throughout (Unblocked paystack) ⟨twoUsersWorld, []⟩ abandoned := by
  intro h
  have hlast := ((protocol paystack).throughout_iff_prefixes _ _ _).1 h abandoned
    (List.prefix_refl _)
  have hrefused : createIntent "PAYSTACK" 8 70000
      ((protocol paystack).run ⟨twoUsersWorld, []⟩ abandoned).shared.db = .error .uniqueViolation := by
    decide +kernel
  obtain ⟨r, hr⟩ := hlast 8 70000
  cases hrefused.symm.trans hr

end Sample

end DepositIntents
end FootballIQ
