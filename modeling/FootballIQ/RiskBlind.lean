import FootballIQ.Coupling
import FootballIQ.Platform

/-!
# Steps that do not see the settings

Two databases are alike if they differ in settings and in what is computed from
settings for the record: the flags and later versions of the rule sets, the difficulty
of fixtures, the risk of entries. The rule set of every contest holds the same rules in
both. Every transaction of the platform but a creation takes alike databases to alike
ones.
-/

namespace FootballIQ
namespace RiskBlind

open Transaction Relational WalletAccounts Contests

section Alikeness

/-- An entry without its risk. -/
def unrated (e : Entry) : Entry := { e with riskProfile := none, riskPct := none }

/-- The database with other settings, and with entries that were rated under others. -/
def under (db : Db) (entries : Table Entry) (ruleSets : Table RuleSet)
    (difficulties : Table FixtureDifficulty) : Db :=
  { db with
    entries := entries
    ruleSets := ruleSets
    fixtureDifficulties := difficulties }

/-- Every contest finds its rules in both tables. -/
def Pinned (contests : Table Contest) (t t' : Table RuleSet) : Prop :=
  ∀ c ∈ contests.rows, ∃ r r', t.find c.ruleSetId = some r ∧ t'.find c.ruleSetId = some r' ∧
    r'.marketRules = r.marketRules

inductive Alike (db : Db) : Db → Prop where
  | mk (entries : Table Entry) (ruleSets : Table RuleSet)
      (difficulties : Table FixtureDifficulty)
      (hentries : Table.Same unrated db.entries entries)
      (hrules : Pinned db.contests db.ruleSets ruleSets) :
      Alike db (under db entries ruleSets difficulties)

theorem id_eq_of_unrated {e e' : Entry} (h : unrated e = unrated e') : Row.id e = Row.id e' := by
  have hid := congrArg Entry.id h
  exact hid

theorem Pinned.updateWhere {contests : Table Contest} {t t' : Table RuleSet}
    (h : Pinned contests t t') {p : Contest → Prop} [DecidablePred p] {f : Contest → Contest}
    (hf : ∀ c, Row.id (f c) = Row.id c) (hrule : ∀ c, (f c).ruleSetId = c.ruleSetId) :
    Pinned (contests.updateWhere p f hf) t t' := by
  intro c hc
  obtain ⟨c₀, hc₀, rfl⟩ := (Table.mem_updateWhere _ _ _ hf c).1 hc
  have hid : (if p c₀ then f c₀ else c₀).ruleSetId = c₀.ruleSetId := by
    split_ifs
    · exact hrule c₀
    · rfl
  rw [hid]
  exact h c₀ hc₀

end Alikeness

section Primitives

/-- Run on alike databases, the transaction leaves alike databases or fails alike. -/
abbrev Blind (x : Tx Failure Db PUnit) : Prop := Coupled Alike (fun _ _ => True) x x

theorem blind_emit (event : DomainEvent) : Blind (Db.emit event) := by
  apply Coupled.modify
  rintro db _ ⟨entries, ruleSets, difficulties, hentries, hrules⟩
  exact .mk entries ruleSets difficulties hentries hrules

theorem blind_notify (n : Notification) : Blind (Db.notify n) := by
  apply Coupled.modify
  rintro db _ ⟨entries, ruleSets, difficulties, hentries, hrules⟩
  exact .mk entries ruleSets difficulties hentries hrules

theorem coupled_post (input : PostJournalInput) :
    Coupled Alike Eq (Db.post input) (Db.post input) := by
  have hview : ∀ db db', Alike db db' → db.ledger = db'.ledger := by
    rintro db _ ⟨entries, ruleSets, difficulties, _, _⟩
    rfl
  apply Coupled.zoom hview (Coupled.self (Ledger.post input))
  rintro db _ l _ ⟨entries, ruleSets, difficulties, hentries, hrules⟩ rfl
  exact .mk entries ruleSets difficulties hentries hrules

/-- A row is updated alike if the update is on a row that is found in both tables or in none. -/
theorem blind_amend {ρ : Type} [Row ρ] {view : Db → Table ρ} {put : Table ρ → Db → Db} (id : ℕ)
    {f : ρ → ρ} (hf : ∀ r, Row.id (f r) = Row.id r)
    (hfind : ∀ db db', Alike db db' → ((view db).find id = none ↔ (view db').find id = none))
    (hput : ∀ db db', Alike db db' →
      Alike (put ((view db).update id f hf) db) (put ((view db').update id f hf) db')) :
    Blind (Db.amend view put id f hf) := by
  apply Coupled.read
  intro db db' h
  apply Agree.bind (Coupled.throwIf _ (hfind db db' h) _ _ h)
  intro _ _ _
  exact Coupled.set (hput db db' h)

theorem blind_updateContest (id : ℕ) {f : Contest → Contest}
    (hf : ∀ c, Row.id (f c) = Row.id c) (hrule : ∀ c, (f c).ruleSetId = c.ruleSetId) :
    Blind (Db.updateContest id f hf) := by
  apply blind_amend id hf
  · rintro db _ ⟨entries, ruleSets, difficulties, _, _⟩
    exact Iff.rfl
  · rintro db _ ⟨entries, ruleSets, difficulties, hentries, hrules⟩
    exact .mk entries ruleSets difficulties hentries (hrules.updateWhere hf hrule)

theorem blind_updateFixture (id : ℕ) {f : Fixture → Fixture}
    (hf : ∀ x, Row.id (f x) = Row.id x) : Blind (Db.updateFixture id f hf) := by
  apply blind_amend id hf
  · rintro db _ ⟨entries, ruleSets, difficulties, _, _⟩
    exact Iff.rfl
  · rintro db _ ⟨entries, ruleSets, difficulties, hentries, hrules⟩
    exact .mk entries ruleSets difficulties hentries hrules

theorem blind_updateIntent (id : ℕ) {f : PaymentIntent → PaymentIntent}
    (hf : ∀ i, Row.id (f i) = Row.id i) : Blind (Db.updateIntent id f hf) := by
  apply blind_amend id hf
  · rintro db _ ⟨entries, ruleSets, difficulties, _, _⟩
    exact Iff.rfl
  · rintro db _ ⟨entries, ruleSets, difficulties, hentries, hrules⟩
    exact .mk entries ruleSets difficulties hentries hrules

/-- An update of an entry may not look at the risk. -/
theorem blind_updateEntry (id : ℕ) {f : Entry → Entry} (hf : ∀ e, Row.id (f e) = Row.id e)
    (hblind : ∀ e e', unrated e' = unrated e → unrated (f e') = unrated (f e)) :
    Blind (Db.updateEntry id f hf) := by
  apply blind_amend id hf
  · rintro db _ ⟨entries, ruleSets, difficulties, hentries, _⟩
    have hfind := hentries.find (fun _ _ h => id_eq_of_unrated h) id
    change db.entries.find id = none ↔ entries.find id = none
    rw [← Option.map_eq_none_iff (f := unrated), ← hfind, Option.map_eq_none_iff]
  · rintro db _ ⟨entries, ruleSets, difficulties, hentries, hrules⟩
    exact .mk _ ruleSets difficulties
      (hentries.update (fun _ _ h => id_eq_of_unrated h) id hf hf hblind) hrules

theorem coupled_userAvailable (userId : ℕ) :
    Coupled Alike Eq (userAvailable userId) (userAvailable userId) := by
  apply Coupled.lookup
  rintro db _ ⟨entries, ruleSets, difficulties, _, _⟩
  rfl

theorem coupled_system (type : LedgerAccountType) :
    Coupled Alike Eq (system type) (system type) := by
  apply Coupled.lookup
  rintro db _ ⟨entries, ruleSets, difficulties, _, _⟩
  rfl

theorem coupled_contestEscrow (contestId : ℕ) :
    Coupled Alike Eq (contestEscrow contestId) (contestEscrow contestId) := by
  apply Coupled.lookup
  rintro db _ ⟨entries, ruleSets, difficulties, _, _⟩
  rfl

end Primitives

section Deposits

theorem coupled_settleRead (reference : ℕ) :
    Coupled Alike Eq (Deposits.settleRead reference) (Deposits.settleRead reference) := by
  apply Coupled.read
  rintro db _ ⟨entries, ruleSets, difficulties, hentries, hrules⟩
  apply Agree.bind (Coupled.orThrow_same _ _ _ _
    (.mk entries ruleSets difficulties hentries hrules))
  rintro intent _ ⟨rfl, _⟩
  exact Coupled.pure rfl

theorem coupled_settleTx (now : DateTime) (intent : PaymentIntent)
    (verification : Deposits.DepositVerification) : Coupled Alike (fun _ _ => True)
      (Deposits.settleTx now intent verification) (Deposits.settleTx now intent verification) := by
  cases verification with
  | pending => exact Coupled.pure trivial
  | failed =>
    apply (blind_updateIntent _ _).bind
    intro _ _ _
    exact Coupled.pure trivial
  | success provider amountMinor channel =>
    apply (coupled_userAvailable _).bind
    rintro userAccount _ rfl
    apply (coupled_system _).bind
    rintro clearing _ rfl
    apply (coupled_post _).bind
    rintro _ _ rfl
    apply (blind_updateIntent _ _).bind
    intro _ _ _
    apply (blind_emit _).bind
    intro _ _ _
    exact Coupled.pure trivial

end Deposits

section Lifecycle

theorem coupled_moveContest (contestId : ℕ) (source : ContestStatus) {f : Contest → Contest}
    (hf : ∀ c, Row.id (f c) = Row.id c) (hrule : ∀ c, (f c).ruleSetId = c.ruleSetId) :
    Coupled Alike Eq (moveContest contestId source f hf) (moveContest contestId source f hf) := by
  apply Coupled.read
  rintro db _ ⟨entries, ruleSets, difficulties, hentries, hrules⟩
  apply Agree.bind (Coupled.set (.mk entries ruleSets difficulties hentries
    (hrules.updateWhere hf hrule)) _ _ (.mk entries ruleSets difficulties hentries hrules))
  intro _ _ _
  exact Coupled.pure rfl

theorem blind_lock (now contestId : ℕ) : Blind (lock now contestId) := by
  apply (coupled_moveContest contestId .published _ (by intro c; rfl)).bind
  rintro count _ rfl
  exact Coupled.ite Iff.rfl (blind_emit _) (Coupled.pure trivial)

theorem coupled_publishRead (now contestId : ℕ) :
    Coupled Alike Eq (publishRead now contestId) (publishRead now contestId) := by
  apply Coupled.read
  rintro db _ ⟨entries, ruleSets, difficulties, hentries, hrules⟩
  apply Agree.bind (Coupled.orThrow_same (findContest db contestId) _ _ _
    (.mk entries ruleSets difficulties hentries hrules))
  rintro contest _ ⟨rfl, _⟩
  apply (Coupled.throwIf _ Iff.rfl).bind
  intro _ _ _
  apply (Coupled.orThrow_same (kickoffs db contestId).min? _).bind
  rintro lockAt _ ⟨rfl, _⟩
  apply (Coupled.throwIf _ Iff.rfl).bind
  intro _ _ _
  exact Coupled.pure rfl

theorem blind_createEscrow (contestId : ℕ) (currency : String) :
    Blind (createEscrow contestId currency) := by
  apply Coupled.modify
  rintro db _ ⟨entries, ruleSets, difficulties, hentries, hrules⟩
  exact .mk entries ruleSets difficulties hentries hrules

theorem blind_publishTx (now : DateTime) (contest : Contest) (lockAt : DateTime) :
    Blind (publishTx now contest lockAt) := by
  apply (blind_updateContest _ _ (by intro c; rfl)).bind
  intro _ _ _
  apply (blind_createEscrow _ _).bind
  intro _ _ _
  exact blind_emit _

end Lifecycle

section Cancellation

/-- The active entries of a contest, as far as the risk does not show. -/
theorem map_activeEntries {db : Db} {entries : Table Entry}
    (h : Table.Same unrated db.entries entries) (ruleSets : Table RuleSet)
    (difficulties : Table FixtureDifficulty) (contestId : ℕ) :
    (activeEntries (under db entries ruleSets difficulties) contestId).map unrated =
      (activeEntries db contestId).map unrated := by
  apply h.findMany
  intro e e' he
  have hcontest := congrArg Entry.contestId he
  have hstatus := congrArg Entry.status he
  change e.contestId = e'.contestId at hcontest
  change e.status = e'.status at hstatus
  rw [hcontest, hstatus]

/-- Snapshots of the same contest, whose entries differ in risk at most. -/
structure AlikeSnapshot (snap snap' : CancelSnapshot) : Prop where
  contest : snap'.contest = snap.contest
  entries : snap'.entries.map unrated = snap.entries.map unrated
  escrow : snap'.escrow = snap.escrow

theorem coupled_cancelRead (contestId : ℕ) :
    Coupled Alike AlikeSnapshot (cancelRead contestId) (cancelRead contestId) := by
  apply Coupled.read
  rintro db _ ⟨entries, ruleSets, difficulties, hentries, hrules⟩
  apply Agree.bind (Coupled.orThrow_same (findContest db contestId) _ _ _
    (.mk entries ruleSets difficulties hentries hrules))
  rintro contest _ ⟨rfl, _⟩
  apply (Coupled.throwIf _ Iff.rfl).bind
  intro _ _ _
  exact Coupled.pure ⟨rfl, map_activeEntries hentries ruleSets difficulties contestId, rfl⟩

theorem coupled_refundEntry {snap snap' : CancelSnapshot} (h : AlikeSnapshot snap snap')
    (reason : String) {e e' : Entry} (he : unrated e' = unrated e) :
    Coupled Alike (fun _ _ => True) (refundEntry snap reason e) (refundEntry snap' reason e') := by
  obtain ⟨contest, es, escrow⟩ := snap
  obtain ⟨contest', es', escrow'⟩ := snap'
  obtain ⟨rfl, _, rfl⟩ := h
  have hid := congrArg Entry.id he
  have huser := congrArg Entry.userId he
  change e'.id = e.id at hid
  change e'.userId = e.userId at huser
  unfold refundEntry refundInput refundNotice
  rw [hid, huser]
  apply Coupled.read
  rintro db _ ⟨entries, ruleSets, difficulties, hentries, hrules⟩
  apply Agree.bind (Coupled.orThrow_same _ _ _ _
    (.mk entries ruleSets difficulties hentries hrules))
  rintro wallet _ ⟨rfl, _⟩
  apply (Coupled.orThrow_same _ _).bind
  rintro escrow₀ _ ⟨rfl, _⟩
  apply (coupled_post _).bind
  intro _ _ _
  apply (blind_updateEntry _ _ _).bind
  · intro _ _ _
    exact blind_notify _
  · intro x x' hx
    simp only [unrated, Entry.mk.injEq] at hx ⊢
    simp [hx]

theorem blind_assertEscrowEmpty (operation : String) (contestId escrowId : ℕ) :
    Blind (assertEscrowEmpty operation contestId escrowId) := by
  apply Coupled.read
  rintro db _ ⟨entries, ruleSets, difficulties, hentries, hrules⟩
  apply Agree.bind (Coupled.orThrow_same _ _ _ _
    (.mk entries ruleSets difficulties hentries hrules))
  rintro escrow _ ⟨rfl, _⟩
  exact Coupled.throwIf _ Iff.rfl

theorem coupled_cancelTx (now : DateTime) {snap snap' : CancelSnapshot}
    (h : AlikeSnapshot snap snap') (reason : String) :
    Coupled Alike (fun _ _ => True) (cancelTx now snap reason) (cancelTx now snap' reason) := by
  have hloop : List.Forall₂ (fun e e' => unrated e' = unrated e) snap.entries snap'.entries := by
    have hmap := h.entries
    rw [← List.forall₂_eq_eq_eq, List.forall₂_map_left_iff, List.forall₂_map_right_iff] at hmap
    exact hmap.flip
  apply (Coupled.forM hloop (fun e e' he => coupled_refundEntry h reason he)).bind
  intro _ _ _
  rw [h.escrow, h.contest]
  apply (Coupled.forM (List.forall₂_same.2 (fun _ _ => rfl)) _).bind
  · intro _ _ _
    apply (blind_updateContest _ _ (by intro c; rfl)).bind
    intro _ _ _
    exact blind_emit _
  · rintro escrow _ rfl
    exact blind_assertEscrowEmpty _ _ _

end Cancellation

section Submission

theorem coupled_submitRead (now userId : ℕ) (dto : Entries.SubmitSlipRequest) :
    Coupled Alike (fun slip slip' => ∃ risk, slip' = { slip with risk := risk })
      (Entries.submitRead now userId dto) (Entries.submitRead now userId dto) := by
  apply Coupled.read
  rintro db _ ⟨entries, ruleSets, difficulties, hentries, hrules⟩
  apply Agree.bind (Coupled.orThrow_same (findContest db dto.contestId) _ _ _
    (.mk entries ruleSets difficulties hentries hrules))
  rintro contest _ ⟨rfl, _⟩
  have hcount : (activeEntries (under db entries ruleSets difficulties) contest.id).length =
      (activeEntries db contest.id).length := by
    have hlen := congrArg List.length
      (map_activeEntries hentries ruleSets difficulties contest.id)
    rwa [List.length_map, List.length_map] at hlen
  apply (Coupled.throwIf _ Iff.rfl).bind
  intro _ _ _
  apply (Coupled.throwIf _ (by rw [hcount])).bind
  intro _ _ _
  apply (Coupled.throwIf _ Iff.rfl).bind
  intro _ _ _
  exact Coupled.pure ⟨_, rfl⟩

theorem hasEntered_under {db : Db} {entries : Table Entry}
    (h : Table.Same unrated db.entries entries) (ruleSets : Table RuleSet)
    (difficulties : Table FixtureDifficulty) (contestId userId : ℕ) :
    Entries.hasEntered db contestId userId ↔
      Entries.hasEntered (under db entries ruleSets difficulties) contestId userId := by
  constructor
  · rintro ⟨e, he, hcontest, huser⟩
    obtain ⟨e', he', heq⟩ := h.mem_of he
    exact ⟨e', he', (congrArg Entry.contestId heq).trans hcontest,
      (congrArg Entry.userId heq).trans huser⟩
  · rintro ⟨e', he', hcontest, huser⟩
    obtain ⟨e, he, heq⟩ := h.mem he'
    exact ⟨e, he, (congrArg Entry.contestId heq).trans hcontest,
      (congrArg Entry.userId heq).trans huser⟩

/-- The entry that is created is the same but for its risk, and so are its predictions. -/
theorem coupled_createEntry (now : DateTime) (slip : Entries.PreparedSlip) (risk : RiskMeterResult)
    (feeJournalId : ℕ) : Coupled Alike Eq (Entries.createEntry now slip feeJournalId)
      (Entries.createEntry now { slip with risk := risk } feeJournalId) := by
  apply Coupled.read
  rintro db _ ⟨entries, ruleSets, difficulties, hentries, hrules⟩
  have hfresh : entries.fresh = db.entries.fresh :=
    hentries.fresh (fun _ _ h => id_eq_of_unrated h)
  apply Agree.bind (Coupled.throwIf _
    (hasEntered_under hentries ruleSets difficulties slip.contest.id slip.userId) _ _
    (.mk entries ruleSets difficulties hentries hrules))
  intro _ _ _
  have hfresh' : (under db entries ruleSets difficulties).entries.fresh = db.entries.fresh := hfresh
  have hpaid : unrated (Entries.paidEntry { slip with risk := risk } now feeJournalId
        entries.fresh) =
      unrated (Entries.paidEntry slip now feeJournalId db.entries.fresh) := by
    rw [hfresh]
    rfl
  simp only [hfresh']
  apply (Coupled.set (.mk _ ruleSets difficulties (hentries.insert
    (Entries.id_paidEntry slip now feeJournalId)
    (Entries.id_paidEntry { slip with risk := risk } now feeJournalId) hpaid) hrules)).bind
  intro _ _ _
  exact Coupled.pure rfl

theorem coupled_submitTx (now : DateTime) (slip : Entries.PreparedSlip) (risk : RiskMeterResult) :
    Coupled Alike (fun _ _ => True) (Entries.submitTx now slip)
      (Entries.submitTx now { slip with risk := risk }) := by
  apply Coupled.rescue
  apply (coupled_userAvailable _).bind
  rintro wallet _ rfl
  apply (coupled_contestEscrow _).bind
  rintro escrow _ rfl
  apply (coupled_post _).bind
  rintro journalId _ rfl
  apply (coupled_createEntry now slip risk journalId).bind
  rintro entryId _ rfl
  apply (blind_emit _).bind
  intro _ _ _
  exact Coupled.pure trivial

end Submission

section Scoring

theorem blind_finalizeRead (fixtureId : ℕ) : Blind (Results.finalizeRead fixtureId) := by
  apply Coupled.read
  rintro db _ ⟨entries, ruleSets, difficulties, hentries, hrules⟩
  apply Agree.bind (Coupled.orThrow_same (db.fixtures.find fixtureId) _ _ _
    (.mk entries ruleSets difficulties hentries hrules))
  rintro fixture _ ⟨rfl, _⟩
  exact Coupled.throwIf _ Iff.rfl

theorem blind_finalizeTx (now : DateTime) (fixtureId : ℕ)
    (result : Results.FinalizeResultRequest) :
    Blind (Results.finalizeTx now fixtureId result) := by
  apply (blind_updateFixture _ _).bind
  intro _ _ _
  exact blind_emit _

/-- The aggregates come from the predictions, and entries are told apart by their id. -/
theorem same_recomputeAggregates {db : Db} {entries : Table Entry}
    (h : Table.Same unrated db.entries entries) (ruleSets : Table RuleSet)
    (difficulties : Table FixtureDifficulty) (contestId : ℕ) :
    Table.Same unrated (Scoring.recomputeAggregates db contestId)
      (Scoring.recomputeAggregates (under db entries ruleSets difficulties) contestId) := by
  unfold Scoring.recomputeAggregates
  apply h.updateWhere
  · intro e e' he
    have hid : e'.id = e.id := id_eq_of_unrated he
    rw [hid]
    exact Iff.rfl
  · intro e e' he
    have hid : e'.id = e.id := id_eq_of_unrated he
    simp only [unrated, Entry.mk.injEq] at he ⊢
    simp only [hid, he, true_and]
    exact ⟨rfl, rfl, rfl, rfl, trivial⟩

/-- The points of a prediction come from the rules of its contest, which are the same. -/
theorem blind_scoreContestMatch (now : DateTime) (contestId contestMatchId : ℕ)
    (result : Scoring.FinalResult) :
    Blind (Scoring.scoreContestMatch now contestId contestMatchId result) := by
  apply (coupled_moveContest contestId .locked _ (by intro c; rfl)).bind
  rintro count _ rfl
  apply Coupled.read
  rintro db _ ⟨entries, ruleSets, difficulties, hentries, hrules⟩
  apply Agree.bind (Coupled.orThrow_same (db.contests.find contestId) _ _ _
    (.mk entries ruleSets difficulties hentries hrules))
  rintro contest _ ⟨rfl, hfind⟩
  obtain ⟨r, r', hr, hr', hsame⟩ := hrules contest ((Table.find_eq_some_iff _ _ _).1 hfind).1
  have hrel : Option.Rel (fun r r' : RuleSet => r'.marketRules = r.marketRules)
      (db.ruleSets.find contest.ruleSetId) (ruleSets.find contest.ruleSetId) := by
    rw [hr, hr']
    exact .some hsame
  apply (Coupled.orThrow _ hrel).bind
  intro ruleSet ruleSet' hmarket
  rw [hmarket]
  apply (Coupled.modify _).bind
  · intro _ _ _
    apply (Coupled.modify _).bind
    · intro _ _ _
      exact blind_emit _
    · rintro db _ ⟨entries, ruleSets, difficulties, hentries, hrules⟩
      exact .mk _ ruleSets difficulties
        (same_recomputeAggregates hentries ruleSets difficulties contestId) hrules
  · rintro db _ ⟨entries, ruleSets, difficulties, hentries, hrules⟩
    exact .mk entries ruleSets difficulties hentries hrules

theorem blind_markScored (now : DateTime) (contestId : ℕ) :
    Blind (Scoring.markScored now contestId) := by
  apply (coupled_moveContest contestId .scoring _ (by intro c; rfl)).bind
  rintro count _ rfl
  exact Coupled.ite Iff.rfl (blind_emit _) (Coupled.pure trivial)

theorem countPending_under {db : Db} {entries : Table Entry}
    (h : Table.Same unrated db.entries entries) (ruleSets : Table RuleSet)
    (difficulties : Table FixtureDifficulty) (predictions : Bool) (contestId : ℕ) :
    Platform.countPending predictions (under db entries ruleSets difficulties) contestId =
      Platform.countPending predictions db contestId := by
  cases predictions with
  | false => rfl
  | true =>
    have hfind : ∀ k, (entries.find k).any (fun e => e.contestId = contestId) =
        (db.entries.find k).any (fun e => e.contestId = contestId) := by
      intro k
      have hsame := h.find (fun _ _ he => id_eq_of_unrated he) k
      have hany : ∀ o : Option Entry, o.any (fun e => e.contestId = contestId) =
          (o.map unrated).any (fun e => e.contestId = contestId) := by
        intro o
        cases o with
        | none => rfl
        | some e => rfl
      rw [hany, hsame, ← hany]
    change Scoring.pendingPredictions (under db entries ruleSets difficulties) contestId =
      Scoring.pendingPredictions db contestId
    unfold Scoring.pendingPredictions
    simp only [show (under db entries ruleSets difficulties).entries = entries from rfl, hfind]
    rfl

/-- The same continuation on both sides: nothing, or the job at a later stage. -/
def Continues (o o' : Option Platform.Task) : Prop :=
  o = o' ∧ ∀ t, o = some t → ∃ job, t = .scoring job

theorem continues_goto (job : Platform.ScoringJob) (stage : Platform.Stage) :
    Continues (job.goto stage) (job.goto stage) :=
  ⟨rfl, fun _ ht => ⟨_, (Option.some.inj ht).symm⟩⟩

theorem continues_next (job : Platform.ScoringJob) (cms : List ContestMatch) :
    Continues (job.next cms) (job.next cms) := by
  refine ⟨rfl, fun t ht => ?_⟩
  obtain ⟨cm, rest, _, rfl⟩ := Platform.ScoringJob.next_some ht
  exact ⟨_, rfl⟩

/-- A scoring job goes on in the same way. -/
theorem coupled_job (tick : Platform.Tick) (job : Platform.ScoringJob) :
    Coupled Alike Continues (job.action tick) (job.action tick) := by
  apply (Coupled.throwIf _ Iff.rfl).bind
  intro _ _ _
  apply Coupled.read
  rintro db _ ⟨entries, ruleSets, difficulties, hentries, hrules⟩
  have halike : Alike db (under db entries ruleSets difficulties) :=
    .mk entries ruleSets difficulties hentries hrules
  cases hstage : job.stage with
  | readMatches => exact Coupled.pure (continues_next job _) _ _ halike
  | scoreMatch cm rest =>
    apply Agree.bind (blind_scoreContestMatch tick.now cm.contestId cm.id job.result _ _ halike)
    intro _ _ _
    exact Coupled.pure (continues_goto job _)
  | count cm rest =>
    refine Coupled.pure ?_ _ _ halike
    rw [countPending_under hentries ruleSets difficulties]
    exact continues_goto job _
  | countOther cm rest predictionsFirst first =>
    refine Coupled.pure ?_ _ _ halike
    rw [countPending_under hentries ruleSets difficulties]
    split_ifs
    · exact continues_next job rest
    · exact continues_goto job _
  | complete cm rest =>
    apply Agree.bind (blind_markScored tick.now cm.contestId _ _ halike)
    intro _ _ _
    exact Coupled.pure (continues_next job rest)

end Scoring

section Distribution

/-- The ranking and the template are read alike: neither is rated. -/
theorem distributeRead_under (drawHash : ℕ → ℕ → String) {db : Db} {entries : Table Entry}
    (h : Table.Same unrated db.entries entries) (ruleSets : Table RuleSet)
    (difficulties : Table FixtureDifficulty) (contestId : ℕ) :
    Settlement.distributeRead drawHash contestId (under db entries ruleSets difficulties) =
      Settlement.distributeRead drawHash contestId db := by
  have hrank : (activeEntries (under db entries ruleSets difficulties) contestId).map
      Settlement.rankable = (activeEntries db contestId).map Settlement.rankable := by
    have hmap := congrArg (List.map Settlement.rankable)
      (map_activeEntries h ruleSets difficulties contestId)
    rwa [List.map_map, List.map_map] at hmap
  unfold Settlement.distributeRead
  rw [hrank]
  rfl

theorem coupled_winnerLines (ps : List (Option ℤ × Ranking.RankableEntry)) :
    Coupled Alike Eq (Settlement.winnerLines ps) (Settlement.winnerLines ps) := by
  induction ps with
  | nil => exact Coupled.pure rfl
  | cons p ps ih =>
    obtain ⟨_ | prize, winner⟩ := p
    · exact Coupled.throw _
    · apply (coupled_userAvailable _).bind
      rintro account _ rfl
      apply ih.bind
      rintro lines _ rfl
      exact Coupled.pure rfl

theorem blind_recordPrize (contest : Contest) (line : Settlement.WinnerLine) :
    Blind (Settlement.recordPrize contest line) := by
  apply (blind_updateEntry _ _ _).bind
  · intro _ _ _
    exact Coupled.ite Iff.rfl (blind_notify _) (Coupled.pure trivial)
  · intro e e' he
    simp only [unrated, Entry.mk.injEq] at he ⊢
    simp [he]

theorem blind_payOut (snap : Settlement.SettlementSnapshot) (escrow platform : LedgerAccount) :
    Blind (Settlement.payOut snap escrow platform) := by
  apply (Coupled.check _).bind
  rintro prizes _ rfl
  apply (coupled_winnerLines _).bind
  rintro winners _ rfl
  apply (coupled_post _).bind
  intro _ _ _
  apply (blind_assertEscrowEmpty _ _ _).bind
  intro _ _ _
  apply Coupled.forM (List.forall₂_same.2 (fun _ _ => rfl))
  rintro line _ rfl
  exact blind_recordPrize _ _

theorem same_settleEntries {t t' : Table Entry} (h : Table.Same unrated t t')
    (batches : List (List (ℕ × ℕ))) :
    Table.Same unrated (batches.foldl Settlement.settleEntries t)
      (batches.foldl Settlement.settleEntries t') := by
  induction batches generalizing t t' with
  | nil => exact h
  | cons rows batches ih =>
    apply ih
    apply h.updateWhere
    · intro e e' he
      have hid : e'.id = e.id := id_eq_of_unrated he
      rw [hid]
    · intro e e' he
      have hid : e'.id = e.id := id_eq_of_unrated he
      simp only [unrated, Entry.mk.injEq] at he ⊢
      simp [he]

theorem blind_distributeTx (now : DateTime) (snap : Settlement.SettlementSnapshot) :
    Blind (Settlement.distributeTx now snap) := by
  apply (coupled_contestEscrow _).bind
  rintro escrow _ rfl
  apply (coupled_system _).bind
  rintro platform _ rfl
  apply (Coupled.ite Iff.rfl (blind_payOut snap escrow platform) (Coupled.pure trivial)).bind
  intro _ _ _
  apply (Coupled.modify _).bind
  · intro _ _ _
    apply (blind_updateContest _ _ (by intro c; rfl)).bind
    intro _ _ _
    exact blind_emit _
  · rintro db _ ⟨entries, ruleSets, difficulties, hentries, hrules⟩
    exact .mk _ ruleSets difficulties (same_settleEntries hentries _) hrules

end Distribution

end RiskBlind
end FootballIQ
