import FootballIQ.EntryGate

/-!
# The terms of a contest

What a contest is created with never changes: later steps write its status and its
dates. Outside the submission no step makes an entry active either.
-/

namespace FootballIQ
namespace Platform

open Transaction Relational WalletAccounts Contests Settlement

/-- A contest without what its life changes. -/
def terms (c : Contest) : Contest :=
  { c with
    status := .draft
    lockAt := none
    publishedAt := none
    lockedAt := none
    scoredAt := none
    settledAt := none
    cancelledAt := none }

theorem columns_of_terms {c c' : Contest} (h : terms c = terms c') :
    c.id = c'.id ∧ c.entryFeeMinor = c'.entryFeeMinor ∧ c.commissionBps = c'.commissionBps ∧
      c.payoutTemplateId = c'.payoutTemplateId := by
  have hid := congrArg Contest.id h
  have hfee := congrArg Contest.entryFeeMinor h
  have hcommission := congrArg Contest.commissionBps h
  have hpayout := congrArg Contest.payoutTemplateId h
  exact ⟨hid, hfee, hcommission, hpayout⟩

/-- An entry that counts for the capacity of the contest. -/
def IsActive (contestId : ℕ) (e : Entry) : Prop := e.contestId = contestId ∧ e.status = .active

instance (contestId : ℕ) : DecidablePred (IsActive contestId) := fun e =>
  inferInstanceAs (Decidable (e.contestId = contestId ∧ e.status = .active))

/-- Contests keep their terms, and entries are closed only. -/
structure Closes (db db' : Db) : Prop where
  contests : Table.Keeps terms db.contests db'.contests
  entries : ∀ contestId, Table.Shrinks (IsActive contestId) db.entries db'.entries

section Closing
variable {db db' db'' : Db} {now : DateTime}

theorem Closes.refl (db : Db) : Closes db db :=
  ⟨Table.Keeps.refl _ _, fun _ => Table.Shrinks.refl _ _⟩

theorem Closes.trans (h : Closes db db') (h' : Closes db' db'') : Closes db db'' :=
  ⟨h.contests.trans h'.contests, fun k => (h.entries k).trans (h'.entries k)⟩

/-- A transaction that leaves the entries alone and writes contests only within their terms. -/
theorem closes_of_eq (hc : Table.Keeps terms db.contests db'.contests)
    (he : db'.entries = db.entries) : Closes db db' :=
  ⟨hc, fun _ => he ▸ Table.Shrinks.refl _ _⟩

theorem keeps_terms (k : ℕ) {f : Contest → Contest} (hf : ∀ c, Row.id (f c) = Row.id c)
    (hterms : ∀ c, terms (f c) = terms c) (contests : Table Contest) :
    Table.Keeps terms contests (contests.update k f hf) :=
  Table.keeps_updateWhere _ _ _ f hf hterms

theorem closes_create {adminId id : ℕ} {dto : CreateContestRequest}
    (h : create now adminId dto db = .ok (id, db')) : Closes db db' := by
  obtain ⟨ruleSet, template, ms, ss, rfl⟩ := create_ok h
  exact closes_of_eq
    (Table.keeps_insert _ _ _ (id_draftContest dto ruleSet template adminId)) rfl

theorem closes_lock {contestId : ℕ} {r : PUnit × Db} (h : lock now contestId db = .ok r) :
    Closes db r.2 := by
  rcases lock_cases now contestId db with ⟨c, _, _, hlock⟩ | ⟨_, hlock⟩
  · rw [hlock, Except.ok.injEq] at h
    subst h
    exact closes_of_eq (keeps_terms _ (by intro c; rfl) (by intro c; rfl) _) rfl
  · rw [hlock, Except.ok.injEq] at h
    subst h
    exact Closes.refl db

theorem closes_publishTx {contest : Contest} {lockAt : DateTime} {r : PUnit × Db}
    (h : publishTx now contest lockAt db = .ok r) : Closes db r.2 := by
  obtain ⟨_, hr⟩ := (publishTx_ok_iff now contest lockAt db r).1 h
  rw [hr]
  exact closes_of_eq (keeps_terms _ (by intro c; rfl) (by intro c; rfl) _) rfl

theorem closes_refunds {snap : CancelSnapshot} {reason : String} (es : List Entry) {r : PUnit × Db}
    (h : (forM es (refundEntry snap reason) : Tx Failure Db PUnit) db = .ok r) :
    Closes db r.2 := by
  induction es generalizing db with
  | nil =>
    rw [forM_nil_ok_iff] at h
    exact h ▸ Closes.refl db
  | cons e es ih =>
    obtain ⟨db₁, hone, hrest⟩ := (forM_cons_ok_iff _ _ _ _ _).1 h
    obtain ⟨_, _, _, _, _, _, _, hr⟩ := refundEntry_ok hone
    have hfirst : Closes db db₁ := by
      rw [show db₁ = _ from hr]
      refine ⟨Table.Keeps.refl _ _, fun k => ?_⟩
      refine Table.shrinks_updateWhere (by intro r; rfl) ?_
      rintro x _ ⟨_, hactive⟩
      cases hactive
    exact hfirst.trans (ih hrest)

theorem closes_cancelTx {snap : CancelSnapshot} {reason : String} {r : PUnit × Db}
    (h : cancelTx now snap reason db = .ok r) : Closes db r.2 := by
  obtain ⟨db₁, hloop, _, hr⟩ := cancelTx_ok h
  rw [hr]
  exact (closes_refunds snap.entries hloop).trans
    (closes_of_eq (keeps_terms _ (by intro c; rfl) (by intro c; rfl) _) rfl)

theorem shrinks_awardPrizes (k : ℕ) (t : Table Entry) (lines : List WinnerLine) :
    Table.Shrinks (IsActive k) t (awardPrizes t lines) := by
  induction lines generalizing t with
  | nil => exact Table.Shrinks.refl _ t
  | cons line lines ih =>
    refine Table.Shrinks.trans ?_ (ih _)
    refine Table.shrinks_updateWhere (by intro r; rfl) ?_
    intro e _ hactive
    exact hactive

theorem shrinks_settleEntries (k : ℕ) (batches : List (List (ℕ × ℕ))) (t : Table Entry) :
    Table.Shrinks (IsActive k) t (batches.foldl settleEntries t) := by
  induction batches generalizing t with
  | nil => exact Table.Shrinks.refl _ t
  | cons rows batches ih =>
    refine Table.Shrinks.trans ?_ (ih _)
    refine Table.shrinks_updateWhere (by intro r; rfl) ?_
    rintro e _ ⟨_, hactive⟩
    cases hactive

theorem closes_distributeTx {snap : SettlementSnapshot} {r : PUnit × Db}
    (h : distributeTx now snap db = .ok r) : Closes db r.2 := by
  obtain ⟨escrow, platform, db₁, _, _, hpay, _, hr⟩ := (distributeTx_ok_iff now snap db r).1 h
  have hpaid : Closes db db₁ := by
    rcases hpay with ⟨_, _, hpay⟩ | ⟨_, rfl⟩
    · obtain ⟨_, winners, _, _, _, _, _, _, _, hdb⟩ := payOut_ok hpay
      rw [show db₁ = _ from hdb]
      exact ⟨Table.Keeps.refl _ _, fun k => shrinks_awardPrizes k _ _⟩
    · exact Closes.refl db₁
  rw [hr]
  exact hpaid.trans ⟨keeps_terms _ (by intro c; rfl) (by intro c; rfl) _,
    fun k => shrinks_settleEntries k _ _⟩

theorem closes_scoreContestMatch {contestId contestMatchId : ℕ} {result : Scoring.FinalResult}
    {r : PUnit × Db} (h : Scoring.scoreContestMatch now contestId contestMatchId result db = .ok r) :
    Closes db r.2 := by
  obtain ⟨c, ruleSet, _, _, hr⟩ :=
    (Scoring.scoreContestMatch_ok_iff now contestId contestMatchId result db r).1 h
  rw [hr]
  refine ⟨Table.keeps_updateWhere _ _ _ _ (by intro c; rfl) (by intro c; rfl), fun k => ?_⟩
  refine Table.shrinks_updateWhere (by intro r; rfl) ?_
  intro e _ hactive
  exact hactive

theorem closes_markScored {contestId : ℕ} {r : PUnit × Db}
    (h : Scoring.markScored now contestId db = .ok r) : Closes db r.2 := by
  rw [← commit_of_ok (show Scoring.markScored now contestId db = .ok (r.1, r.2) from h)]
  rcases Scoring.markScored_cases now contestId db with ⟨c, _, _, hrun⟩ | ⟨_, hrun⟩
  · rw [hrun]
    exact closes_of_eq (keeps_terms _ (by intro c; rfl) (by intro c; rfl) _) rfl
  · rw [hrun]
    exact Closes.refl db

theorem closes_job {tick : Tick} {job : ScoringJob} {next : Option Task}
    (h : job.action tick db = .ok (next, db')) : Closes db db' := by
  have hjob := ScoringJob.action_ok h
  cases hstage : job.stage with
  | readMatches | count | countOther =>
    rw [hstage] at hjob
    exact hjob.1 ▸ Closes.refl db
  | scoreMatch cm rest =>
    rw [hstage] at hjob
    exact closes_scoreContestMatch hjob.1
  | complete cm rest =>
    rw [hstage] at hjob
    exact closes_markScored hjob.1

end Closing

section Steps
variable (drawHash : ℕ → ℕ → String) {db : Db}

/-- Every step but a submission only closes. -/
theorem closes_step {tick : Tick} {t : Task} (hsubmit : ∀ slip, t ≠ .submitTx slip) :
    Closes db (step drawHash tick t db).1 := by
  apply step_within drawHash Closes.refl
  intro next db' h
  have hdone := action_ok drawHash h
  cases t with
  | ready call =>
    rcases begin_ok drawHash hdone with ⟨_, _, _, _, hc, _⟩ | ⟨_, _, hl, _⟩ | ⟨rfl, _⟩
    · exact closes_create hc
    · exact closes_lock hl
    · exact Closes.refl db'
  | scoring job => exact closes_job hdone
  | settle intent verification =>
    obtain ⟨_, _, hs⟩ := hdone
    obtain ⟨_, _, _, rfl, _⟩ := Deposits.settleTx_ok hs
    exact closes_of_eq (Table.Keeps.refl _ _) rfl
  | publishTx contest lockAt =>
    obtain ⟨_, _, hp⟩ := hdone
    exact closes_publishTx hp
  | submitTx slip => exact absurd rfl (hsubmit slip)
  | cancelTx snap reason =>
    obtain ⟨_, _, hc⟩ := hdone
    exact closes_cancelTx hc
  | finalizeTx fixtureId result =>
    obtain ⟨_, u, hf⟩ := hdone
    obtain ⟨_, rfl⟩ := (Results.finalizeTx_ok_iff _ _ _ _ (u, db')).1 hf
    exact closes_of_eq (Table.Keeps.refl _ _) rfl
  | distributeTx snap =>
    obtain ⟨_, _, hd⟩ := hdone
    exact closes_distributeTx hd

theorem keeps_terms_step (tick : Tick) (t : Task) :
    Table.Keeps terms db.contests (step drawHash tick t db).1.contests := by
  by_cases hsubmit : ∃ slip, t = .submitTx slip
  · obtain ⟨slip, rfl⟩ := hsubmit
    rw [step_of_action drawHash (Entries.submitTx tick.now slip) rfl rfl]
    rcases commit_cases (Entries.submitTx tick.now slip) db with ⟨res, db', hok, hc⟩ | ⟨_, _, hc⟩
    · obtain ⟨_, _, _, _, _, _, _, _, rfl, _⟩ :=
        (Entries.submitTx_ok_iff tick.now slip db db' res).1 hok
      rw [hc]
      exact Table.Keeps.refl _ _
    · rw [hc]
      exact Table.Keeps.refl _ _
  · exact (closes_step drawHash (fun slip ht => hsubmit ⟨slip, ht⟩)).contests

end Steps

end Platform
end FootballIQ
