import FootballIQ.Platform
import FootballIQ.ScorePass

/-!
# What the transactions announce

A transaction appends its events to the outbox and rewrites none. A contest enters
SCORED only in the transaction that announces it as scored, and its payout template is
there as long as no template is removed.
-/

namespace FootballIQ
namespace Platform

open Transaction Relational Contests

/-- Every contest has its payout template. -/
def TemplatesKnown (db : Db) : Prop :=
  ∀ c ∈ db.contests.rows, db.payoutTemplates.find c.payoutTemplateId ≠ none

/-- What a transaction does to the outbox and to the contests that are scored. -/
structure Announces (db db' : Db) : Prop where
  outbox : db.outbox <+: db'.outbox
  scored : ∀ k c', db'.contests.find k = some c' → c'.status = .scored →
    (∃ c, db.contests.find k = some c ∧ c.status = .scored) ∨
      .contestScored k ∈ db'.outbox.drop db.outbox.length
  templates : TemplatesKnown db → TemplatesKnown db'

section Rules
variable {db db' : Db} {events : List DomainEvent}

theorem Announces.refl (db : Db) : Announces db db :=
  ⟨List.prefix_rfl, fun _ c hc hs => Or.inl ⟨c, hc, hs⟩, id⟩

/-- What is announced depends on these columns of the earlier state only. -/
theorem Announces.congr {db₁ : Db} (h : Announces db₁ db') (houtbox : db₁.outbox = db.outbox)
    (hcontests : db₁.contests = db.contests)
    (htemplates : db₁.payoutTemplates = db.payoutTemplates) : Announces db db' := by
  obtain ⟨hextends, hscored, hknown⟩ := h
  rw [houtbox] at hextends
  rw [houtbox, hcontests] at hscored
  refine ⟨hextends, hscored, fun hdb => hknown ?_⟩
  unfold TemplatesKnown
  rw [hcontests, htemplates]
  exact hdb

/-- A write beside the contests. -/
theorem announces_aside (houtbox : db'.outbox = db.outbox ++ events)
    (hcontests : db'.contests = db.contests)
    (htemplates : db'.payoutTemplates = db.payoutTemplates) : Announces db db' := by
  refine ⟨houtbox ▸ List.prefix_append _ _, ?_, ?_⟩
  · intro k c hc hs
    rw [hcontests] at hc
    exact Or.inl ⟨c, hc, hs⟩
  · intro h c hc
    rw [hcontests] at hc
    rw [htemplates]
    exact h c hc

/-- A rewrite of contests announces those that it moves to SCORED. -/
theorem announces_contests {p : Contest → Prop} [DecidablePred p] {f : Contest → Contest}
    (hf : ∀ c, Row.id (f c) = Row.id c) (houtbox : db'.outbox = db.outbox ++ events)
    (hcontests : db'.contests = db.contests.updateWhere p f hf)
    (htemplates : db'.payoutTemplates = db.payoutTemplates)
    (htemplate : ∀ c, (f c).payoutTemplateId = c.payoutTemplateId)
    (hscored : ∀ c, p c → (f c).status = .scored → .contestScored (Row.id c) ∈ events) :
    Announces db db' := by
  have hnew : db'.outbox.drop db.outbox.length = events := by rw [houtbox, List.drop_left]
  refine ⟨houtbox ▸ List.prefix_append _ _, ?_, ?_⟩
  · intro k c' hc' hs
    rw [hcontests, Table.find_updateWhere, Option.map_eq_some_iff] at hc'
    obtain ⟨c, hc, rfl⟩ := hc'
    by_cases hp : p c
    · rw [if_pos hp] at hs
      have hid := ((db.contests.find_eq_some_iff k c).1 hc).2
      exact Or.inr (hnew ▸ hid ▸ hscored c hp hs)
    · rw [if_neg hp] at hs
      exact Or.inl ⟨c, hc, hs⟩
  · intro h c' hc'
    rw [hcontests] at hc'
    obtain ⟨c, hc, rfl⟩ := (Table.mem_updateWhere _ _ f hf _).1 hc'
    rw [htemplates]
    split_ifs
    · rw [htemplate]
      exact h c hc
    · exact h c hc

end Rules

section Transactions
variable {db db' : Db}

theorem announces_create {now adminId id : ℕ} {dto : CreateContestRequest}
    (h : create now adminId dto db = .ok (id, db')) : Announces db db' := by
  have htemplate : ∃ ruleSet template, template ∈ db.payoutTemplates.rows ∧
      createTx dto ruleSet template adminId db = .ok (id, db') := by
    simp only [create, bind_ok_iff, get_ok_iff, throwIf_ok_iff, orThrow_ok_iff] at h
    obtain ⟨_, _, ⟨_, rfl⟩, _, _, ⟨_, rfl⟩, _, _, ⟨_, rfl⟩, _, _, ⟨rfl, rfl⟩, _, _, ⟨_, rfl⟩, _, _,
      ⟨_, rfl⟩, ruleSet, _, ⟨_, rfl⟩, template, _, ⟨ht, rfl⟩, htx⟩ := h
    exact ⟨ruleSet, template, (Table.findFirst_eq_some _ ht).1, htx⟩
  obtain ⟨ruleSet, template, hmem, htx⟩ := htemplate
  obtain ⟨ms, ss, rfl, _⟩ := createTx_ok htx
  refine ⟨List.prefix_rfl, ?_, ?_⟩
  · intro k c' hc' hs
    obtain ⟨hrow, hid⟩ := (Table.find_eq_some_iff _ k c').1 hc'
    rcases (Table.mem_insert _ _ (id_draftContest dto ruleSet template adminId) _).1 hrow with
      hold | rfl
    · exact Or.inl ⟨c', (db.contests.find_eq_some_iff k c').2 ⟨hold, hid⟩, hs⟩
    · cases hs
  · intro hknown c hc
    rcases (Table.mem_insert _ _ (id_draftContest dto ruleSet template adminId) _).1 hc with
      hold | rfl
    · exact hknown c hold
    · have hfound : db.payoutTemplates.find template.id = some template :=
        db.payoutTemplates.find_id hmem
      change db.payoutTemplates.find template.id ≠ none
      rw [hfound]
      exact Option.some_ne_none _

theorem announces_lock {now contestId : ℕ} {r : PUnit × Db}
    (h : lock now contestId db = .ok r) : Announces db r.2 := by
  rcases lock_cases now contestId db with ⟨c, _, _, hrun⟩ | ⟨_, hrun⟩
  · rw [hrun, Except.ok.injEq] at h
    rw [← h]
    exact announces_contests (by intro c; rfl) rfl rfl rfl (by intro c; rfl)
      (fun _ _ hs => by cases hs)
  · rw [hrun, Except.ok.injEq] at h
    rw [← h]
    exact Announces.refl db

theorem announces_settleTx {now : DateTime} {intent : PaymentIntent}
    {verification : Deposits.DepositVerification} {status : PaymentStatus}
    (h : Deposits.settleTx now intent verification db = .ok (status, db')) :
    Announces db db' := by
  cases verification with
  | pending =>
    simp only [Deposits.settleTx, pure_ok_iff] at h
    exact h.2 ▸ Announces.refl db
  | failed =>
    simp only [Deposits.settleTx, bind_ok_iff, Db.updateIntent_ok_iff, pure_ok_iff] at h
    obtain ⟨_, _, ⟨_, rfl⟩, _, rfl⟩ := h
    exact announces_aside (List.append_nil _).symm rfl rfl
  | success provider amountMinor channel =>
    simp only [Deposits.settleTx, bind_ok_iff, WalletAccounts.userAvailable_ok_iff,
      WalletAccounts.system_ok_iff, Db.post_ok_iff, Db.updateIntent_ok_iff, Db.emit_ok_iff,
      pure_ok_iff] at h
    obtain ⟨_, _, ⟨_, rfl⟩, _, _, ⟨_, rfl⟩, _, _, ⟨_, _, rfl⟩, _, _, ⟨_, rfl⟩, _, _, rfl, _, rfl⟩ := h
    exact announces_aside rfl rfl rfl

theorem announces_publishTx {now : DateTime} {c : Contest} {lockAt : DateTime} {r : PUnit × Db}
    (h : publishTx now c lockAt db = .ok r) : Announces db r.2 := by
  obtain ⟨_, hr⟩ := (publishTx_ok_iff now c lockAt db r).1 h
  rw [hr]
  exact announces_contests (by intro c; rfl) rfl rfl rfl (by intro c; rfl) (fun _ _ hs => by cases hs)

theorem announces_submitTx {now : DateTime} {slip : Entries.PreparedSlip}
    {res : Entries.SubmitSlipResult} (h : Entries.submitTx now slip db = .ok (res, db')) :
    Announces db db' := by
  obtain ⟨_, _, _, _, _, _, _, _, rfl, _⟩ := (Entries.submitTx_ok_iff now slip db db' res).1 h
  exact announces_aside rfl rfl rfl

theorem announces_cancelTx {now : DateTime} {snap : CancelSnapshot} {reason : String}
    {r : PUnit × Db} (h : cancelTx now snap reason db = .ok r) : Announces db r.2 := by
  obtain ⟨db₁, hloop, _, hr⟩ := cancelTx_ok h
  obtain ⟨l, entries, ns, hdb⟩ := refunds_writes snap.entries hloop
  have hdb₁ : db₁ = { db with ledger := l, entries := entries, notifications := ns } := hdb
  rw [hr, hdb₁]
  exact announces_contests (by intro c; rfl) rfl rfl rfl (by intro c; rfl) (fun _ _ hs => by cases hs)

theorem announces_finalizeTx {now fixtureId : ℕ} {result : Results.FinalizeResultRequest}
    {r : PUnit × Db} (h : Results.finalizeTx now fixtureId result db = .ok r) :
    Announces db r.2 := by
  obtain ⟨_, hr⟩ := (Results.finalizeTx_ok_iff now fixtureId result db r).1 h
  rw [hr]
  exact announces_aside rfl rfl rfl

theorem announces_scoreContestMatch {now contestId contestMatchId : ℕ}
    {result : Scoring.FinalResult} {r : PUnit × Db}
    (h : Scoring.scoreContestMatch now contestId contestMatchId result db = .ok r) :
    Announces db r.2 := by
  obtain ⟨_, _, _, _, hr⟩ := (Scoring.scoreContestMatch_ok_iff now contestId contestMatchId result
    db r).1 h
  rw [hr]
  exact announces_contests Scoring.id_scoring rfl rfl rfl (by intro c; rfl)
    (fun _ _ hs => by cases hs)

theorem announces_markScored {now contestId : ℕ} {r : PUnit × Db}
    (h : Scoring.markScored now contestId db = .ok r) : Announces db r.2 := by
  have hcommit : commit (Scoring.markScored now contestId) db = r.2 := commit_of_ok h
  rcases Scoring.markScored_cases now contestId db with ⟨c, _, _, hrun⟩ | ⟨_, hrun⟩
  · rw [← hcommit, hrun]
    refine announces_contests (by intro c; rfl) rfl rfl rfl (by intro c; rfl) ?_
    intro c hc _
    rw [show Row.id c = contestId from hc]
    exact List.mem_cons_self
  · rw [← hcommit, hrun]
    exact Announces.refl db

/-- A distribution that commits leaves its contest settled. -/
theorem settled_of_distributeTx {now : DateTime} {snap : Settlement.SettlementSnapshot}
    {r : PUnit × Db} (h : Settlement.distributeTx now snap db = .ok r) :
    ∃ c, r.2.contests.find snap.contest.id = some c ∧ c.status = .settled := by
  obtain ⟨_, _, db₁, _, _, _, hex, hr⟩ := (Settlement.distributeTx_ok_iff now snap db r).1 h
  obtain ⟨c, hc⟩ := Option.ne_none_iff_exists'.1 hex
  rw [hr]
  exact ⟨_, Table.find_update_self _ _ (by intro c; rfl) hc, rfl⟩

theorem announces_distributeTx {now : DateTime} {snap : Settlement.SettlementSnapshot}
    {r : PUnit × Db} (h : Settlement.distributeTx now snap db = .ok r) : Announces db r.2 := by
  obtain ⟨_, _, db₁, _, _, hpay, _, hr⟩ := (Settlement.distributeTx_ok_iff now snap db r).1 h
  have hkept : db₁.contests = db.contests ∧ db₁.outbox = db.outbox ∧
      db₁.payoutTemplates = db.payoutTemplates := by
    rcases hpay with ⟨_, _, hpay⟩ | ⟨_, rfl⟩
    · obtain ⟨_, _, _, _, _, _, _, _, _, hdb⟩ := Settlement.payOut_ok hpay
      rw [show db₁ = _ from hdb]
      exact ⟨rfl, rfl, rfl⟩
    · exact ⟨rfl, rfl, rfl⟩
  obtain ⟨hcontests, houtbox, htemplates⟩ := hkept
  have hlast : Announces db₁ r.2 := by
    rw [hr]
    exact announces_contests (by intro c; rfl) rfl rfl rfl (by intro c; rfl)
      (fun _ _ hs => by cases hs)
  exact hlast.congr houtbox hcontests htemplates

end Transactions

section Steps
variable (drawHash : ℕ → ℕ → String) {db db' : Db}

theorem announces_job {tick : Tick} {job : ScoringJob} {next : Option Task}
    (h : job.action tick db = .ok (next, db')) : Announces db db' := by
  have hjob := ScoringJob.action_ok h
  cases hstage : job.stage with
  | readMatches | count _ _ | countOther _ _ _ _ =>
    rw [hstage] at hjob
    exact hjob.1 ▸ Announces.refl db
  | scoreMatch cm rest =>
    rw [hstage] at hjob
    exact announces_scoreContestMatch hjob.1
  | complete cm rest =>
    rw [hstage] at hjob
    exact announces_markScored hjob.1

/-- Every step of every call announces what it does. -/
theorem announces_action {tick : Tick} {t : Task} {next : Option Task}
    (h : action drawHash tick t db = .ok (next, db')) : Announces db db' := by
  cases t with
  | ready call =>
    rcases begin_ok drawHash h with ⟨_, _, _, _, hcreate, _⟩ | ⟨_, _, hlock, _⟩ | ⟨rfl, _⟩
    · exact announces_create hcreate
    · exact announces_lock hlock
    · exact Announces.refl db'
  | scoring job => exact announces_job h
  | settle intent verification =>
    obtain ⟨_, _, hrun⟩ := action_ok drawHash h
    exact announces_settleTx hrun
  | publishTx contest lockAt =>
    obtain ⟨_, _, hrun⟩ := action_ok drawHash h
    exact announces_publishTx hrun
  | submitTx slip =>
    obtain ⟨_, _, hrun⟩ := action_ok drawHash h
    exact announces_submitTx hrun
  | cancelTx snap reason =>
    obtain ⟨_, _, hrun⟩ := action_ok drawHash h
    exact announces_cancelTx hrun
  | finalizeTx fixtureId result =>
    obtain ⟨_, _, hrun⟩ := action_ok drawHash h
    exact announces_finalizeTx hrun
  | distributeTx snap =>
    obtain ⟨_, _, hrun⟩ := action_ok drawHash h
    exact announces_distributeTx hrun

theorem announces_step (tick : Tick) (t : Task) (db : Db) :
    Announces db (step drawHash tick t db).1 :=
  step_within drawHash Announces.refl (fun _ _ h => announces_action drawHash h)

end Steps

end Platform
end FootballIQ
