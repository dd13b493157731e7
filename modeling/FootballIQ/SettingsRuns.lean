import FootballIQ.RiskBlind
import FootballIQ.Sequential
import FootballIQ.Settings

/-!
# Runs under different settings

The platform's calls and the settings' calls run over one database. Settings that come
in at other places of a run, or other settings, change the risk of entries and nothing
else: picks, points, ranks, prizes and the ledger are those of a run without them.
-/

namespace FootballIQ
namespace SettingsRuns

open Transaction Relational Interleaving Contests Platform RiskBlind

/-- The platform with its calls in flight, and the weight sets. -/
structure System where
  config : Config Db Task
  weightSets : Table Settings.WeightSet

inductive Event where
  | act (a : Act Call Tick)
  | settings (op : Settings.Op)

def perform (drawHash : ℕ → ℕ → String) : Event → System → System
  | .act a, s => { s with config := (protocol drawHash).next s.config a }
  | .settings op, s =>
    let store := Settings.perform op ⟨s.config.shared, s.weightSets⟩
    ⟨⟨store.db, s.config.pending⟩, store.weightSets⟩

/-- What a run does to the platform itself. -/
def acts (es : List Event) : List (Act Call Tick) :=
  es.filterMap (fun e => match e with
    | .act a => some a
    | .settings _ => none)

/-- The run creates no contest: it is about contests that are there. -/
def CreatesNone (es : List Event) : Prop :=
  ∀ adminId dto, .act (.start (.create adminId dto)) ∉ es

/-- Everything that money depends on, and the money: the picks with their points, the
entries but for their risk, what a distribution would read and rank, and all balances. -/
structure SameMoney (drawHash : ℕ → ℕ → String) (db db' : Db) : Prop where
  predictions : db'.predictions = db.predictions
  entries : Table.Same unrated db.entries db'.entries
  ranking : ∀ contestId, Settlement.distributeRead drawHash contestId db' =
    Settlement.distributeRead drawHash contestId db
  contests : db'.contests = db.contests
  ledger : db'.ledger = db.ledger

section Steps
variable (drawHash : ℕ → ℕ → String)

/-- Calls in flight that differ at most in risk; none of them is a creation. -/
inductive AlikeTask : Task → Task → Prop where
  | same (t : Task) (h : ∀ adminId dto, t ≠ .ready (.create adminId dto)) : AlikeTask t t
  | submitTx (slip : Entries.PreparedSlip) (risk : RiskMeterResult) :
    AlikeTask (.submitTx slip) (.submitTx { slip with risk := risk })
  | cancelTx {snap snap' : CancelSnapshot} (h : AlikeSnapshot snap snap') (reason : String) :
    AlikeTask (.cancelTx snap reason) (.cancelTx snap' reason)

theorem alikeTask_option (o : Option Task)
    (h : ∀ t, o = some t → ∀ adminId dto, t ≠ .ready (.create adminId dto)) :
    Option.Rel AlikeTask o o := by
  cases o with
  | none => exact .none
  | some t => exact .some (.same t (h t rfl))

theorem coupled_begin (tick : Tick) {call : Call}
    (hcreate : ∀ adminId dto, call ≠ .create adminId dto) :
    Coupled Alike (Option.Rel AlikeTask) (begin_ drawHash tick call)
      (begin_ drawHash tick call) := by
  cases call with
  | deposit reference verification =>
    apply (coupled_settleRead reference).bind
    rintro intent _ rfl
    apply Coupled.pure
    apply alikeTask_option
    intro t ht
    obtain ⟨i, _, rfl⟩ := Option.map_eq_some_iff.1 ht
    simp
  | create adminId dto => exact absurd rfl (hcreate adminId dto)
  | publish contestId =>
    apply (coupled_publishRead tick.now contestId).bind
    rintro r _ rfl
    exact Coupled.pure (.some (.same _ (by simp)))
  | submitSlip userId dto =>
    apply (coupled_submitRead tick.now userId dto).bind
    rintro slip _ ⟨risk, rfl⟩
    exact Coupled.pure (.some (.submitTx slip risk))
  | lock contestId =>
    apply (blind_lock tick.now contestId).bind
    intro _ _ _
    exact Coupled.pure .none
  | cancel contestId reason =>
    apply (coupled_cancelRead contestId).bind
    intro snap snap' hsnap
    exact Coupled.pure (.some (.cancelTx hsnap reason))
  | finalize fixtureId result =>
    apply (blind_finalizeRead fixtureId).bind
    intro _ _ _
    exact Coupled.pure (.some (.same _ (by simp)))
  | resultFinalized fixtureId =>
    apply Coupled.read
    rintro db _ ⟨entries, ruleSets, difficulties, hentries, hrules⟩
    refine Coupled.pure ?_ _ _ (.mk entries ruleSets difficulties hentries hrules)
    apply alikeTask_option
    intro t ht
    obtain ⟨result, _, rfl⟩ := Option.map_eq_some_iff.1 ht
    simp
  | distribute contestId =>
    apply Coupled.read
    rintro db _ ⟨entries, ruleSets, difficulties, hentries, hrules⟩
    refine Coupled.pure ?_ _ _ (.mk entries ruleSets difficulties hentries hrules)
    rw [distributeRead_under drawHash hentries ruleSets difficulties]
    apply alikeTask_option
    intro t ht
    obtain ⟨snap, _, rfl⟩ := Option.map_eq_some_iff.1 ht
    simp

theorem coupled_action (tick : Tick) {t t' : Task} (h : AlikeTask t t') :
    Coupled Alike (Option.Rel AlikeTask) (action drawHash tick t) (action drawHash tick t') := by
  cases h with
  | submitTx slip risk =>
    apply (coupled_submitTx tick.now slip risk).bind
    intro _ _ _
    exact Coupled.pure .none
  | cancelTx hsnap reason =>
    apply (coupled_cancelTx tick.now hsnap reason).bind
    intro _ _ _
    exact Coupled.pure .none
  | same _ hcreate =>
    cases t with
    | ready call => exact coupled_begin drawHash tick (fun adminId dto hcall =>
        hcreate adminId dto (by rw [hcall]))
    | settle intent verification =>
      apply (coupled_settleTx tick.now intent verification).bind
      intro _ _ _
      exact Coupled.pure .none
    | publishTx contest lockAt =>
      apply (blind_publishTx tick.now contest lockAt).bind
      intro _ _ _
      exact Coupled.pure .none
    | submitTx slip =>
      apply (coupled_submitTx tick.now slip slip.risk).bind
      intro _ _ _
      exact Coupled.pure .none
    | cancelTx snap reason =>
      apply (coupled_cancelTx tick.now ⟨rfl, rfl, rfl⟩ reason).bind
      intro _ _ _
      exact Coupled.pure .none
    | finalizeTx fixtureId result =>
      apply (blind_finalizeTx tick.now fixtureId result).bind
      intro _ _ _
      exact Coupled.pure .none
    | scoring job =>
      intro db db' halike
      apply (coupled_job tick job db db' halike).mono
      rintro o _ ⟨rfl, hscoring⟩
      apply alikeTask_option
      intro t ht
      obtain ⟨job', rfl⟩ := hscoring t ht
      simp
    | distributeTx snap =>
      apply (blind_distributeTx tick.now snap).bind
      intro _ _ _
      exact Coupled.pure .none

/-- Alike calls make alike steps: they commit alike, or fail and are retried alike. -/
theorem alike_step (tick : Tick) (t t' : Task) (db db' : Db) (h : AlikeTask t t')
    (halike : Alike db db') :
    Alike (step drawHash tick t db).1 (step drawHash tick t' db').1 ∧
      Option.Rel AlikeTask (step drawHash tick t db).2 (step drawHash tick t' db').2 := by
  have hagree := coupled_action drawHash tick h db db' halike
  have hretry : Option.Rel AlikeTask (retry t) (retry t') := by
    cases h with
    | submitTx slip risk => exact .none
    | cancelTx hsnap reason => exact .none
    | same _ _ =>
      apply alikeTask_option
      intro u hu
      cases t with
      | scoring job =>
        cases hu
        simp
      | _ => cases hu
  unfold step
  revert hagree
  cases action drawHash tick t db with
  | ok r =>
    cases action drawHash tick t' db' with
    | ok r' => exact fun hagree => ⟨hagree.2, hagree.1⟩
    | error e => exact False.elim
  | error e =>
    cases action drawHash tick t' db' with
    | ok r' => exact False.elim
    | error e' => exact fun _ => ⟨halike, hretry⟩

/-- The settings' calls keep the rules of every version that is there. -/
theorem alike_settings {db db' : Db} (h : Alike db db') (op : Settings.Op)
    (weightSets : Table Settings.WeightSet) :
    Alike db (Settings.perform op ⟨db', weightSets⟩).db := by
  obtain ⟨entries, ruleSets, difficulties, hentries, hrules⟩ := h
  obtain ⟨ruleSets', difficulties', hdb, hkeeps⟩ :=
    Settings.perform_db op ⟨under db entries ruleSets difficulties, weightSets⟩
  rw [hdb]
  refine .mk entries ruleSets' difficulties' hentries (fun c hc => ?_)
  obtain ⟨r, r', hr, hr', hsame⟩ := hrules c hc
  obtain ⟨r'', hr'', hsame'⟩ := hkeeps.find hr'
  exact ⟨r, r'', hr, hr'', hsame'.trans hsame⟩

end Steps

section Runs
variable (drawHash : ℕ → ℕ → String)

/-- A run with settings goes alongside the run of its acts alone. -/
theorem alike_run {c : Config Db Task} {s : System} (h : c.Rel Alike AlikeTask s.config)
    {es : List Event} (hes : CreatesNone es) :
    ((protocol drawHash).run c (acts es)).Rel Alike AlikeTask
      (Sequential.run (perform drawHash) s es).config := by
  induction es generalizing c s with
  | nil => exact h
  | cons e es ih =>
    have hrest : CreatesNone es := fun adminId dto he =>
      hes adminId dto (List.mem_cons_of_mem e he)
    cases e with
    | settings op =>
      apply ih _ hrest
      exact ⟨alike_settings h.shared op s.weightSets, h.pending⟩
    | act a =>
      apply ih _ hrest
      apply (protocol drawHash).rel_next (alike_step drawHash) h
      rintro call rfl
      refine .same _ (fun adminId dto hcall => ?_)
      cases hcall
      exact hes adminId dto List.mem_cons_self

theorem Alike.sameMoney {db db₁ db₂ : Db} (h₁ : Alike db db₁) (h₂ : Alike db db₂) :
    SameMoney drawHash db₁ db₂ := by
  obtain ⟨entries₁, ruleSets₁, difficulties₁, he₁, _⟩ := h₁
  obtain ⟨entries₂, ruleSets₂, difficulties₂, he₂, _⟩ := h₂
  constructor
  · rfl
  · exact Eq.trans he₂ he₁.symm
  · intro contestId
    rw [distributeRead_under drawHash he₁, distributeRead_under drawHash he₂]
  · rfl
  · rfl

/-- Two runs with the same acts on contests that are there, under whatever settings came in
between, agree on all that money depends on and on the money. -/
theorem sameMoney_of_acts (s : System)
    (hrules : ∀ c ∈ s.config.shared.contests.rows,
      s.config.shared.ruleSets.find c.ruleSetId ≠ none)
    (hpending : ∀ adminId dto, .ready (.create adminId dto) ∉ s.config.pending)
    {es fs : List Event} (hes : CreatesNone es) (hfs : CreatesNone fs) (hacts : acts es = acts fs) :
    SameMoney drawHash (Sequential.run (perform drawHash) s es).config.shared
      (Sequential.run (perform drawHash) s fs).config.shared := by
  have hstart : s.config.Rel Alike AlikeTask s.config := by
    constructor
    · refine .mk _ _ _ (Table.Same.refl _ _) (fun c hc => ?_)
      obtain ⟨r, hr⟩ := Option.ne_none_iff_exists'.1 (hrules c hc)
      exact ⟨r, r, hr, hr, rfl⟩
    · apply List.forall₂_same.2
      intro t ht
      exact .same t (fun adminId dto htask => hpending adminId dto (htask ▸ ht))
  have hrun₁ := alike_run drawHash hstart hes
  have hrun₂ := alike_run drawHash hstart hfs
  rw [hacts] at hrun₁
  exact Alike.sameMoney drawHash hrun₁.shared hrun₂.shared

end Runs

section Rated

/-- A call that makes this many steps, with nothing between them. -/
def called (now : DateTime) (call : Call) (steps : ℕ) : List Event :=
  .act (.start call) :: List.replicate steps (.act (.resume 0 ⟨now, false, false⟩))

/-- The fixtures of the contest are over, and its predictions scored. -/
def results : List Event :=
  (List.range 5).flatMap (fun i =>
    called 200 (.finalize (i + 1) ⟨2, 1, 1, 0, .home⟩) 2 ++ called 201 (.resultFinalized (i + 1)) 6)

/-- An entry under rules that were activated before its contest was read, and others that come
in before the contest is settled. -/
def ratedAfter : List Event :=
  [.settings (.createRuleSet ⟨[⟨.matchWinner, 500⟩, ⟨.btts, 10⟩], true⟩),
    .settings (.createWeightSet ⟨[("form", 1)], true⟩),
    .act (.start (.submitSlip 7 (sampleSlip 1 "9a0e"))),
    .settings (.computeForFixture (fun _ => 5) 1), .act (.resume 0 ⟨10, false, false⟩),
    .settings (.activateRuleSet 1), .act (.resume 0 ⟨10, false, false⟩)] ++
  called 11 (.submitSlip 8 (sampleSlip 1 "77c2")) 2 ++ called 100 (.lock 1) 1 ++
  [.settings (.createRuleSet ⟨[⟨.correctScore, 900⟩], true⟩)] ++ results ++
  [.settings (.activateRuleSet 2)] ++ called 202 (.distribute 1) 2

/-- The same contest, with another version created after the entries and its results. -/
def ratedBefore : List Event :=
  called 10 (.submitSlip 7 (sampleSlip 1 "9a0e")) 2 ++
  called 11 (.submitSlip 8 (sampleSlip 1 "77c2")) 2 ++ called 100 (.lock 1) 1 ++ results ++
  [.settings (.createRuleSet ⟨[⟨.btts, 900⟩], true⟩)] ++ called 202 (.distribute 1) 2

theorem sameMoney_rated : SameMoney (fun _ _ => "")
    (Sequential.run (perform (fun _ _ => "")) ⟨⟨openDb, []⟩, Table.empty⟩ ratedAfter).config.shared
    (Sequential.run (perform (fun _ _ => "")) ⟨⟨openDb, []⟩, Table.empty⟩
      ratedBefore).config.shared :=
  sameMoney_of_acts (fun _ _ => "") ⟨⟨openDb, []⟩, Table.empty⟩ (by decide) (by simp)
    (by simp [CreatesNone, ratedAfter, results, called])
    (by simp [CreatesNone, ratedBefore, results, called]) rfl

example : ((Sequential.run (perform (fun _ _ => "")) ⟨⟨openDb, []⟩, Table.empty⟩
    ratedAfter).config.shared.contests.find 1).map (·.status) = some .settled := by decide +kernel

end Rated

end SettingsRuns
end FootballIQ
