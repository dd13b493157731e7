import FootballIQ.OtpCodes

/-!
# Concurrent guesses at one-time codes

Calls that overlap all read the same attempts and the same unconsumed code. The bound on
wrong guesses holds where the check counts the guesses still to be written as well, and a
code is spent once where its consumption still finds it unconsumed.
-/

namespace FootballIQ
namespace Auth
namespace OtpRuns

open Transaction Relational Interleaving

inductive Call where
  | issueCode (userId : ℕ) (purpose : OtpPurpose)
  | issueToken (userId : ℕ) (purpose : OtpPurpose)
  | consume (userId : ℕ) (purpose : OtpPurpose) (value : String)
  deriving DecidableEq

/-- A call about to begin, or one that has compared its value with a code. -/
inductive Task where
  | ready (call : Call)
  | wrong (codeId : ℕ)
  | right (codeId : ℕ)
  deriving DecidableEq

/-- The database, with the codes that calls have consumed so far, the codes that wrong
values were compared with, and those of them whose attempt is still to be written. -/
structure Traced where
  db : AuthDb
  consumed : List ℕ
  compared : List ℕ
  unwritten : List ℕ

section Steps
variable (env : Env)

def step (d : Draw) (t : Task) (s : Traced) : Traced × Option Task :=
  match t with
  | .ready (.issueCode userId purpose) =>
    ({ s with db := commit (issueCode env d userId purpose) s.db }, none)
  | .ready (.issueToken userId purpose) =>
    ({ s with db := commit (issueToken env d userId purpose) s.db }, none)
  | .ready (.consume userId purpose value) =>
    match consumeRead env d.now userId purpose value s.db with
    | .ok ((record, true), _) => (s, some (.right record.id))
    | .ok ((record, false), _) =>
      (⟨s.db, s.consumed, s.compared ++ [record.id], s.unwritten ++ [record.id]⟩,
        some (.wrong record.id))
    | .error _ => (s, none)
  | .wrong codeId =>
    (⟨commit (countAttempt codeId) s.db, s.consumed, s.compared, s.unwritten.erase codeId⟩, none)
  | .right codeId =>
    match spendCode d.now codeId s.db with
    | .ok (_, db') => ({ s with db := db', consumed := s.consumed ++ [codeId] }, none)
    | .error _ => (s, none)

def protocol : Protocol Traced Call Task Draw := ⟨.ready, step env⟩

/-- Each code is consumed at most once, and compared with few wrong values. -/
structure OneTime (s : Traced) : Prop where
  once : s.consumed.Nodup
  bounded : ∀ id, s.compared.count id ≤ maxAttempts

/-- A wrong value that has been read out finds the attempts of its code, together with
those still to be written, below the maximum. -/
def HasRoom (s : Traced) : Except Failure ((OtpCode × Bool) × AuthDb) → Prop
  | .ok ((record, false), _) => record.attempts + s.unwritten.count record.id < maxAttempts
  | _ => True

instance (s : Traced) (r : Except Failure ((OtpCode × Bool) × AuthDb)) : Decidable (HasRoom s r) :=
  match r with
  | .ok ((record, false), _) =>
    inferInstanceAs (Decidable (record.attempts + s.unwritten.count record.id < maxAttempts))
  | .ok ((_, true), _) | .error _ => .isTrue trivial

/-- A consumption finds its code unconsumed. A wrong value is compared with a code while
its attempts, together with those still to be written, are below the maximum. -/
def FindsCurrent (d : Draw) (t : Task) (s : Traced) : Prop :=
  match t with
  | .ready (.consume userId purpose value) =>
    HasRoom s (consumeRead env d.now userId purpose value s.db)
  | .right codeId => ∀ x, s.db.otpCodes.find codeId = some x → x.consumedAt = none
  | _ => True

instance (d : Draw) (t : Task) (s : Traced) : Decidable (FindsCurrent env d t s) :=
  match t with
  | .ready (.issueCode _ _) | .ready (.issueToken _ _) | .wrong _ => .isTrue trivial
  | .ready (.consume userId purpose value) =>
    inferInstanceAs (Decidable (HasRoom s (consumeRead env d.now userId purpose value s.db)))
  | .right codeId =>
    inferInstanceAs (Decidable (∀ x ∈ s.db.otpCodes.find codeId, x.consumedAt = none))

/-- The code of a prepared consumption is in the table. -/
def Knows (s : Traced) : Task → Prop
  | .right codeId => s.db.otpCodes.find codeId ≠ none
  | _ => True

end Steps

section Codes
variable {db db' : AuthDb} {s : Traced}

/-- Codes stay, a consumed one consumed, and attempts only grow. -/
def Advances (db db' : AuthDb) : Prop :=
  ∀ k x, db.otpCodes.find k = some x → ∃ x', db'.otpCodes.find k = some x' ∧
    x.attempts ≤ x'.attempts ∧ (x.consumedAt ≠ none → x'.consumedAt ≠ none)

theorem advances_refl (db : AuthDb) : Advances db db := fun _ x hx => ⟨x, hx, le_refl _, id⟩

theorem Advances.find (h : Advances db db') {k : ℕ} (hk : db.otpCodes.find k ≠ none) :
    db'.otpCodes.find k ≠ none := by
  obtain ⟨x, hx⟩ := Option.ne_none_iff_exists'.1 hk
  obtain ⟨x', hx', _⟩ := h k x hx
  rw [hx']
  exact Option.some_ne_none x'

theorem advances_amend {id : ℕ} {f : OtpCode → OtpCode} {hf : ∀ c, Row.id (f c) = Row.id c}
    (hattempts : ∀ c, c.attempts ≤ (f c).attempts)
    (hconsumed : ∀ c, c.consumedAt ≠ none → (f c).consumedAt ≠ none) :
    Advances db (commit (amendCode id f hf) db) := by
  rcases commit_cases (amendCode id f hf) db with ⟨u, db', hok, hc⟩ | ⟨_, _, hc⟩
  · obtain ⟨_, hr⟩ := (amendCode_ok_iff (u, db')).1 hok
    rw [hc, show db' = _ from hr.symm]
    intro k x hx
    refine ⟨if Row.id x = id then f x else x, ?_, ?_⟩
    · exact (Table.find_updateWhere _ _ f hf k).trans (by rw [hx, Option.map_some])
    · split_ifs
      · exact ⟨hattempts x, hconsumed x⟩
      · exact ⟨le_refl _, fun hc => hc⟩
  · rw [hc]
    exact advances_refl db

theorem advances_issue {env : Env} {d : Draw} {userId : ℕ} {purpose : OtpPurpose} :
    Advances db (commit (issueCode env d userId purpose) db) := by
  rw [commit_of_ok (issueCode_ok_iff.2 ⟨rfl, rfl⟩)]
  intro k x hx
  refine ⟨if IsOpenCode userId purpose x then spent d.now x else x, ?_, ?_⟩
  · refine Table.find_insert_of_some _ _ (id_newCode _ _ _ _) ?_
    rw [Table.find_updateWhere, hx, Option.map_some]
  · split_ifs
    · exact ⟨le_refl _, fun _ => Option.some_ne_none _⟩
    · exact ⟨le_refl _, fun hc => hc⟩

/-- What the runs keep: the codes on record are in the table, the consumed ones spent
there, and the wrong values are covered by the attempts and the unwritten ones. -/
structure Counted (s : Traced) : Prop where
  once : s.consumed.Nodup
  bounded : ∀ id, s.compared.count id ≤ maxAttempts
  marked : ∀ id ∈ s.consumed, ∃ x, s.db.otpCodes.find id = some x ∧ x.consumedAt ≠ none
  present : ∀ id ∈ s.compared, s.db.otpCodes.find id ≠ none
  covered : ∀ id x, s.db.otpCodes.find id = some x →
    s.compared.count id ≤ x.attempts + s.unwritten.count id

theorem Counted.oneTime (h : Counted s) : OneTime s := ⟨h.once, h.bounded⟩

/-- A transaction that only advances keeps the count, if what it adds is new. -/
theorem Counted.advance (h : Counted s) (ha : Advances s.db db') :
    Counted { s with db := db' } where
  once := h.once
  bounded := h.bounded
  marked id hid := by
    obtain ⟨x, hx, hc⟩ := h.marked id hid
    obtain ⟨x', hx', _, hc'⟩ := ha id x hx
    exact ⟨x', hx', hc' hc⟩
  present id hid := ha.find (h.present id hid)
  covered id x' hx' := by
    cases hx : s.db.otpCodes.find id with
    | none =>
      have hzero : s.compared.count id = 0 :=
        List.count_eq_zero.2 (fun hmem => h.present id hmem hx)
      exact le_trans hzero.le (Nat.zero_le _)
    | some x =>
      obtain ⟨y, hy, hle, _⟩ := ha id x hx
      have hcov := h.covered id x hx
      rw [Option.some.inj (hx'.symm.trans hy)]
      change s.compared.count id ≤ y.attempts + s.unwritten.count id
      omega

/-- A wrong value is compared while there is room for it. -/
theorem Counted.compare (h : Counted s) {record : OtpCode}
    (hfind : s.db.otpCodes.find record.id = some record)
    (hroom : record.attempts + s.unwritten.count record.id < maxAttempts) :
    Counted ⟨s.db, s.consumed, s.compared ++ [record.id], s.unwritten ++ [record.id]⟩ where
  once := h.once
  bounded id := by
    by_cases hid : record.id = id
    · have hcov := h.covered record.id record hfind
      rw [← hid, List.count_append, List.count_singleton_self]
      omega
    · rw [List.count_append, List.count_singleton, if_neg (by simpa using hid)]
      exact h.bounded id
  marked := h.marked
  present id hid := by
    rcases List.mem_append.1 hid with hid | hid
    · exact h.present id hid
    · rw [show id = record.id from List.mem_singleton.1 hid, hfind]
      exact Option.some_ne_none record
  covered id x hx := by
    have hcov := h.covered id x hx
    rw [List.count_append, List.count_append]
    omega

/-- A written attempt is no longer unwritten. -/
theorem Counted.write (h : Counted s) (codeId : ℕ) :
    Counted ⟨commit (countAttempt codeId) s.db, s.consumed, s.compared,
      s.unwritten.erase codeId⟩ := by
  have ha : Advances s.db (commit (countAttempt codeId) s.db) :=
    advances_amend (fun c => Nat.le_succ c.attempts) (fun _ hc => hc)
  have hdb := h.advance ha
  refine ⟨h.once, h.bounded, hdb.marked, hdb.present, ?_⟩
  intro id x' hx'
  have hcov' := hdb.covered id x' hx'
  by_cases hid : id = codeId
  · subst hid
    cases hx : s.db.otpCodes.find id with
    | none =>
      have hzero : s.compared.count id = 0 :=
        List.count_eq_zero.2 (fun hmem => h.present id hmem hx)
      exact le_trans hzero.le (Nat.zero_le _)
    | some x =>
      have hok : countAttempt id s.db = .ok (⟨⟩, _) :=
        (amendCode_ok_iff (⟨⟩, _)).2 ⟨by rw [hx]; exact Option.some_ne_none x, rfl⟩
      have hself : (commit (countAttempt id) s.db).otpCodes.find id = some (attempted x) := by
        rw [commit_of_ok hok]
        exact Table.find_update_self _ _ id_attempted hx
      have hcov := h.covered id x hx
      rw [show x' = attempted x from Option.some.inj (hx'.symm.trans hself), List.count_erase_self]
      change s.compared.count id ≤ x.attempts + 1 + (s.unwritten.count id - 1)
      omega
  · rw [List.count_erase_of_ne hid]
    exact hcov'

/-- A code found unconsumed has not been consumed before. -/
theorem Counted.spend (h : Counted s) {now : DateTime} {codeId : ℕ} {r : PUnit × AuthDb}
    (hok : spendCode now codeId s.db = .ok r)
    (hnone : ∀ x, s.db.otpCodes.find codeId = some x → x.consumedAt = none) :
    Counted { s with db := r.2, consumed := s.consumed ++ [codeId] } := by
  obtain ⟨hex, hr⟩ := (amendCode_ok_iff r).1 hok
  obtain ⟨x, hx⟩ := Option.ne_none_iff_exists'.1 hex
  have ha : Advances s.db r.2 := by
    rw [← commit_of_ok (show spendCode now codeId s.db = .ok (r.1, r.2) from hok)]
    exact advances_amend (fun _ => le_refl _) (fun _ _ => Option.some_ne_none _)
  have hdb := h.advance ha
  refine ⟨?_, h.bounded, ?_, hdb.present, hdb.covered⟩
  · rw [List.nodup_append]
    refine ⟨h.once, List.nodup_singleton codeId, ?_⟩
    rintro id hid _ hcode rfl
    rw [List.mem_singleton.1 hcode] at hid
    obtain ⟨y, hy, hc⟩ := h.marked codeId hid
    exact hc (hnone y hy)
  · intro id hid
    rcases List.mem_append.1 hid with hid | hid
    · exact hdb.marked id hid
    · rw [show id = codeId from List.mem_singleton.1 hid]
      refine ⟨Auth.spent now x, ?_, Option.some_ne_none _⟩
      rw [← hr]
      exact Table.find_update_self _ _ (id_spent now) hx

end Codes

section Runs
variable {env : Env} {d : Draw} {t : Task} {s : Traced}

theorem counted_step (h : Counted s) (hk : Knows s t) (hG : FindsCurrent env d t s) :
    Counted (step env d t s).1 := by
  cases t with
  | ready call =>
    cases call with
    | issueCode userId purpose => exact h.advance advances_issue
    | issueToken userId purpose => exact h.advance advances_issue
    | consume userId purpose value =>
      cases hread : consumeRead env d.now userId purpose value s.db with
      | ok r =>
        obtain ⟨⟨record, right⟩, db'⟩ := r
        obtain ⟨_, hmem, _⟩ := consumeRead_ok hread
        cases right with
        | true =>
          simp only [step, hread]
          exact h
        | false =>
          simp only [step, hread]
          have hroom : HasRoom s (.ok ((record, false), db')) := hread ▸ hG
          exact h.compare (Table.find_id _ hmem) hroom
      | error e =>
        simp only [step, hread]
        exact h
  | wrong codeId => exact h.write codeId
  | right codeId =>
    cases hok : spendCode d.now codeId s.db with
    | ok r =>
      simp only [step, hok]
      exact h.spend hok hG
    | error e =>
      simp only [step, hok]
      exact h

theorem advances_step (t : Task) : Advances s.db (step env d t s).1.db := by
  cases t with
  | ready call =>
    cases call with
    | issueCode userId purpose => exact advances_issue
    | issueToken userId purpose => exact advances_issue
    | consume userId purpose value =>
      have hdb : (step env d (.ready (.consume userId purpose value)) s).1.db = s.db := by
        simp only [step]
        split
        · rfl
        · rfl
        · rfl
      rw [hdb]
      exact advances_refl s.db
  | wrong codeId => exact advances_amend (fun c => Nat.le_succ c.attempts) (fun _ hc => hc)
  | right codeId =>
    cases hok : spendCode d.now codeId s.db with
    | ok r =>
      simp only [step, hok]
      rw [← commit_of_ok (show spendCode d.now codeId s.db = .ok (r.1, r.2) from hok)]
      exact advances_amend (fun _ => le_refl _) (fun _ _ => Option.some_ne_none _)
    | error e =>
      simp only [step, hok]
      exact advances_refl s.db

theorem knows_step {u : Task} (h : Knows s u) : Knows (step env d t s).1 u := by
  cases u with
  | right codeId => exact (advances_step t).find h
  | _ => trivial

theorem knows_next {t' : Task} (h : (step env d t s).2 = some t') :
    Knows (step env d t s).1 t' := by
  cases t' with
  | right codeId =>
    cases t with
    | ready call =>
      cases call with
      | consume userId purpose value =>
        cases hread : consumeRead env d.now userId purpose value s.db with
        | ok r =>
          obtain ⟨⟨record, right⟩, db'⟩ := r
          obtain ⟨_, hmem, _⟩ := consumeRead_ok hread
          cases right with
          | true =>
            simp only [step, hread] at h ⊢
            cases h
            have hfind : s.db.otpCodes.find record.id = some record := Table.find_id _ hmem
            rw [Knows, hfind]
            exact Option.some_ne_none record
          | false =>
            simp only [step, hread] at h
            cases h
        | error e =>
          simp only [step, hread] at h
          cases h
      | issueCode userId purpose => cases h
      | issueToken userId purpose => cases h
    | wrong codeId' => cases h
    | right codeId' =>
      cases hok : spendCode d.now codeId' s.db with
      | ok r =>
        simp only [step, hok] at h
        cases h
      | error e =>
        simp only [step, hok] at h
        cases h
  | _ => trivial

theorem counted_inductive (env : Env) :
    (protocol env).Inductive (FindsCurrent env) Counted Knows where
  init _ _ _ := trivial
  shared _ _ _ hI hk hG := counted_step hI hk hG
  cont _ _ _ _ _ _ _ ht' := knows_next ht'
  stable _ _ _ _ _ _ _ hu := knows_step hu

/-- Where every consumption finds its code unconsumed, and every wrong value is compared
while attempts and unwritten attempts leave room, each code is consumed at most once and
compared with at most five wrong values, in every state of the run. -/
theorem oneTime_throughout (env : Env) (db : AuthDb) (as : List (Act Call Draw))
    (hG : (protocol env).Along (FindsCurrent env) ⟨⟨db, [], [], []⟩, []⟩ as) :
    (protocol env).Throughout OneTime ⟨⟨db, [], [], []⟩, []⟩ as := by
  apply (counted_inductive env).throughout (fun _ h => h.oneTime) _ hG
  refine ⟨⟨List.nodup_nil, fun _ => Nat.zero_le _, ?_, ?_, fun _ _ _ => Nat.zero_le _⟩, ?_⟩
  · intro id hid
    cases hid
  · intro id hid
    cases hid
  · intro t ht
    cases ht

end Runs

section Overlap

def at_ (now : DateTime) (code : String) : Draw := ⟨now, "", code, ""⟩

/-- A code is issued, guessed wrong once, and entered. -/
def guessedThenEntered : List (Act Call Draw) :=
  [.start (.issueCode 1 .withdrawal), .resume 0 (at_ 10 "048213"),
    .start (.consume 1 .withdrawal "048312"), .resume 0 (at_ 20 ""), .resume 0 (at_ 21 ""),
    .start (.consume 1 .withdrawal "048213"), .resume 0 (at_ 30 ""), .resume 0 (at_ 31 "")]

/-- The code is entered twice, and both calls read it before either consumes it. -/
def enteredTwice : List (Act Call Draw) :=
  [.start (.issueCode 1 .withdrawal), .resume 0 (at_ 10 "048213"),
    .start (.consume 1 .withdrawal "048213"), .start (.consume 1 .withdrawal "048213"),
    .resume 0 (at_ 20 ""), .resume 1 (at_ 20 ""), .resume 0 (at_ 21 ""), .resume 0 (at_ 21 "")]

theorem oneTime_guessedThenEntered :
    (protocol sampleEnv).Throughout OneTime ⟨⟨AuthDb.empty, [], [], []⟩, []⟩ guessedThenEntered :=
  oneTime_throughout sampleEnv AuthDb.empty guessedThenEntered (by decide +kernel)

/-- The code is consumed by both calls. -/
theorem enteredTwice_spends_twice :
    ¬ (protocol sampleEnv).Throughout OneTime ⟨⟨AuthDb.empty, [], [], []⟩, []⟩ enteredTwice := by
  intro h
  have hlast := ((protocol sampleEnv).throughout_iff_prefixes _ _ enteredTwice).1 h enteredTwice
    List.prefix_rfl
  have htwice : ¬ ((protocol sampleEnv).run ⟨⟨AuthDb.empty, [], [], []⟩, []⟩
      enteredTwice).shared.consumed.Nodup := by decide +kernel
  exact htwice hlast.once

end Overlap

end OtpRuns
end Auth
end FootballIQ
