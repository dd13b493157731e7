import FootballIQ.AuthSchema
import FootballIQ.Interleaving

/-!
# One-time codes

`consume` reads the latest unconsumed code of a user and a purpose with its expiry and
its attempts, and writes afterwards: one more attempt for a wrong value, the consumption
for the right one. Neither update looks at the row again.
-/

namespace FootballIQ
namespace Auth

open Transaction Relational

def otpTtlMs : ℕ := 15 * 60 * 1000

def maxAttempts : ℕ := 5

section Service
variable (env : Env)

def IsOpenCode (userId : ℕ) (purpose : OtpPurpose) (c : OtpCode) : Prop :=
  c.userId = userId ∧ c.purpose = purpose ∧ c.consumedAt = none

instance (userId : ℕ) (purpose : OtpPurpose) : DecidablePred (IsOpenCode userId purpose) :=
  fun c => inferInstanceAs (Decidable (c.userId = userId ∧ c.purpose = purpose ∧
    c.consumedAt = none))

/-- The newest of the unconsumed codes. -/
def latestCode (db : AuthDb) (userId : ℕ) (purpose : OtpPurpose) : Option OtpCode :=
  List.argmax OtpCode.createdAt (db.otpCodes.findMany (IsOpenCode userId purpose))

def newCode (now : DateTime) (userId : ℕ) (purpose : OtpPurpose) (codeHash : String) (id : ℕ) :
    OtpCode where
  id := id
  userId := userId
  purpose := purpose
  codeHash := codeHash
  attempts := 0
  expiresAt := now + otpTtlMs
  consumedAt := none
  createdAt := now

theorem id_newCode (now : DateTime) (userId : ℕ) (purpose : OtpPurpose) (codeHash : String)
    (id : ℕ) : Row.id (newCode now userId purpose codeHash id) = id := rfl

def spent (now : DateTime) (c : OtpCode) : OtpCode := { c with consumedAt := some now }

theorem id_spent (now : DateTime) (c : OtpCode) : Row.id (spent now c) = Row.id c := rfl

def attempted (c : OtpCode) : OtpCode := { c with attempts := c.attempts + 1 }

theorem id_attempted (c : OtpCode) : Row.id (attempted c) = Row.id c := rfl

/-- The older codes of the user and purpose are superseded, and a new one is stored. -/
def persist (now : DateTime) (userId : ℕ) (purpose : OtpPurpose) (codeHash : String) :
    Tx Failure AuthDb PUnit :=
  modify (fun db => { db with
    otpCodes := (db.otpCodes.updateWhere (IsOpenCode userId purpose) (spent now)
      (id_spent now)).insert (newCode now userId purpose codeHash)
        (id_newCode now userId purpose codeHash) })

def issueCode (d : Draw) (userId : ℕ) (purpose : OtpPurpose) : Tx Failure AuthDb String := do
  persist d.now userId purpose (env.sha256 d.code)
  return d.code

/-- A longer code for password-reset links, stored like any other. -/
def issueToken (d : Draw) (userId : ℕ) (purpose : OtpPurpose) : Tx Failure AuthDb String :=
  issueCode env d userId purpose

/-- The code that a value is compared with, and whether it is the right value. -/
def consumeRead (now : DateTime) (userId : ℕ) (purpose : OtpPurpose) (value : String) :
    Tx Failure AuthDb (OtpCode × Bool) := do
  let db ← get
  let record ← orThrow (latestCode db userId purpose)
    (.badRequest "OTP_INVALID" (some "Code is invalid or expired"))
  throwIf (record.expiresAt < now) (.badRequest "OTP_INVALID" (some "Code is invalid or expired"))
  throwIf (maxAttempts ≤ record.attempts)
    (.badRequest "OTP_LOCKED" (some "Too many attempts — request a new code"))
  return (record, record.codeHash = env.sha256 value)

/-- `update` of a code by its id. -/
def amendCode (id : ℕ) (f : OtpCode → OtpCode) (hf : ∀ c, Row.id (f c) = Row.id c) :
    Tx Failure AuthDb PUnit := do
  let db ← get
  throwIf (db.otpCodes.find id = none) .recordNotFound
  set { db with otpCodes := db.otpCodes.update id f hf }

def countAttempt (id : ℕ) : Tx Failure AuthDb PUnit := amendCode id attempted id_attempted

def spendCode (now : DateTime) (id : ℕ) : Tx Failure AuthDb PUnit :=
  amendCode id (spent now) (id_spent now)

def consume (d : Draw) (userId : ℕ) (purpose : OtpPurpose) (value : String) :
    Saga Failure AuthDb PUnit := do
  let r ← Saga.atomically (consumeRead env d.now userId purpose value)
  if r.2 then
    Saga.atomically (spendCode d.now r.1.id)
  else
    Saga.atomically (countAttempt r.1.id)
    Saga.atomically (check (.error (.badRequest "OTP_INVALID" (some "Code is invalid or expired"))))

end Service

section Outcomes
variable {env : Env} {now : DateTime} {userId : ℕ} {purpose : OtpPurpose} {db db' : AuthDb}

theorem latestCode_mem {c : OtpCode} (h : latestCode db userId purpose = some c) :
    c ∈ db.otpCodes.rows ∧ IsOpenCode userId purpose c :=
  (Table.mem_findMany _ _ c).1 (List.argmax_mem h)

theorem consumeRead_ok {value : String} {c : OtpCode} {right : Bool}
    (h : consumeRead env now userId purpose value db = .ok ((c, right), db')) :
    db' = db ∧ c ∈ db.otpCodes.rows ∧ IsOpenCode userId purpose c ∧ c.attempts < maxAttempts := by
  simp only [consumeRead, bind_ok_iff, get_ok_iff, orThrow_ok_iff, throwIf_ok_iff,
    pure_ok_iff, Prod.mk.injEq] at h
  obtain ⟨_, _, ⟨rfl, rfl⟩, record, _, ⟨hlatest, rfl⟩, _, _, ⟨_, rfl⟩, _, _, ⟨htries, rfl⟩,
    ⟨rfl, _⟩, rfl⟩ := h
  obtain ⟨hmem, hopen⟩ := latestCode_mem hlatest
  exact ⟨rfl, hmem, hopen, not_le.1 htries⟩

theorem persist_ok_iff {codeHash : String} (r : PUnit × AuthDb) :
    persist now userId purpose codeHash db = .ok r ↔ { db with
      otpCodes := (db.otpCodes.updateWhere (IsOpenCode userId purpose) (spent now)
        (id_spent now)).insert (newCode now userId purpose codeHash)
          (id_newCode now userId purpose codeHash) } = r.2 := by
  unfold persist
  rw [modify_ok_iff]

theorem issueCode_ok_iff {d : Draw} {code : String} :
    issueCode env d userId purpose db = .ok (code, db') ↔ code = d.code ∧ db' = { db with
      otpCodes := (db.otpCodes.updateWhere (IsOpenCode userId purpose) (spent d.now)
        (id_spent d.now)).insert (newCode d.now userId purpose (env.sha256 d.code))
          (id_newCode d.now userId purpose (env.sha256 d.code)) } := by
  simp only [issueCode, bind_ok_iff, persist_ok_iff, pure_ok_iff]
  constructor
  · rintro ⟨_, _, rfl, rfl, rfl⟩
    exact ⟨rfl, rfl⟩
  · rintro ⟨rfl, rfl⟩
    exact ⟨⟨⟩, _, rfl, rfl, rfl⟩

theorem amendCode_ok_iff {id : ℕ} {f : OtpCode → OtpCode} {hf : ∀ c, Row.id (f c) = Row.id c}
    (r : PUnit × AuthDb) : amendCode id f hf db = .ok r ↔ db.otpCodes.find id ≠ none ∧
      { db with otpCodes := db.otpCodes.update id f hf } = r.2 := by
  simp only [amendCode, bind_ok_iff, get_ok_iff, throwIf_ok_iff, set_ok_iff]
  constructor
  · rintro ⟨_, _, ⟨rfl, rfl⟩, _, _, ⟨hex, rfl⟩, hr⟩
    exact ⟨hex, hr⟩
  · rintro ⟨hex, hr⟩
    exact ⟨db, db, ⟨rfl, rfl⟩, ⟨⟩, db, ⟨hex, rfl⟩, hr⟩

end Outcomes

end Auth
end FootballIQ
