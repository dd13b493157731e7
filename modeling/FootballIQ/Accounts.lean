import FootballIQ.OtpCodes
import FootballIQ.Tokens

/-!
# Accounts

Registration, login, the password reset and the verification of an address, and the
suspension of an account by an administrator. Each call is a saga over its statements;
mails never fail a call and are left out.
-/

namespace FootballIQ
namespace Auth

open Transaction Relational

structure RegisterRequest where
  email : String
  username : String
  password : String
  phone : Option String
  deriving DecidableEq

structure LoginRequest where
  identifier : String
  password : String
  deriving DecidableEq

structure ResetPasswordRequest where
  userId : ℕ
  token : String
  password : String
  deriving DecidableEq

section Users
variable (env : Env)

/-- The unique indexes of the users. -/
def isTaken (db : AuthDb) (email username : String) (phone : Option String) : Prop :=
  ∃ u ∈ db.users.rows, u.email = email ∨ u.username = username ∨ (phone ≠ none ∧ u.phone = phone)

instance (db : AuthDb) (email username : String) (phone : Option String) :
    Decidable (isTaken db email username phone) :=
  inferInstanceAs (Decidable (∃ u ∈ db.users.rows,
    u.email = email ∨ u.username = username ∨ (phone ≠ none ∧ u.phone = phone)))

def newUser (email username passwordHash : String) (phone : Option String) (id : ℕ) : User where
  id := id
  email := email
  username := username
  phone := phone
  passwordHash := passwordHash
  role := .user
  status := .pendingVerification
  emailVerifiedAt := none
  lastLoginAt := none
  deletedAt := none

theorem id_newUser (email username passwordHash : String) (phone : Option String) (id : ℕ) :
    Row.id (newUser email username passwordHash phone id) = id := rfl

def newWallet (userId id : ℕ) : LedgerAccount where
  id := id
  type := .userAvailable
  userId := some userId
  contestId := none
  currency := "NGN"
  balanceMinor := 0

theorem id_newWallet (userId id : ℕ) : Row.id (newWallet userId id) = id := rfl

def createUser (email username passwordHash : String) (phone : Option String) :
    Tx Failure AuthDb ℕ := do
  let db ← get
  throwIf (isTaken db email username phone) .uniqueViolation
  set { db with
    users := db.users.insert (newUser email username passwordHash phone)
      (id_newUser email username passwordHash phone)
    ledgerAccounts := db.ledgerAccounts.insert (newWallet db.users.fresh)
      (id_newWallet db.users.fresh)
    outbox := db.outbox ++ [UserRegistered.mk db.users.fresh email] }
  return db.users.fresh

def registerFailure : Failure → Failure
  | .uniqueViolation => .conflict "ALREADY_EXISTS" (some "Email or username is already taken")
  | e => e

def register (d : Draw) (dto : RegisterRequest) : Saga Failure AuthDb IssuedTokens := do
  let email := dto.email.toLower
  let username := dto.username.toLower
  let passwordHash := env.argon2Hash d.salt dto.password
  let userId ← Saga.atomically
    (rescue registerFailure (createUser email username passwordHash dto.phone))
  let _ ← Saga.atomically (issueCode env d userId .emailVerify)
  Saga.atomically (issue env d userId .user IssueMeta.none)

/-- `update` of a user by its id. -/
def amendUser (id : ℕ) (f : User → User) (hf : ∀ u, Row.id (f u) = Row.id u) :
    Tx Failure AuthDb PUnit := do
  let db ← get
  throwIf (db.users.find id = none) .recordNotFound
  set { db with users := db.users.update id f hf }

def loginRead (dto : LoginRequest) : Tx Failure AuthDb User := do
  let db ← get
  let identifier := dto.identifier.toLower
  let user ← orThrow (db.users.findFirst (fun u =>
      (u.email = identifier ∨ u.username = identifier) ∧ u.deletedAt = none))
    (.unauthorized "INVALID_CREDENTIALS")
  throwIf (env.argon2Verify user.passwordHash dto.password = false)
    (.unauthorized "INVALID_CREDENTIALS")
  throwIf (user.status = .banned ∨ user.status = .suspended) (.unauthorized "ACCOUNT_DISABLED")
  return user

def login (d : Draw) (dto : LoginRequest) (ip userAgent : Option String) :
    Saga Failure AuthDb IssuedTokens := do
  let user ← Saga.atomically (loginRead env dto)
  Saga.atomically (amendUser user.id (fun u => { u with lastLoginAt := some d.now }) (fun _ => rfl))
  Saga.atomically (issue env d user.id user.role { IssueMeta.none with ip, userAgent })

def verifyEmail (d : Draw) (userId : ℕ) (code : String) : Saga Failure AuthDb PUnit := do
  consume env d userId .emailVerify code
  Saga.atomically (amendUser userId
    (fun u => { u with emailVerifiedAt := some d.now, status := .active }) (fun _ => rfl))

/-- Silent for an unknown address. -/
def forgotPassword (d : Draw) (email : String) : Saga Failure AuthDb PUnit := do
  match ← Saga.atomically (do return (← get).users.findFirst (fun u => u.email = email.toLower)) with
  | none => return ⟨⟩
  | some user =>
    let _ ← Saga.atomically (issueToken env d user.id .passwordReset)
    return ⟨⟩

/-- Every session of the user that is not yet revoked is revoked. -/
def revokeUser (now : DateTime) (userId : ℕ) : Tx Failure AuthDb PUnit :=
  modify (fun db => { db with
    sessions := db.sessions.updateWhere (fun s => s.userId = userId ∧ s.revokedAt = none)
      (revoked now) (id_revoked now) })

def resetPasswordTx (d : Draw) (dto : ResetPasswordRequest) : Tx Failure AuthDb PUnit := do
  amendUser dto.userId (fun u => { u with passwordHash := env.argon2Hash d.salt dto.password })
    (fun _ => rfl)
  revokeUser d.now dto.userId

def resetPassword (d : Draw) (dto : ResetPasswordRequest) : Saga Failure AuthDb PUnit := do
  consume env d dto.userId .passwordReset dto.token
  Saga.atomically (resetPasswordTx env d dto)

end Users

section Admin
variable (env : Env)

/-- The audit record of an administrator's change to a user. -/
def userChange (adminId : ℕ) (action : String) (id : ℕ) (before after : Details) :
    Audit.RecordInput Details where
  actorId := some (toString adminId)
  actorType := .admin
  action := action
  entityType := "User"
  entityId := toString id
  before := some before
  after := some after
  ip := none

def audit (input : Audit.RecordInput Details) : Tx Failure AuthDb PUnit :=
  modify (fun db => { db with auditLog := Audit.record env.auditCodec input db.auditLog })

def suspendRead (adminId id : ℕ) : Tx Failure AuthDb User := do
  let db ← get
  let user ← orThrow (db.users.find id) (.notFound "USER_NOT_FOUND" none)
  throwIf (user.id = adminId) (.conflict "SELF_SUSPEND" (some "Cannot suspend yourself"))
  throwIf (user.role = .superAdmin)
    (.conflict "FORBIDDEN_TARGET" (some "Cannot suspend a super admin"))
  return user

def suspendTx (now : DateTime) (id : ℕ) : Tx Failure AuthDb PUnit := do
  amendUser id (fun u => { u with status := .suspended }) (fun _ => rfl)
  revokeUser now id

def suspend (d : Draw) (adminId id : ℕ) (reason : String) : Saga Failure AuthDb PUnit := do
  let user ← Saga.atomically (suspendRead adminId id)
  Saga.atomically (suspendTx d.now id)
  Saga.atomically (audit env (userChange adminId "user.suspend" id [("status", user.status.name)]
    [("status", "SUSPENDED"), ("reason", reason)]))

def reactivateRead (id : ℕ) : Tx Failure AuthDb User := do
  let db ← get
  let user ← orThrow (db.users.find id) (.notFound "USER_NOT_FOUND" none)
  throwIf (user.status ≠ .suspended)
    (.conflict "INVALID_STATUS" (some s!"User is {user.status.name}"))
  return user

def reactivate (adminId id : ℕ) : Saga Failure AuthDb PUnit := do
  let _ ← Saga.atomically (reactivateRead id)
  Saga.atomically (amendUser id (fun u => { u with status := .active }) (fun _ => rfl))
  Saga.atomically (audit env (userChange adminId "user.reactivate" id [("status", "SUSPENDED")]
    [("status", "ACTIVE")]))

end Admin

section Outcomes
variable {env : Env} {db db' : AuthDb}

theorem createUser_ok {email username passwordHash : String} {phone : Option String} {id : ℕ}
    (h : createUser email username passwordHash phone db = .ok (id, db')) :
    db'.sessions = db.sessions := by
  simp only [createUser, bind_ok_iff, get_ok_iff, throwIf_ok_iff, set_ok_iff, pure_ok_iff] at h
  obtain ⟨_, _, ⟨rfl, rfl⟩, _, _, ⟨_, rfl⟩, _, _, rfl, _, rfl⟩ := h
  rfl

theorem amendUser_ok {id : ℕ} {f : User → User} {hf : ∀ u, Row.id (f u) = Row.id u}
    {r : PUnit × AuthDb} (h : amendUser id f hf db = .ok r) : r.2.sessions = db.sessions := by
  simp only [amendUser, bind_ok_iff, get_ok_iff, throwIf_ok_iff, set_ok_iff] at h
  obtain ⟨_, _, ⟨rfl, rfl⟩, _, _, ⟨_, rfl⟩, hr⟩ := h
  rw [← hr]

theorem revokeUser_ok_iff {now : DateTime} {userId : ℕ} (r : PUnit × AuthDb) :
    revokeUser now userId db = .ok r ↔ { db with
      sessions := db.sessions.updateWhere (fun s => s.userId = userId ∧ s.revokedAt = none)
        (revoked now) (id_revoked now) } = r.2 := by
  unfold revokeUser
  rw [modify_ok_iff]

theorem loginRead_ok {dto : LoginRequest} {user : User}
    (h : loginRead env dto db = .ok (user, db')) : db' = db := by
  simp only [loginRead, bind_ok_iff, get_ok_iff, orThrow_ok_iff, throwIf_ok_iff, pure_ok_iff] at h
  obtain ⟨_, _, ⟨rfl, rfl⟩, _, _, ⟨_, rfl⟩, _, _, ⟨_, rfl⟩, _, _, ⟨_, rfl⟩, _, rfl⟩ := h
  rfl

theorem suspendRead_ok {adminId id : ℕ} {user : User}
    (h : suspendRead adminId id db = .ok (user, db')) : db' = db := by
  simp only [suspendRead, bind_ok_iff, get_ok_iff, orThrow_ok_iff, throwIf_ok_iff,
    pure_ok_iff] at h
  obtain ⟨_, _, ⟨rfl, rfl⟩, _, _, ⟨_, rfl⟩, _, _, ⟨_, rfl⟩, _, _, ⟨_, rfl⟩, _, rfl⟩ := h
  rfl

theorem reactivateRead_ok {id : ℕ} {user : User}
    (h : reactivateRead id db = .ok (user, db')) : db' = db := by
  simp only [reactivateRead, bind_ok_iff, get_ok_iff, orThrow_ok_iff, throwIf_ok_iff,
    pure_ok_iff] at h
  obtain ⟨_, _, ⟨rfl, rfl⟩, _, _, ⟨_, rfl⟩, _, _, ⟨_, rfl⟩, _, rfl⟩ := h
  rfl

theorem audit_ok_iff {input : Audit.RecordInput Details} (r : PUnit × AuthDb) :
    audit env input db = .ok r ↔
      { db with auditLog := Audit.record env.auditCodec input db.auditLog } = r.2 := by
  unfold audit
  rw [modify_ok_iff]

end Outcomes

end Auth
end FootballIQ
