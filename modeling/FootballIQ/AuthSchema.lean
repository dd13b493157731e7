import FootballIQ.Audit
import FootballIQ.Saga
import FootballIQ.Schema

/-!
# Users, sessions and one-time codes

The tables behind authentication, with the columns its services use. A refresh token
and a one-time code are stored as hashes only. What the services take from outside (the
clock, random values, hashing and signing) is passed in.
-/

namespace FootballIQ
namespace Auth

open Transaction Relational

inductive UserRole where
  | user | support | contestAdmin | financeAdmin | superAdmin
  deriving DecidableEq

inductive UserStatus where
  | pendingVerification | active | suspended | banned
  deriving DecidableEq

def UserStatus.name : UserStatus → String
  | .pendingVerification => "PENDING_VERIFICATION"
  | .active => "ACTIVE"
  | .suspended => "SUSPENDED"
  | .banned => "BANNED"

structure User where
  id : ℕ
  email : String
  username : String
  phone : Option String
  passwordHash : String
  role : UserRole
  status : UserStatus
  emailVerifiedAt : Option DateTime
  lastLoginAt : Option DateTime
  deletedAt : Option DateTime
  deriving DecidableEq

instance : Row User := ⟨User.id⟩

/-- A refresh-token session; rotating its token makes a child in the same family. -/
structure Session where
  id : ℕ
  userId : ℕ
  deviceId : Option ℕ
  familyId : ℕ
  refreshTokenHash : String
  ip : Option String
  userAgent : Option String
  expiresAt : DateTime
  consumedAt : Option DateTime
  revokedAt : Option DateTime
  deriving DecidableEq

instance : Row Session := ⟨Session.id⟩

inductive OtpPurpose where
  | emailVerify | passwordReset | withdrawal | login
  deriving DecidableEq

structure OtpCode where
  id : ℕ
  userId : ℕ
  purpose : OtpPurpose
  codeHash : String
  attempts : ℕ
  expiresAt : DateTime
  consumedAt : Option DateTime
  createdAt : DateTime
  deriving DecidableEq

instance : Row OtpCode := ⟨OtpCode.id⟩

/-- The event that a registration puts into the outbox. -/
structure UserRegistered where
  userId : ℕ
  email : String
  deriving DecidableEq

/-- A JSON object of plain strings, as the audit log stores it. -/
abbrev Details := List (String × String)

structure AuthDb where
  users : Table User
  sessions : Table Session
  otpCodes : Table OtpCode
  ledgerAccounts : Table LedgerAccount
  outbox : List UserRegistered
  auditLog : Audit.AuditLog Details

/-- Hashing, signing and the configured lifetimes. -/
structure Env where
  accessTtlSec : ℕ
  refreshTtlSec : ℕ
  signAccess : ℕ → UserRole → ℕ → String
  sha256 : String → String
  argon2Hash : String → String → String
  argon2Verify : String → String → Bool
  auditCodec : Audit.Codec Details

/-- The clock of a step and the random values that it draws. -/
structure Draw where
  now : DateTime
  refreshToken : String
  code : String
  salt : String
  deriving DecidableEq

namespace AuthDb

def empty : AuthDb where
  users := Table.empty
  sessions := Table.empty
  otpCodes := Table.empty
  ledgerAccounts := Table.empty
  outbox := []
  auditLog := Audit.AuditLog.empty

/-- A random family id: one that no session has. -/
def freshFamily (db : AuthDb) : ℕ := (db.sessions.rows.map (·.familyId)).foldr max 0 + 1

theorem lt_freshFamily {db : AuthDb} {s : Session} (hs : s ∈ db.sessions.rows) :
    s.familyId < db.freshFamily :=
  Nat.lt_succ_of_le (List.le_max_of_le (List.mem_map_of_mem hs) (le_refl _))

end AuthDb

section Sample

/-- Any text counts as its own hash, and a password hash is the salted password. -/
def sampleEnv : Env where
  accessTtlSec := 900
  refreshTtlSec := 2592000
  signAccess userId _ _ := toString userId
  sha256 text := text
  argon2Hash salt password := salt ++ password
  argon2Verify passwordHash password := passwordHash = "s1" ++ password
  auditCodec := ⟨[], fun _ => "", fun _ => "", Audit.keySorted⟩

def sampleUser : User where
  id := 1
  email := "ada@fiq.test"
  username := "ada"
  phone := none
  passwordHash := "s1Secret"
  role := .user
  status := .active
  emailVerifiedAt := some 5
  lastLoginAt := some 10
  deletedAt := none

/-- A user whose one session has the token "r0". -/
def sampleDb : AuthDb :=
  { AuthDb.empty with
    users := ⟨[sampleUser], by decide⟩
    sessions := ⟨[⟨1, 1, none, 1, "r0", none, none, 2592000010, none, none⟩], by decide⟩ }

def draw (now : DateTime) (refreshToken : String) : Draw := ⟨now, refreshToken, "", ""⟩

end Sample

end Auth
end FootballIQ
