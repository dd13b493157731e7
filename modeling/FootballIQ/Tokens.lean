import FootballIQ.AuthSchema
import FootballIQ.Interleaving

/-!
# Refresh tokens

`issue` stores the session of a new token. `rotate` reads the session of the presented
token, marks it consumed and issues a successor in its family, each in a statement of its
own; a token that was consumed or revoked before burns its whole family.
-/

namespace FootballIQ
namespace Auth

open Transaction Relational

structure IssuedTokens where
  accessToken : String
  refreshToken : String
  expiresIn : ℕ
  deriving DecidableEq

structure IssueMeta where
  deviceId : Option ℕ
  ip : Option String
  userAgent : Option String
  familyId : Option ℕ
  deriving DecidableEq

def IssueMeta.none : IssueMeta := ⟨.none, .none, .none, .none⟩

/-- What `rotate` does once it has read the session. -/
inductive Presented where
  | reuse (familyId : ℕ)
  | exchange (session : Session) (role : UserRole)
  deriving DecidableEq

section Service
variable (env : Env)

def newSession (d : Draw) (userId : ℕ) (details : IssueMeta) (familyId id : ℕ) : Session where
  id := id
  userId := userId
  deviceId := details.deviceId
  familyId := familyId
  refreshTokenHash := env.sha256 d.refreshToken
  ip := details.ip
  userAgent := details.userAgent
  expiresAt := d.now + env.refreshTtlSec * 1000
  consumedAt := none
  revokedAt := none

theorem id_newSession (d : Draw) (userId : ℕ) (details : IssueMeta) (familyId id : ℕ) :
    Row.id (newSession env d userId details familyId id) = id := rfl

/-- The unique index on the token hash. -/
def hasHash (db : AuthDb) (refreshTokenHash : String) : Prop :=
  ∃ s ∈ db.sessions.rows, s.refreshTokenHash = refreshTokenHash

instance (db : AuthDb) (refreshTokenHash : String) : Decidable (hasHash db refreshTokenHash) :=
  inferInstanceAs (Decidable (∃ s ∈ db.sessions.rows, s.refreshTokenHash = refreshTokenHash))

def issue (d : Draw) (userId : ℕ) (role : UserRole) (details : IssueMeta) :
    Tx Failure AuthDb IssuedTokens := do
  let db ← get
  throwIf (hasHash db (env.sha256 d.refreshToken)) .uniqueViolation
  set { db with
    sessions := db.sessions.insert
      (newSession env d userId details (details.familyId.getD db.freshFamily))
      (id_newSession env d userId details _) }
  return ⟨env.signAccess userId role env.accessTtlSec, d.refreshToken, env.accessTtlSec⟩

/-- `findUnique` by the hash of a raw token. -/
def sessionOf (db : AuthDb) (rawRefreshToken : String) : Option Session :=
  db.sessions.findFirst (fun s => s.refreshTokenHash = env.sha256 rawRefreshToken)

def rotateRead (now : DateTime) (rawRefreshToken : String) : Tx Failure AuthDb Presented := do
  let db ← get
  let session ← orThrow (sessionOf env db rawRefreshToken) (.unauthorized "INVALID_REFRESH_TOKEN")
  let user ← orThrow (db.users.find session.userId) .recordNotFound
  if session.revokedAt ≠ none ∨ session.consumedAt ≠ none then
    return .reuse session.familyId
  throwIf (session.expiresAt < now) (.unauthorized "REFRESH_TOKEN_EXPIRED")
  throwIf (user.status = .banned ∨ user.status = .suspended) (.unauthorized "ACCOUNT_DISABLED")
  return .exchange session user.role

def revoked (now : DateTime) (s : Session) : Session := { s with revokedAt := some now }

theorem id_revoked (now : DateTime) (s : Session) : Row.id (revoked now s) = Row.id s := rfl

def consumed (now : DateTime) (s : Session) : Session := { s with consumedAt := some now }

theorem id_consumed (now : DateTime) (s : Session) : Row.id (consumed now s) = Row.id s := rfl

/-- Every session of the family that is not yet revoked is revoked. -/
def revokeFamily (now : DateTime) (familyId : ℕ) : Tx Failure AuthDb PUnit :=
  modify (fun db => { db with
    sessions := db.sessions.updateWhere (fun s => s.familyId = familyId ∧ s.revokedAt = none)
      (revoked now) (id_revoked now) })

def consumeSession (now : DateTime) (id : ℕ) : Tx Failure AuthDb PUnit := do
  let db ← get
  throwIf (db.sessions.find id = none) .recordNotFound
  set { db with sessions := db.sessions.update id (consumed now) (id_consumed now) }

/-- The successor of a session keeps its user, its family and its device. -/
def issueSuccessor (d : Draw) (session : Session) (role : UserRole) :
    Tx Failure AuthDb IssuedTokens :=
  issue env d session.userId role
    { IssueMeta.none with deviceId := session.deviceId, familyId := some session.familyId }

def rotate (d : Draw) (rawRefreshToken : String) : Saga Failure AuthDb IssuedTokens := do
  match ← Saga.atomically (rotateRead env d.now rawRefreshToken) with
  | .reuse familyId =>
    Saga.atomically (revokeFamily d.now familyId)
    Saga.atomically (check (.error (.unauthorized "REFRESH_TOKEN_REUSE")))
  | .exchange session role =>
    Saga.atomically (consumeSession d.now session.id)
    Saga.atomically (issueSuccessor env d session role)

/-- The read of a logout: the family of the presented token, if it is known. -/
def familyOf (db : AuthDb) (rawRefreshToken : String) : Option ℕ :=
  (sessionOf env db rawRefreshToken).map (·.familyId)

/-- Logout: the presented session's entire family is revoked. -/
def revokeByToken (now : DateTime) (rawRefreshToken : String) : Saga Failure AuthDb PUnit := do
  match ← Saga.atomically (do return familyOf env (← get) rawRefreshToken) with
  | none => return ⟨⟩
  | some familyId => Saga.atomically (revokeFamily now familyId)

end Service

section Outcomes
variable {env : Env} {d : Draw} {now : DateTime} {raw : String} {db db' : AuthDb}

theorem issue_ok_iff {userId : ℕ} {role : UserRole} {details : IssueMeta} {tokens : IssuedTokens} :
    issue env d userId role details db = .ok (tokens, db') ↔
      ¬ hasHash db (env.sha256 d.refreshToken) ∧
      db' = { db with
        sessions := db.sessions.insert
          (newSession env d userId details (details.familyId.getD db.freshFamily))
          (id_newSession env d userId details _) } ∧
      tokens = ⟨env.signAccess userId role env.accessTtlSec, d.refreshToken, env.accessTtlSec⟩ := by
  simp only [issue, bind_ok_iff, get_ok_iff, throwIf_ok_iff, set_ok_iff, pure_ok_iff]
  constructor
  · rintro ⟨_, _, ⟨rfl, rfl⟩, _, _, ⟨hnot, rfl⟩, _, _, rfl, rfl, rfl⟩
    exact ⟨hnot, rfl, rfl⟩
  · rintro ⟨hnot, rfl, rfl⟩
    exact ⟨db, db, ⟨rfl, rfl⟩, ⟨⟩, db, ⟨hnot, rfl⟩, ⟨⟩, _, rfl, rfl, rfl⟩

theorem sessionOf_some {s : Session} (h : sessionOf env db raw = some s) :
    s ∈ db.sessions.rows ∧ s.refreshTokenHash = env.sha256 raw := Table.findFirst_eq_some _ h

theorem rotateRead_ok {p : Presented} (h : rotateRead env now raw db = .ok (p, db')) :
    db' = db ∧ ∃ s, sessionOf env db raw = some s ∧
      match p with
      | .reuse familyId => familyId = s.familyId ∧ (s.revokedAt ≠ none ∨ s.consumedAt ≠ none)
      | .exchange session _ => session = s ∧ s.revokedAt = none ∧ s.consumedAt = none ∧
          now ≤ s.expiresAt := by
  simp only [rotateRead, bind_ok_iff, get_ok_iff, orThrow_ok_iff] at h
  obtain ⟨_, _, ⟨rfl, rfl⟩, s, _, ⟨hs, rfl⟩, user, _, ⟨_, rfl⟩, hrest⟩ := h
  by_cases hused : s.revokedAt ≠ none ∨ s.consumedAt ≠ none
  · rw [if_pos hused, pure_ok_iff] at hrest
    obtain ⟨rfl, rfl⟩ := hrest
    exact ⟨rfl, s, hs, rfl, hused⟩
  · simp only [if_neg hused, bind_ok_iff, throwIf_ok_iff, pure_ok_iff] at hrest
    obtain ⟨_, _, ⟨hfresh, rfl⟩, _, _, ⟨_, rfl⟩, rfl, rfl⟩ := hrest
    rw [not_or, not_not, not_not] at hused
    exact ⟨rfl, s, hs, rfl, hused.1, hused.2, not_lt.1 hfresh⟩

theorem revokeFamily_ok_iff {familyId : ℕ} (r : PUnit × AuthDb) :
    revokeFamily now familyId db = .ok r ↔ { db with
      sessions := db.sessions.updateWhere (fun s => s.familyId = familyId ∧ s.revokedAt = none)
        (revoked now) (id_revoked now) } = r.2 := by
  unfold revokeFamily
  rw [modify_ok_iff]

theorem revokeFamily_ok (now : DateTime) (familyId : ℕ) (db : AuthDb) :
    revokeFamily now familyId db = .ok (⟨⟩, { db with
      sessions := db.sessions.updateWhere (fun s => s.familyId = familyId ∧ s.revokedAt = none)
        (revoked now) (id_revoked now) }) :=
  (revokeFamily_ok_iff (⟨⟩, _)).2 rfl

theorem consumeSession_ok_iff {id : ℕ} (r : PUnit × AuthDb) :
    consumeSession now id db = .ok r ↔ db.sessions.find id ≠ none ∧
      { db with sessions := db.sessions.update id (consumed now) (id_consumed now) } = r.2 := by
  simp only [consumeSession, bind_ok_iff, get_ok_iff, throwIf_ok_iff, set_ok_iff]
  constructor
  · rintro ⟨_, _, ⟨rfl, rfl⟩, _, _, ⟨hex, rfl⟩, hr⟩
    exact ⟨hex, hr⟩
  · rintro ⟨hex, hr⟩
    exact ⟨db, db, ⟨rfl, rfl⟩, ⟨⟩, db, ⟨hex, rfl⟩, hr⟩

theorem mem_consumeSession {session : Session} {r : PUnit × AuthDb}
    (hmem : session ∈ db.sessions.rows) (h : consumeSession now session.id db = .ok r) :
    consumed now session ∈ r.2.sessions.rows := by
  obtain ⟨_, hr⟩ := (consumeSession_ok_iff r).1 h
  rw [← hr]
  exact (Table.mem_updateWhere _ _ (consumed now) (id_consumed now) _).2
    ⟨session, hmem, if_pos rfl⟩

end Outcomes

end Auth
end FootballIQ
