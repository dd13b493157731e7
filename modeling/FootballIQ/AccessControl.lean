import FootballIQ.Accounts

/-!
# Guards and suspensions

A guarded request presents an access token; the guards read the user of the token and
check its status and its role before the handler runs. Logins, refreshes and handlers go
on in further statements after their check, so a suspension can fall between the two.
-/

namespace FootballIQ
namespace Auth
namespace Access

open Transaction Relational Interleaving

section Guards

structure AccessTokenPayload where
  sub : ℕ
  role : UserRole
  deriving DecidableEq

structure AuthenticatedUser where
  userId : ℕ
  role : UserRole
  emailVerified : Bool
  deriving DecidableEq

inductive Rejection where
  | unauthorized (code : Option String)
  | forbidden (message : Option String)
  deriving DecidableEq

def validate (payload : AccessTokenPayload) : Tx Rejection AuthDb AuthenticatedUser := do
  let db ← get
  let user ← orThrow (db.users.findFirst (fun u => u.id = payload.sub ∧ u.deletedAt = none))
    (.unauthorized (some "ACCOUNT_DISABLED"))
  throwIf (user.status = .banned ∨ user.status = .suspended)
    (.unauthorized (some "ACCOUNT_DISABLED"))
  return ⟨user.id, user.role, user.emailVerifiedAt ≠ none⟩

/-- A super admin passes every role check. -/
def canActivate (required : List UserRole) (user : AuthenticatedUser) : Except Rejection PUnit :=
  if required = [] then .ok ⟨⟩
  else if user.role = .superAdmin then .ok ⟨⟩
  else if user.role ∉ required then .error (.forbidden (some "Insufficient permissions"))
  else .ok ⟨⟩

variable (verifyAccess : DateTime → String → Option AccessTokenPayload)

/-- The token guard and the role guard after it; the role in the token is not looked at. -/
def guards (now : DateTime) (token : String) (required : List UserRole) :
    Tx Rejection AuthDb AuthenticatedUser := do
  let payload ← orThrow (verifyAccess now token) (.unauthorized none)
  let user ← validate payload
  check (canActivate required user)
  return user

end Guards

section Model

/-- What a guarded request asks for; `other` stands for the handlers that leave users,
sessions and the codes for e-mail addresses and passwords alone. -/
inductive Operation where
  | verifyEmail (code : String)
  | suspend (id : ℕ) (reason : String)
  | reactivate (id : ℕ)
  | other (required : List UserRole)
  deriving DecidableEq

def Operation.required : Operation → List UserRole
  | .verifyEmail _ => []
  | .suspend _ _ | .reactivate _ => [.support, .financeAdmin]
  | .other required => required

inductive Call where
  | guarded (token : String) (op : Operation)
  | login (dto : LoginRequest) (ip userAgent : Option String)
  | refresh (rawRefreshToken : String)
  | logout (rawRefreshToken : String)
  | register (dto : RegisterRequest)
  | forgotPassword (email : String)
  | resetPassword (dto : ResetPasswordRequest)
  deriving DecidableEq

/-- A call about to begin, a handler past the guards, or a call with its next statement
prepared. -/
inductive Task where
  | ready (call : Call)
  | run (user : AuthenticatedUser) (op : Operation)
  | countAttempt (codeId : ℕ)
  | spendVerification (userId codeId : ℕ)
  | verified (userId : ℕ)
  | suspendTx (adminId : ℕ) (target : User) (reason : String)
  | reactivateTx (adminId id : ℕ)
  | audit (input : Audit.RecordInput Details)
  | loggedIn (user : User) (ip userAgent : Option String)
  | issueFirst (userId : ℕ) (role : UserRole) (details : IssueMeta)
  | revoke (familyId : ℕ)
  | consume (session : Session) (role : UserRole)
  | issueNext (session : Session) (role : UserRole)
  | registered (userId : ℕ)
  | forgotten (userId : ℕ)
  | spendReset (dto : ResetPasswordRequest) (codeId : ℕ)
  | resetTx (dto : ResetPasswordRequest)

def emailVerified (now : DateTime) (u : User) : User :=
  { u with emailVerifiedAt := some now, status := .active }

theorem id_emailVerified (now : DateTime) (u : User) : Row.id (emailVerified now u) = Row.id u := rfl

def reactivated (u : User) : User := { u with status := .active }

theorem id_reactivated (u : User) : Row.id (reactivated u) = Row.id u := rfl

def seenAt (now : DateTime) (u : User) : User := { u with lastLoginAt := some now }

theorem id_seenAt (now : DateTime) (u : User) : Row.id (seenAt now u) = Row.id u := rfl

/-- Commit a statement and go on with its result, or stop at its error. -/
def thenDo {ε α : Type} (x : Tx ε AuthDb α) (next : α → Option Task) (db : AuthDb) :
    AuthDb × Option Task :=
  match x db with
  | .ok (a, db') => (db', next a)
  | .error _ => (db, none)

variable (env : Env) (verifyAccess : DateTime → String → Option AccessTokenPayload)

/-- The first statement of a call. -/
def begin_ (d : Draw) : Call → AuthDb → AuthDb × Option Task
  | .guarded token op =>
    thenDo (guards verifyAccess d.now token op.required) (fun user => some (.run user op))
  | .login dto ip userAgent =>
    thenDo (loginRead env dto) (fun user => some (.loggedIn user ip userAgent))
  | .refresh rawRefreshToken =>
    thenDo (rotateRead env d.now rawRefreshToken) (fun
      | .reuse familyId => some (.revoke familyId)
      | .exchange session role => some (.consume session role))
  | .logout rawRefreshToken => fun db => (db, (familyOf env db rawRefreshToken).map .revoke)
  | .register dto =>
    thenDo (rescue registerFailure (createUser dto.email.toLower dto.username.toLower
      (env.argon2Hash d.salt dto.password) dto.phone)) (fun userId => some (.registered userId))
  | .forgotPassword email => fun db =>
    (db, (db.users.findFirst (fun u => u.email = email.toLower)).map (fun u => .forgotten u.id))
  | .resetPassword dto =>
    thenDo (consumeRead env d.now dto.userId .passwordReset dto.token) (fun r =>
      some (if r.2 then .spendReset dto r.1.id else .countAttempt r.1.id))

/-- The first statement of a handler. -/
def handle (d : Draw) (user : AuthenticatedUser) : Operation → AuthDb → AuthDb × Option Task
  | .verifyEmail code =>
    thenDo (consumeRead env d.now user.userId .emailVerify code) (fun r =>
      some (if r.2 then .spendVerification user.userId r.1.id else .countAttempt r.1.id))
  | .suspend id reason =>
    thenDo (suspendRead user.userId id) (fun target => some (.suspendTx user.userId target reason))
  | .reactivate id => thenDo (reactivateRead id) (fun _ => some (.reactivateTx user.userId id))
  | .other _ => fun db => (db, none)

def step (d : Draw) : Task → AuthDb → AuthDb × Option Task
  | .ready call => begin_ env verifyAccess d call
  | .run user op => handle env d user op
  | .countAttempt codeId => thenDo (countAttempt codeId) (fun _ => none)
  | .spendVerification userId codeId =>
    thenDo (spendCode d.now codeId) (fun _ => some (.verified userId))
  | .verified userId =>
    thenDo (amendUser userId (emailVerified d.now) (id_emailVerified d.now)) (fun _ => none)
  | .suspendTx adminId target reason =>
    thenDo (suspendTx d.now target.id) (fun _ => some (.audit (userChange adminId "user.suspend"
      target.id [("status", target.status.name)] [("status", "SUSPENDED"), ("reason", reason)])))
  | .reactivateTx adminId id =>
    thenDo (amendUser id reactivated id_reactivated)
      (fun _ => some (.audit (userChange adminId "user.reactivate" id [("status", "SUSPENDED")]
        [("status", "ACTIVE")])))
  | .audit input => thenDo (audit env input) (fun _ => none)
  | .loggedIn user ip userAgent =>
    thenDo (amendUser user.id (seenAt d.now) (id_seenAt d.now))
      (fun _ => some (.issueFirst user.id user.role { IssueMeta.none with ip, userAgent }))
  | .issueFirst userId role details => thenDo (issue env d userId role details) (fun _ => none)
  | .revoke familyId => thenDo (revokeFamily d.now familyId) (fun _ => none)
  | .consume session role =>
    thenDo (consumeSession d.now session.id) (fun _ => some (.issueNext session role))
  | .issueNext session role => thenDo (issueSuccessor env d session role) (fun _ => none)
  | .registered userId =>
    thenDo (issueCode env d userId .emailVerify)
      (fun _ => some (.issueFirst userId .user IssueMeta.none))
  | .forgotten userId => thenDo (issueToken env d userId .passwordReset) (fun _ => none)
  | .spendReset dto codeId => thenDo (spendCode d.now codeId) (fun _ => some (.resetTx dto))
  | .resetTx dto => thenDo (resetPasswordTx env d dto) (fun _ => none)

def protocol : Protocol AuthDb Call Task Draw := ⟨.ready, step env verifyAccess⟩

end Model

section Facts

/-- The user is suspended and has no session that is not revoked. -/
structure Barred (userId : ℕ) (db : AuthDb) : Prop where
  suspended : ∃ u ∈ db.users.rows, u.id = userId ∧ u.status = .suspended
  revoked : ∀ s ∈ db.sessions.rows, s.userId = userId → s.revokedAt ≠ none

/-- The task is a request of the user past the check of its status or of its session. A
password reset is none: it is checked by its code alone. -/
def Acts (userId : ℕ) : Task → Prop
  | .run user _ => user.userId = userId
  | .spendVerification k _ | .verified k | .issueFirst k _ _ | .registered k => k = userId
  | .suspendTx adminId _ _ | .reactivateTx adminId _ => adminId = userId
  | .loggedIn user _ _ => user.id = userId
  | .consume session _ | .issueNext session _ => session.userId = userId
  | _ => False

/-- The step does not reactivate the user. -/
def NotReactivated (userId : ℕ) (_ : Draw) (t : Task) (_ : AuthDb) : Prop :=
  match t with
  | .reactivateTx _ id => id ≠ userId
  | _ => True

/-- The statement keeps the user barred, and what it goes on with is not the user's. -/
def Bars {ε α : Type} (userId : ℕ) (x : Tx ε AuthDb α) (next : α → Option Task) : Prop :=
  ∀ db a db', Barred userId db → x db = .ok (a, db') →
    Barred userId db' ∧ ∀ t, next a = some t → ¬ Acts userId t

variable {userId : ℕ} {db : AuthDb}

theorem Bars.thenDo {ε α : Type} {x : Tx ε AuthDb α} {next : α → Option Task}
    (h : Bars userId x next) (hb : Barred userId db) :
    Barred userId (thenDo x next db).1 ∧
      ∀ t, (thenDo x next db).2 = some t → ¬ Acts userId t := by
  unfold Access.thenDo
  cases hx : x db with
  | ok r => exact h db r.1 r.2 hb hx
  | error e => exact ⟨hb, fun t ht => by cases ht⟩

theorem Barred.status_eq (hb : Barred userId db) {u : User} (hu : u ∈ db.users.rows)
    (hid : u.id = userId) : u.status = .suspended := by
  obtain ⟨x, hx, hxid, hs⟩ := hb.suspended
  rw [Table.eq_of_id_eq _ hu hx (hid.trans hxid.symm)]
  exact hs

/-- A change of users that leaves the suspended one suspended. -/
theorem Barred.amend (hb : Barred userId db) {id : ℕ} {f : User → User}
    {hf : ∀ u, Row.id (f u) = Row.id u}
    (hstatus : ∀ u, u.id = userId → id = userId → u.status = .suspended → (f u).status = .suspended) :
    Barred userId { db with users := db.users.update id f hf } := by
  refine ⟨?_, hb.revoked⟩
  obtain ⟨u, hu, hid, hs⟩ := hb.suspended
  refine ⟨if Row.id u = id then f u else u, (Table.mem_updateWhere _ _ f hf _).2 ⟨u, hu, rfl⟩, ?_, ?_⟩
  · split_ifs
    · exact (hf u).trans hid
    · exact hid
  · split_ifs with heq
    · exact hstatus u hid (heq.symm.trans hid) hs
    · exact hs

theorem Barred.sessions (hb : Barred userId db) {p : Session → Prop} [DecidablePred p]
    {f : Session → Session} {hf : ∀ s, Row.id (f s) = Row.id s}
    (hf' : ∀ s, (f s).userId = s.userId ∧ (s.revokedAt ≠ none → (f s).revokedAt ≠ none)) :
    Barred userId { db with sessions := db.sessions.updateWhere p f hf } := by
  refine ⟨hb.suspended, ?_⟩
  intro s' hs' howner
  obtain ⟨s, hs, rfl⟩ := (Table.mem_updateWhere _ _ f hf s').1 hs'
  split_ifs at howner ⊢
  · exact (hf' s).2 (hb.revoked s hs ((hf' s).1.symm.trans howner))
  · exact hb.revoked s hs howner

theorem amendUser_ok_iff {id : ℕ} {f : User → User} {hf : ∀ u, Row.id (f u) = Row.id u}
    (r : PUnit × AuthDb) : amendUser id f hf db = .ok r ↔ db.users.find id ≠ none ∧
      { db with users := db.users.update id f hf } = r.2 := by
  simp only [amendUser, bind_ok_iff, get_ok_iff, throwIf_ok_iff, set_ok_iff]
  constructor
  · rintro ⟨_, _, ⟨rfl, rfl⟩, _, _, ⟨hex, rfl⟩, hr⟩
    exact ⟨hex, hr⟩
  · rintro ⟨hex, hr⟩
    exact ⟨db, db, ⟨rfl, rfl⟩, ⟨⟩, db, ⟨hex, rfl⟩, hr⟩

end Facts

section Statements
variable {env : Env} {d : Draw} {userId : ℕ} {next : PUnit → Option Task}

/-- A statement on the codes. -/
theorem bars_amendCode {id : ℕ} {f : OtpCode → OtpCode} {hf : ∀ c, Row.id (f c) = Row.id c}
    (hnext : ∀ t, next ⟨⟩ = some t → ¬ Acts userId t) : Bars userId (amendCode id f hf) next := by
  intro db u db' hb h
  simp only [amendCode, bind_ok_iff, get_ok_iff, throwIf_ok_iff, set_ok_iff] at h
  obtain ⟨_, _, ⟨rfl, rfl⟩, _, _, ⟨_, rfl⟩, hr⟩ := h
  rw [← show _ = db' from hr]
  exact ⟨⟨hb.suspended, hb.revoked⟩, hnext⟩

theorem bars_issueCode {k : ℕ} {purpose : OtpPurpose} {next : String → Option Task}
    (hnext : ∀ code t, next code = some t → ¬ Acts userId t) :
    Bars userId (issueCode env d k purpose) next := by
  intro db code db' hb h
  obtain ⟨_, rfl⟩ := issueCode_ok_iff.1 h
  exact ⟨⟨hb.suspended, hb.revoked⟩, hnext code⟩

theorem bars_consumeRead {k : ℕ} {purpose : OtpPurpose} {value : String} {f g : ℕ → Task}
    (hf : ∀ id, ¬ Acts userId (f id)) (hg : ∀ id, ¬ Acts userId (g id)) :
    Bars userId (consumeRead env d.now k purpose value)
      (fun r => some (if r.2 then f r.1.id else g r.1.id)) := by
  rintro db ⟨code, right⟩ db' hb h
  obtain ⟨rfl, _⟩ := consumeRead_ok h
  refine ⟨hb, ?_⟩
  rintro t ⟨⟩
  split_ifs
  · exact hf code.id
  · exact hg code.id

theorem bars_amendUser {id : ℕ} {f : User → User} {hf : ∀ u, Row.id (f u) = Row.id u}
    (hstatus : ∀ u, u.id = userId → id = userId → u.status = .suspended → (f u).status = .suspended)
    (hnext : ∀ t, next ⟨⟩ = some t → ¬ Acts userId t) : Bars userId (amendUser id f hf) next := by
  intro db u db' hb h
  obtain ⟨_, hr⟩ := (amendUser_ok_iff _).1 h
  rw [← show _ = db' from hr]
  exact ⟨hb.amend hstatus, hnext⟩

/-- A change of one user together with the revocation of its sessions. -/
theorem bars_amend_revoke {id : ℕ} {f : User → User} {hf : ∀ u, Row.id (f u) = Row.id u}
    (hstatus : ∀ u, u.id = userId → id = userId → u.status = .suspended → (f u).status = .suspended)
    (hnext : ∀ t, next ⟨⟩ = some t → ¬ Acts userId t) :
    Bars userId (amendUser id f hf >>= fun _ => revokeUser d.now id) next := by
  intro db u db' hb h
  obtain ⟨_, db₁, hamend, hrevoke⟩ := (bind_ok_iff _ _ _ _).1 h
  obtain ⟨_, rfl⟩ := (amendUser_ok_iff _).1 hamend
  rw [← show _ = db' from (revokeUser_ok_iff _).1 hrevoke]
  exact ⟨(hb.amend hstatus).sessions (fun s => ⟨rfl, fun _ => Option.some_ne_none _⟩), hnext⟩

theorem bars_revokeFamily {familyId : ℕ} (hnext : ∀ t, next ⟨⟩ = some t → ¬ Acts userId t) :
    Bars userId (revokeFamily d.now familyId) next := by
  intro db u db' hb h
  rw [← show _ = db' from (revokeFamily_ok_iff _).1 h]
  exact ⟨hb.sessions (fun s => ⟨rfl, fun _ => Option.some_ne_none _⟩), hnext⟩

theorem bars_consumeSession {id : ℕ} (hnext : ∀ t, next ⟨⟩ = some t → ¬ Acts userId t) :
    Bars userId (consumeSession d.now id) next := by
  intro db u db' hb h
  obtain ⟨_, hr⟩ := (consumeSession_ok_iff _).1 h
  rw [← show _ = db' from hr]
  exact ⟨hb.sessions (fun s => ⟨rfl, fun h => h⟩), hnext⟩

theorem bars_issue {k : ℕ} {role : UserRole} {details : IssueMeta} (hk : k ≠ userId) :
    Bars userId (issue env d k role details) (fun _ => none) := by
  intro db tokens db' hb h
  obtain ⟨_, rfl, _⟩ := issue_ok_iff.1 h
  refine ⟨⟨hb.suspended, ?_⟩, fun t ht => by cases ht⟩
  intro s hs howner
  rcases (Table.mem_insert _ _ (id_newSession env d k details _) s).1 hs with hs | rfl
  · exact hb.revoked s hs howner
  · exact absurd howner hk

theorem bars_createUser {email username passwordHash : String} {phone : Option String} :
    Bars userId (rescue registerFailure (createUser email username passwordHash phone))
      (fun k => some (.registered k)) := by
  intro db k db' hb h
  rw [rescue_ok_iff] at h
  simp only [createUser, bind_ok_iff, get_ok_iff, throwIf_ok_iff, set_ok_iff, pure_ok_iff] at h
  obtain ⟨_, _, ⟨rfl, rfl⟩, _, _, ⟨_, rfl⟩, _, _, rfl, rfl, rfl⟩ := h
  obtain ⟨u, hu, hid, hs⟩ := hb.suspended
  refine ⟨⟨⟨u, (Table.mem_insert _ _ (id_newUser _ _ _ _) u).2 (Or.inl hu), hid, hs⟩, hb.revoked⟩, ?_⟩
  rintro t ⟨⟩ heq
  exact db.users.fresh_ne hu (hid.trans heq.symm)

end Statements

section Steps
variable {env : Env} {verifyAccess : DateTime → String → Option AccessTokenPayload} {d : Draw}
  {userId : ℕ} {db : AuthDb}

/-- The guards let no request of a suspended user pass. -/
theorem bars_guards {token : String} {op : Operation} :
    Bars userId (guards verifyAccess d.now token op.required) (fun user => some (.run user op)) := by
  intro db user db' hb h
  simp only [guards, validate, bind_ok_iff, get_ok_iff, orThrow_ok_iff, throwIf_ok_iff,
    check_ok_iff, pure_ok_iff] at h
  obtain ⟨payload, _, ⟨_, rfl⟩, _, _, ⟨_, _, ⟨rfl, rfl⟩, u, _, ⟨hu, rfl⟩, _, _, ⟨hs, rfl⟩, rfl, rfl⟩,
    _, _, ⟨_, rfl⟩, rfl, rfl⟩ := h
  refine ⟨hb, ?_⟩
  rintro t ⟨⟩ hid
  exact hs (Or.inr (hb.status_eq (Table.findFirst_eq_some _ hu).1 hid))

theorem bars_login {dto : LoginRequest} {ip userAgent : Option String} :
    Bars userId (loginRead env dto) (fun user => some (.loggedIn user ip userAgent)) := by
  intro db user db' hb h
  simp only [loginRead, bind_ok_iff, get_ok_iff, orThrow_ok_iff, throwIf_ok_iff, pure_ok_iff] at h
  obtain ⟨_, _, ⟨rfl, rfl⟩, u, _, ⟨hu, rfl⟩, _, _, ⟨_, rfl⟩, _, _, ⟨hs, rfl⟩, rfl, rfl⟩ := h
  refine ⟨hb, ?_⟩
  rintro t ⟨⟩ hid
  exact hs (Or.inr (hb.status_eq (Table.findFirst_eq_some _ hu).1 hid))

/-- A session that can be exchanged is not revoked, so it is another user's. -/
theorem bars_rotateRead {rawRefreshToken : String} :
    Bars userId (rotateRead env d.now rawRefreshToken) (fun
      | .reuse familyId => some (.revoke familyId)
      | .exchange session role => some (.consume session role)) := by
  intro db presented db' hb h
  obtain ⟨rfl, s, hs, hpresented⟩ := rotateRead_ok h
  refine ⟨hb, ?_⟩
  cases presented with
  | reuse familyId =>
    rintro t ⟨⟩ hacts
    exact hacts
  | exchange session role =>
    obtain ⟨rfl, hrevoked, _⟩ := hpresented
    rintro t ⟨⟩ howner
    exact hb.revoked session (sessionOf_some hs).1 howner hrevoked

theorem bars_handle {user : AuthenticatedUser} {op : Operation} (hb : Barred userId db)
    (huser : user.userId ≠ userId) : Barred userId (handle env d user op db).1 ∧
      ∀ t, (handle env d user op db).2 = some t → ¬ Acts userId t := by
  cases op with
  | verifyEmail code =>
    exact Bars.thenDo (bars_consumeRead (f := .spendVerification user.userId)
      (fun _ => huser) (fun _ hacts => hacts)) hb
  | suspend id reason =>
    refine Bars.thenDo ?_ hb
    intro db target db' hb h
    obtain rfl := suspendRead_ok h
    refine ⟨hb, ?_⟩
    rintro t ⟨⟩
    exact huser
  | reactivate id =>
    refine Bars.thenDo ?_ hb
    intro db target db' hb h
    obtain rfl := reactivateRead_ok h
    refine ⟨hb, ?_⟩
    rintro t ⟨⟩
    exact huser
  | other required => exact ⟨hb, fun t ht => by cases ht⟩

theorem bars_begin {call : Call} (hb : Barred userId db) :
    Barred userId (begin_ env verifyAccess d call db).1 ∧
      ∀ t, (begin_ env verifyAccess d call db).2 = some t → ¬ Acts userId t := by
  cases call with
  | guarded token op => exact bars_guards.thenDo hb
  | login dto ip userAgent => exact bars_login.thenDo hb
  | refresh rawRefreshToken => exact bars_rotateRead.thenDo hb
  | logout rawRefreshToken =>
    refine ⟨hb, ?_⟩
    intro t ht hacts
    obtain ⟨_, _, rfl⟩ := Option.map_eq_some_iff.1 ht
    exact hacts
  | register dto => exact bars_createUser.thenDo hb
  | forgotPassword email =>
    refine ⟨hb, ?_⟩
    intro t ht hacts
    obtain ⟨_, _, rfl⟩ := Option.map_eq_some_iff.1 ht
    exact hacts
  | resetPassword dto =>
    exact Bars.thenDo (bars_consumeRead (f := .spendReset dto) (fun _ hacts => hacts)
      (fun _ hacts => hacts)) hb

/-- No step but a reactivation lets a barred user back in, unless it is the user's own. -/
theorem bars_step {t : Task} (hb : Barred userId db) (ht : ¬ Acts userId t)
    (hr : NotReactivated userId d t db) : Barred userId (step env verifyAccess d t db).1 ∧
      ∀ t', (step env verifyAccess d t db).2 = some t' → ¬ Acts userId t' := by
  cases t with
  | ready call => exact bars_begin hb
  | run user op => exact bars_handle hb ht
  | countAttempt codeId => exact (bars_amendCode (fun t h => by cases h)).thenDo hb
  | spendVerification k codeId =>
    refine (bars_amendCode ?_).thenDo hb
    rintro t ⟨⟩
    exact ht
  | verified k =>
    exact (bars_amendUser (fun u _ hk => absurd hk ht) (fun t h => by cases h)).thenDo hb
  | suspendTx adminId target reason =>
    refine (bars_amend_revoke (fun _ _ _ _ => rfl) ?_).thenDo hb
    rintro t ⟨⟩ hacts
    exact hacts
  | reactivateTx adminId id =>
    refine (bars_amendUser (fun u _ hk => absurd hk hr) ?_).thenDo hb
    rintro t ⟨⟩ hacts
    exact hacts
  | audit input =>
    refine Bars.thenDo ?_ hb
    intro db u db' hb h
    rw [← show _ = db' from (audit_ok_iff _).1 h]
    exact ⟨⟨hb.suspended, hb.revoked⟩, fun t ht => by cases ht⟩
  | loggedIn user ip userAgent =>
    refine (bars_amendUser (fun u _ hk => absurd hk ht) ?_).thenDo hb
    rintro t ⟨⟩
    exact ht
  | issueFirst k role details => exact (bars_issue ht).thenDo hb
  | revoke familyId => exact (bars_revokeFamily (fun t h => by cases h)).thenDo hb
  | consume session role =>
    refine (bars_consumeSession ?_).thenDo hb
    rintro t ⟨⟩
    exact ht
  | issueNext session role => exact (bars_issue ht).thenDo hb
  | registered k =>
    refine (bars_issueCode ?_).thenDo hb
    rintro code t ⟨⟩
    exact ht
  | forgotten k => exact (bars_issueCode (fun _ t h => by cases h)).thenDo hb
  | spendReset dto codeId =>
    refine (bars_amendCode ?_).thenDo hb
    rintro t ⟨⟩ hacts
    exact hacts
  | resetTx dto =>
    have hreset : Bars userId (resetPasswordTx env d dto) (fun _ => none) :=
      bars_amend_revoke (by intro u _ _ hs; exact hs) (fun t h => by cases h)
    exact hreset.thenDo hb

theorem barred_inductive (env : Env)
    (verifyAccess : DateTime → String → Option AccessTokenPayload) (userId : ℕ) :
    (protocol env verifyAccess).Inductive (NotReactivated userId) (Barred userId)
      (fun _ t => ¬ Acts userId t) where
  init _ _ _ := fun hacts => hacts
  shared _ _ _ hb ht hr := (bars_step hb ht hr).1
  cont _ _ _ t' hb ht hr h := (bars_step hb ht hr).2 t' h
  stable _ _ _ _ _ _ _ hu := hu

end Steps

section Runs
variable {env : Env} {verifyAccess : DateTime → String → Option AccessTokenPayload}

theorem barred_suspendTx {d : Draw} {id : ℕ} {db : AuthDb} (hex : db.users.find id ≠ none) :
    ∃ db', suspendTx d.now id db = .ok (⟨⟩, db') ∧ Barred id db' := by
  refine ⟨_, (bind_ok_iff _ _ _ _).2 ⟨⟨⟩, _, (amendUser_ok_iff (⟨⟩, _)).2 ⟨hex, rfl⟩,
    (revokeUser_ok_iff (⟨⟩, _)).2 rfl⟩, ?_, ?_⟩
  · obtain ⟨u, hu⟩ := Option.ne_none_iff_exists'.1 hex
    obtain ⟨hmem, hid⟩ := (Table.find_eq_some_iff _ _ u).1 hu
    exact ⟨_, (Table.mem_updateWhere _ _ _ (by intro u; rfl) _).2 ⟨u, hmem, if_pos hid⟩, hid, rfl⟩
  · intro s' hs' howner
    obtain ⟨s, hs, rfl⟩ := (Table.mem_updateWhere _ _ _ (by intro s; rfl) s').1 hs'
    split_ifs at howner ⊢ with hopen
    · exact Option.some_ne_none _
    · exact fun hnone => hopen ⟨howner, hnone⟩

/-- When a suspension commits while no request of the user is past its check, the user
stays suspended without a session in every later state up to a reactivation, and no
request of the user passes that check again. -/
theorem barred_of_suspension {c : Interleaving.Config AuthDb Task} {i adminId : ℕ} {target : User}
    {reason : String} (hi : c.pending[i]? = some (.suspendTx adminId target reason))
    (hex : c.shared.users.find target.id ≠ none) (hquiet : ∀ t ∈ c.pending, ¬ Acts target.id t)
    {d : Draw} {as : List (Act Call Draw)}
    (hr : (protocol env verifyAccess).Along (NotReactivated target.id)
      ((protocol env verifyAccess).next c (.resume i d)) as) :
    Barred target.id ((protocol env verifyAccess).run c (.resume i d :: as)).shared ∧
      ∀ t ∈ ((protocol env verifyAccess).run c (.resume i d :: as)).pending,
        ¬ Acts target.id t := by
  have hstart : Protocol.Holds (Barred target.id) (fun _ t => ¬ Acts target.id t)
      ((protocol env verifyAccess).next c (.resume i d)) := by
    obtain ⟨db', hrun, hbarred⟩ := barred_suspendTx (d := d) hex
    have hstep : step env verifyAccess d (.suspendTx adminId target reason) c.shared =
        (db', some (.audit (userChange adminId "user.suspend" target.id
          [("status", target.status.name)] [("status", "SUSPENDED"), ("reason", reason)]))) := by
      simp only [step, thenDo, hrun]
    obtain ⟨l, r, hpending, hnext⟩ := (protocol env verifyAccess).next_resume_some d hi
    rw [hnext]
    change Barred target.id (step env verifyAccess d _ c.shared).1 ∧
      ∀ t ∈ l ++ (step env verifyAccess d _ c.shared).2.toList ++ r, ¬ Acts target.id t
    rw [hstep]
    refine ⟨hbarred, ?_⟩
    intro t ht
    rw [List.append_assoc, List.mem_append, List.mem_append, Option.mem_toList] at ht
    rcases ht with ht | ⟨⟨⟩⟩ | ht
    · exact hquiet t (by simp [hpending, ht])
    · exact fun hacts => hacts
    · exact hquiet t (by simp [hpending, ht])
  exact (barred_inductive env verifyAccess target.id).run hstart hr

instance (userId : ℕ) (d : Draw) (t : Task) (db : AuthDb) :
    Decidable (NotReactivated userId d t db) := by
  unfold NotReactivated
  split
  · infer_instance
  · exact .isTrue trivial

/-- Access tokens "t1" and "t2" of two users. -/
def staffToken (_ : DateTime) (token : String) : Option AccessTokenPayload :=
  if token = "t1" then some ⟨1, .superAdmin⟩
  else if token = "t2" then some ⟨2, .support⟩
  else none

/-- The agent 2 has the suspension of the user prepared, while a refresh and a guarded
request of the user begin. -/
def suspending : List Task :=
  [.suspendTx 2 sampleUser "fraud", .ready (.refresh "r0"),
    .ready (.guarded "t1" (.verifyEmail "482913"))]

/-- After the suspension both are turned away, and so are a second request and a login. -/
def turnedAway : List (Act Call Draw) :=
  [.resume 1 (draw 21 "r1"), .resume 1 (draw 22 "r1"), .resume 1 (draw 23 ""),
    .start (.guarded "t1" (.other [])), .resume 1 (draw 24 ""),
    .start (.login ⟨"ada@fiq.test", "Secret"⟩ none none), .resume 1 (draw 25 "")]

theorem barred_of_suspension_refresh :
    Barred 1 ((protocol sampleEnv staffToken).run ⟨sampleDb, suspending⟩
        (.resume 0 (draw 20 "") :: turnedAway)).shared ∧
      ∀ t ∈ ((protocol sampleEnv staffToken).run ⟨sampleDb, suspending⟩
        (.resume 0 (draw 20 "") :: turnedAway)).pending, ¬ Acts 1 t := by
  have hquiet : ∀ t ∈ suspending, ¬ Acts sampleUser.id t := by
    intro t ht hacts
    simp only [suspending, List.mem_cons, List.not_mem_nil, or_false] at ht
    rcases ht with rfl | rfl | rfl
    · cases hacts
    · exact hacts
    · exact hacts
  have hex : sampleDb.users.find sampleUser.id ≠ none := by decide
  have hr : (protocol sampleEnv staffToken).Along (NotReactivated sampleUser.id)
      ((protocol sampleEnv staffToken).next ⟨sampleDb, suspending⟩ (.resume 0 (draw 20 "")))
      turnedAway := by
    decide +kernel
  exact barred_of_suspension rfl hex hquiet hr

/-- A verification that was past its check makes the account active again. -/
example : ((protocol sampleEnv staffToken).run
    ⟨sampleDb, [.verified 1, .suspendTx 2 sampleUser "fraud"]⟩
    [.resume 1 (draw 20 ""), .resume 0 (draw 21 "")]).shared.users.rows.map User.status =
      [.active] := by decide +kernel

/-- A password reset of a suspended user still goes through, and leaves the user suspended. -/
example : ((protocol sampleEnv staffToken).run
    ⟨sampleDb, [.suspendTx 2 sampleUser "fraud", .resetTx ⟨1, "482913", "Other"⟩]⟩
    [.resume 0 (draw 20 ""), .resume 1 ⟨21, "", "", "s2"⟩]).shared.users.rows.map
      (fun u => (u.status, u.passwordHash)) = [(.suspended, "s2Other")] := by decide +kernel

end Runs

section SuperAdmins
variable {userId : ℕ} {db db' : AuthDb}

/-- A super admin whose account is enabled. -/
def Standing (userId : ℕ) (db : AuthDb) : Prop :=
  ∃ u ∈ db.users.rows, u.id = userId ∧ u.role = .superAdmin ∧ u.deletedAt = none ∧
    u.status ≠ .suspended ∧ u.status ≠ .banned

/-- The user keeps its role and its status, or becomes active. -/
def Spares (userId : ℕ) (db db' : AuthDb) : Prop :=
  ∀ u ∈ db.users.rows, u.id = userId → ∃ u' ∈ db'.users.rows, u'.id = userId ∧
    u'.role = u.role ∧ u'.deletedAt = u.deletedAt ∧ (u'.status = u.status ∨ u'.status = .active)

theorem spares_of_eq (h : db'.users = db.users) : Spares userId db db' :=
  fun u hu hid => ⟨u, h ▸ hu, hid, rfl, rfl, Or.inl rfl⟩

theorem Standing.spares (h : Standing userId db) (hs : Spares userId db db') :
    Standing userId db' := by
  obtain ⟨u, hu, hid, hrole, hdeleted, hsuspended, hbanned⟩ := h
  obtain ⟨u', hu', hid', hrole', hdeleted', hstatus⟩ := hs u hu hid
  refine ⟨u', hu', hid', hrole'.trans hrole, hdeleted'.trans hdeleted, ?_⟩
  rcases hstatus with hstatus | hstatus
  · rw [hstatus]
    exact ⟨hsuspended, hbanned⟩
  · rw [hstatus]
    exact ⟨UserStatus.noConfusion, UserStatus.noConfusion⟩

theorem spares_amend {id : ℕ} {f : User → User} {hf : ∀ u, Row.id (f u) = Row.id u}
    (hkeep : ∀ u, id = userId → (f u).role = u.role ∧ (f u).deletedAt = u.deletedAt ∧
      ((f u).status = u.status ∨ (f u).status = .active)) :
    Spares userId db { db with users := db.users.update id f hf } := by
  intro u hu hid
  by_cases heq : Row.id u = id
  · exact ⟨f u, (Table.mem_updateWhere _ _ f hf _).2 ⟨u, hu, if_pos heq⟩, (hf u).trans hid,
      hkeep u (heq.symm.trans hid)⟩
  · exact ⟨u, (Table.mem_updateWhere _ _ f hf _).2 ⟨u, hu, if_neg heq⟩, hid, rfl, rfl, Or.inl rfl⟩

variable {env : Env} {verifyAccess : DateTime → String → Option AccessTokenPayload} {d : Draw}

theorem spares_thenDo {ε α : Type} {x : Tx ε AuthDb α} {next : α → Option Task}
    (h : Within (Spares userId) x) : Spares userId db (thenDo x next db).1 := by
  unfold thenDo
  cases hx : x db with
  | ok r => exact h db r.1 r.2 hx
  | error e => exact spares_of_eq rfl

theorem within_amendUser {id : ℕ} {f : User → User} {hf : ∀ u, Row.id (f u) = Row.id u}
    (hkeep : ∀ u, id = userId → (f u).role = u.role ∧ (f u).deletedAt = u.deletedAt ∧
      ((f u).status = u.status ∨ (f u).status = .active)) :
    Within (Spares userId) (amendUser id f hf) := by
  intro db u db' h
  rw [← show _ = db' from ((amendUser_ok_iff _).1 h).2]
  exact spares_amend hkeep

theorem within_amend_revoke {id : ℕ} {f : User → User} {hf : ∀ u, Row.id (f u) = Row.id u}
    (hkeep : ∀ u, id = userId → (f u).role = u.role ∧ (f u).deletedAt = u.deletedAt ∧
      ((f u).status = u.status ∨ (f u).status = .active)) :
    Within (Spares userId) (amendUser id f hf >>= fun _ => revokeUser d.now id) := by
  intro db u db' h
  obtain ⟨_, db₁, hamend, hrevoke⟩ := (bind_ok_iff _ _ _ _).1 h
  rw [← show _ = db' from (revokeUser_ok_iff _).1 hrevoke]
  exact within_amendUser hkeep db _ db₁ hamend

theorem within_amendCode {id : ℕ} {f : OtpCode → OtpCode} {hf : ∀ c, Row.id (f c) = Row.id c} :
    Within (Spares userId) (amendCode id f hf) := by
  intro db u db' h
  simp only [amendCode, bind_ok_iff, get_ok_iff, throwIf_ok_iff, set_ok_iff] at h
  obtain ⟨_, _, ⟨rfl, rfl⟩, _, _, ⟨_, rfl⟩, hr⟩ := h
  rw [← show _ = db' from hr]
  exact spares_of_eq rfl

theorem within_issueCode {k : ℕ} {purpose : OtpPurpose} :
    Within (Spares userId) (issueCode env d k purpose) := by
  intro db code db' h
  obtain ⟨_, rfl⟩ := issueCode_ok_iff.1 h
  exact spares_of_eq rfl

theorem within_issue {k : ℕ} {role : UserRole} {details : IssueMeta} :
    Within (Spares userId) (issue env d k role details) := by
  intro db tokens db' h
  obtain ⟨_, rfl, _⟩ := issue_ok_iff.1 h
  exact spares_of_eq rfl

theorem within_consumeRead {k : ℕ} {purpose : OtpPurpose} {value : String} :
    Within (Spares userId) (consumeRead env d.now k purpose value) := by
  rintro db ⟨code, right⟩ db' h
  obtain ⟨rfl, _⟩ := consumeRead_ok h
  exact spares_of_eq rfl

theorem spares_begin (call : Call) : Spares userId db (begin_ env verifyAccess d call db).1 := by
  cases call with
  | guarded token op =>
    apply spares_thenDo
    intro db user db' h
    simp only [guards, validate, bind_ok_iff, get_ok_iff, orThrow_ok_iff, throwIf_ok_iff,
      check_ok_iff, pure_ok_iff] at h
    obtain ⟨_, _, ⟨_, rfl⟩, _, _, ⟨_, _, ⟨rfl, rfl⟩, _, _, ⟨_, rfl⟩, _, _, ⟨_, rfl⟩, _, rfl⟩, _, _,
      ⟨_, rfl⟩, _, rfl⟩ := h
    exact spares_of_eq rfl
  | login dto ip userAgent =>
    exact spares_thenDo (fun db user db' h => spares_of_eq (congrArg AuthDb.users (loginRead_ok h)))
  | refresh rawRefreshToken =>
    exact spares_thenDo
      (fun db presented db' h => spares_of_eq (congrArg AuthDb.users (rotateRead_ok h).1))
  | logout rawRefreshToken => exact spares_of_eq rfl
  | register dto =>
    apply spares_thenDo
    intro db k db' h
    rw [rescue_ok_iff] at h
    simp only [createUser, bind_ok_iff, get_ok_iff, throwIf_ok_iff, set_ok_iff, pure_ok_iff] at h
    obtain ⟨_, _, ⟨rfl, rfl⟩, _, _, ⟨_, rfl⟩, _, _, rfl, rfl, rfl⟩ := h
    intro u hu hid
    exact ⟨u, (Table.mem_insert _ _ (id_newUser _ _ _ _) u).2 (Or.inl hu), hid, rfl, rfl, Or.inl rfl⟩
  | forgotPassword email => exact spares_of_eq rfl
  | resetPassword dto => exact spares_thenDo within_consumeRead

theorem spares_handle (user : AuthenticatedUser) (op : Operation) :
    Spares userId db (handle env d user op db).1 := by
  cases op with
  | verifyEmail code => exact spares_thenDo within_consumeRead
  | suspend id reason =>
    exact spares_thenDo
      (fun db target db' h => spares_of_eq (congrArg AuthDb.users (suspendRead_ok h)))
  | reactivate id =>
    exact spares_thenDo
      (fun db target db' h => spares_of_eq (congrArg AuthDb.users (reactivateRead_ok h)))
  | other required => exact spares_of_eq rfl

/-- The task does not suspend the user. -/
def NotAgainst (userId : ℕ) : Task → Prop
  | .suspendTx _ target _ => target.id ≠ userId
  | _ => True

theorem spares_step {t : Task} (ht : NotAgainst userId t) :
    Spares userId db (step env verifyAccess d t db).1 := by
  cases t with
  | ready call => exact spares_begin call
  | run user op => exact spares_handle user op
  | countAttempt _ | spendVerification _ _ | spendReset _ _ =>
    exact spares_thenDo within_amendCode
  | verified k => exact spares_thenDo (within_amendUser (fun u _ => ⟨rfl, rfl, Or.inr rfl⟩))
  | suspendTx adminId target reason =>
    exact spares_thenDo (within_amend_revoke (fun u hid => absurd hid ht))
  | reactivateTx adminId id =>
    exact spares_thenDo (within_amendUser (fun u _ => ⟨rfl, rfl, Or.inr rfl⟩))
  | audit input =>
    apply spares_thenDo
    intro db u db' h
    rw [← show _ = db' from (audit_ok_iff _).1 h]
    exact spares_of_eq rfl
  | loggedIn user ip userAgent =>
    exact spares_thenDo (within_amendUser (fun u _ => ⟨rfl, rfl, Or.inl rfl⟩))
  | issueFirst _ _ _ | issueNext _ _ => exact spares_thenDo within_issue
  | revoke familyId =>
    apply spares_thenDo
    intro db u db' h
    rw [← show _ = db' from (revokeFamily_ok_iff _).1 h]
    exact spares_of_eq rfl
  | consume session role =>
    apply spares_thenDo
    intro db u db' h
    rw [← show _ = db' from ((consumeSession_ok_iff _).1 h).2]
    exact spares_of_eq rfl
  | registered _ | forgotten _ => exact spares_thenDo within_issueCode
  | resetTx dto =>
    have hreset : Within (Spares userId) (resetPasswordTx env d dto) :=
      within_amend_revoke (by intro u _; exact ⟨rfl, rfl, Or.inl rfl⟩)
    exact spares_thenDo hreset

theorem thenDo_next {ε α : Type} {x : Tx ε AuthDb α} {next : α → Option Task} {t : Task}
    (h : (thenDo x next db).2 = some t) : ∃ a db', x db = .ok (a, db') ∧ next a = some t := by
  unfold thenDo at h
  cases hx : x db with
  | ok r =>
    rw [hx] at h
    exact ⟨r.1, r.2, rfl, h⟩
  | error e =>
    rw [hx] at h
    cases h

theorem notAgainst_begin {call : Call} {t : Task}
    (h : (begin_ env verifyAccess d call db).2 = some t) : NotAgainst userId t := by
  cases call with
  | guarded _ _ | login _ _ _ | register _ =>
    obtain ⟨_, _, _, ⟨⟩⟩ := thenDo_next h
    trivial
  | refresh rawRefreshToken =>
    obtain ⟨presented, _, _, hnext⟩ := thenDo_next h
    cases presented with
    | reuse _ | exchange _ _ =>
      cases hnext
      trivial
  | logout _ | forgotPassword _ =>
    obtain ⟨_, _, rfl⟩ := Option.map_eq_some_iff.1 h
    trivial
  | resetPassword dto =>
    obtain ⟨r, _, _, ⟨⟩⟩ := thenDo_next h
    split_ifs <;> trivial

/-- A suspension goes on only when it has found its target in another role. -/
theorem notAgainst_handle {user : AuthenticatedUser} {op : Operation} {t : Task}
    (hs : Standing userId db) (h : (handle env d user op db).2 = some t) : NotAgainst userId t := by
  cases op with
  | verifyEmail code =>
    obtain ⟨r, _, _, ⟨⟩⟩ := thenDo_next h
    split_ifs <;> trivial
  | suspend id reason =>
    obtain ⟨target, _, hread, ⟨⟩⟩ := thenDo_next h
    obtain ⟨u, hu, hid, hrole, _⟩ := hs
    simp only [suspendRead, bind_ok_iff, get_ok_iff, orThrow_ok_iff, throwIf_ok_iff,
      pure_ok_iff] at hread
    obtain ⟨_, _, ⟨rfl, rfl⟩, x, _, ⟨hx, rfl⟩, _, _, ⟨_, rfl⟩, _, _, ⟨hother, rfl⟩, rfl, rfl⟩ := hread
    intro heq
    have hmem := ((Table.find_eq_some_iff _ _ x).1 hx).1
    rw [Table.eq_of_id_eq _ hmem hu (heq.trans hid.symm)] at hother
    exact hother hrole
  | reactivate id =>
    obtain ⟨_, _, _, ⟨⟩⟩ := thenDo_next h
    trivial
  | other required => cases h

theorem notAgainst_next {t t' : Task} (hs : Standing userId db)
    (h : (step env verifyAccess d t db).2 = some t') : NotAgainst userId t' := by
  cases t with
  | ready call => exact notAgainst_begin h
  | run user op => exact notAgainst_handle hs h
  | spendVerification _ _ | suspendTx _ _ _ | reactivateTx _ _ | loggedIn _ _ _ | consume _ _
  | registered _ | spendReset _ _ =>
    obtain ⟨_, _, _, ⟨⟩⟩ := thenDo_next h
    trivial
  | countAttempt _ | verified _ | audit _ | issueFirst _ _ _ | revoke _ | issueNext _ _
  | forgotten _ | resetTx _ =>
    obtain ⟨_, _, _, ⟨⟩⟩ := thenDo_next h

theorem standing_inductive (env : Env)
    (verifyAccess : DateTime → String → Option AccessTokenPayload) (userId : ℕ) :
    (protocol env verifyAccess).Inductive (fun _ _ _ => True) (Standing userId)
      (fun _ t => NotAgainst userId t) where
  init _ _ _ := trivial
  shared _ _ _ hs ht _ := hs.spares (spares_step ht)
  cont _ _ _ _ hs _ _ h := notAgainst_next hs h
  stable _ _ _ _ _ _ _ hu := hu

theorem passes_of_standing {now : DateTime} {token : String} {payload : AccessTokenPayload}
    (hs : Standing userId db) (htoken : verifyAccess now token = some payload)
    (hsub : payload.sub = userId) (required : List UserRole) :
    ∃ user, guards verifyAccess now token required db = .ok (user, db) ∧ user.userId = userId := by
  obtain ⟨u, hu, hid, hrole, hdeleted, hsuspended, hbanned⟩ := hs
  have hfound : db.users.findFirst (fun x => x.id = payload.sub ∧ x.deletedAt = none) = some u := by
    cases hfind : db.users.findFirst (fun x => x.id = payload.sub ∧ x.deletedAt = none) with
    | none =>
      exact absurd ⟨hid.trans hsub.symm, hdeleted⟩
        ((Table.findFirst_eq_none_iff _ _).1 hfind u hu)
    | some x =>
      obtain ⟨hx, hxid, _⟩ := Table.findFirst_eq_some _ hfind
      rw [Table.eq_of_id_eq _ hx hu (hxid.trans (hsub.trans hid.symm))]
  have hactivate : canActivate required ⟨u.id, u.role, u.emailVerifiedAt ≠ none⟩ = .ok ⟨⟩ := by
    unfold canActivate
    split_ifs <;> rfl
  refine ⟨⟨u.id, u.role, u.emailVerifiedAt ≠ none⟩, ?_, hid⟩
  simp only [guards, validate, bind_ok_iff, get_ok_iff, orThrow_ok_iff, throwIf_ok_iff,
    check_ok_iff, pure_ok_iff]
  exact ⟨payload, db, ⟨htoken, rfl⟩, _, db, ⟨db, db, ⟨rfl, rfl⟩, u, db, ⟨hfound, rfl⟩, ⟨⟩, db,
    ⟨fun h => h.elim hbanned hsuspended, rfl⟩, rfl, rfl⟩, ⟨⟩, db, ⟨hactivate, rfl⟩, rfl, rfl⟩

/-- Whatever calls interleave, an enabled super admin passes every guard in every state
that is reached, as long as the token verifies. -/
theorem superAdmin_passes {c : Interleaving.Config AuthDb Task} (hs : Standing userId c.shared)
    (hquiet : ∀ t ∈ c.pending, NotAgainst userId t) (as : List (Act Call Draw)) {now : DateTime}
    {token : String} {payload : AccessTokenPayload} (htoken : verifyAccess now token = some payload)
    (hsub : payload.sub = userId) (required : List UserRole) :
    ∃ user, guards verifyAccess now token required
        ((protocol env verifyAccess).run c as).shared =
          .ok (user, ((protocol env verifyAccess).run c as).shared) ∧ user.userId = userId := by
  have hrun := (standing_inductive env verifyAccess userId).run ⟨hs, hquiet⟩
    ((protocol env verifyAccess).along_of_forall (fun _ _ _ => trivial) c as)
  exact passes_of_standing hrun.1 htoken hsub required

/-- A super admin and a support agent, with the tokens "t1" and "t2". -/
def staffDb : AuthDb :=
  { AuthDb.empty with
    users := ⟨[{ sampleUser with role := .superAdmin },
      { sampleUser with id := 2, role := .support }], by decide⟩ }

/-- The agent asks for the suspension of the super admin. -/
def mutiny : List (Act Call Draw) :=
  [.start (.guarded "t2" (.suspend 1 "fraud")), .resume 0 (draw 20 ""), .resume 0 (draw 21 ""),
    .resume 0 (draw 22 "")]

theorem superAdmin_passes_mutiny :
    ∃ user, guards staffToken 30 "t1" [.financeAdmin]
        ((protocol sampleEnv staffToken).run ⟨staffDb, []⟩ mutiny).shared =
          .ok (user, ((protocol sampleEnv staffToken).run ⟨staffDb, []⟩ mutiny).shared) ∧
      user.userId = 1 := by
  have hstanding : Standing 1 staffDb :=
    ⟨{ sampleUser with role := .superAdmin }, List.mem_cons_self, rfl, rfl, rfl, by decide, by decide⟩
  exact superAdmin_passes (c := ⟨staffDb, []⟩) hstanding (fun t ht => by cases ht) mutiny rfl rfl
    [.financeAdmin]

end SuperAdmins

end Access
end Auth
end FootballIQ
