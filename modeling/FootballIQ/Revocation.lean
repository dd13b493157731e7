import FootballIQ.Accounts
import FootballIQ.Sequential

/-!
# Revoked families stay revoked

Whatever the calls write to the sessions is one of three things: sessions are revoked, a
session is consumed, or a session is added, in a new family or next to an unrevoked
session of its family. A family whose sessions are all revoked never gets another one.
-/

namespace FootballIQ
namespace Auth
namespace Revocation

open Transaction Relational

/-- The calls, each with the clock and the random values that it draws. -/
inductive Event where
  | register (d : Draw) (dto : RegisterRequest)
  | login (d : Draw) (dto : LoginRequest) (ip userAgent : Option String)
  | rotate (d : Draw) (rawRefreshToken : String)
  | logout (d : Draw) (rawRefreshToken : String)
  | verifyEmail (d : Draw) (userId : ℕ) (code : String)
  | forgotPassword (d : Draw) (email : String)
  | resetPassword (d : Draw) (dto : ResetPasswordRequest)
  | suspend (d : Draw) (adminId id : ℕ) (reason : String)
  | reactivate (adminId id : ℕ)
  deriving DecidableEq

section Sessions

/-- One write to the sessions. -/
inductive Writes : Table Session → Table Session → Prop
  | revoke (t : Table Session) (p : Session → Prop) [DecidablePred p] (now : DateTime)
    (hf : ∀ s, Row.id (revoked now s) = Row.id s) : Writes t (t.updateWhere p (revoked now) hf)
  | consume (t : Table Session) (id : ℕ) (now : DateTime)
    (hf : ∀ s, Row.id (consumed now s) = Row.id s) : Writes t (t.update id (consumed now) hf)
  | add (t : Table Session) (mk : ℕ → Session) (hmk : ∀ k, Row.id (mk k) = k)
    (hhash : ∀ s ∈ t.rows, s.refreshTokenHash ≠ (mk t.fresh).refreshTokenHash)
    (hfamily : (∀ s ∈ t.rows, s.familyId ≠ (mk t.fresh).familyId) ∨
      ∃ s ∈ t.rows, s.familyId = (mk t.fresh).familyId ∧ s.userId = (mk t.fresh).userId ∧
        s.revokedAt = none) : Writes t (t.insert mk hmk)

/-- What the calls do to the sessions. -/
def Evolves (db db' : AuthDb) : Prop := Relation.ReflTransGen Writes db.sessions db'.sessions

/-- The unique index on the token hash. -/
def UniqueHashes (t : Table Session) : Prop := (t.rows.map Session.refreshTokenHash).Nodup

/-- The sessions of a family are one user's. -/
def OneOwner (t : Table Session) : Prop :=
  ∀ s ∈ t.rows, ∀ s' ∈ t.rows, s.familyId = s'.familyId → s.userId = s'.userId

/-- The family exists, and all its sessions are revoked. -/
def IsDead (familyId : ℕ) (t : Table Session) : Prop :=
  (∃ s ∈ t.rows, s.familyId = familyId) ∧
    ∀ s ∈ t.rows, s.familyId = familyId → s.revokedAt ≠ none

structure WellFormed (db : AuthDb) : Prop where
  hashes : UniqueHashes db.sessions
  owner : OneOwner db.sessions

variable {t t' : Table Session} {familyId : ℕ}

/-- The columns of a session that no write changes. -/
def identity (s : Session) : ℕ × ℕ × String := (s.userId, s.familyId, s.refreshTokenHash)

theorem same_revoke (p : Session → Prop) [DecidablePred p] (now : DateTime)
    (hf : ∀ s, Row.id (revoked now s) = Row.id s) :
    Table.Same identity t (t.updateWhere p (revoked now) hf) :=
  Table.same_updateWhere hf (fun _ _ _ => rfl)

theorem same_consume (id : ℕ) (now : DateTime) (hf : ∀ s, Row.id (consumed now s) = Row.id s) :
    Table.Same identity t (t.update id (consumed now) hf) :=
  Table.same_update hf (fun _ _ _ => rfl)

theorem uniqueHashes_same (h : Table.Same identity t t') (hu : UniqueHashes t) :
    UniqueHashes t' := by
  have hmap : t'.rows.map Session.refreshTokenHash = t.rows.map Session.refreshTokenHash := by
    have hcol := congrArg (List.map (fun c : ℕ × ℕ × String => c.2.2)) h
    rwa [List.map_map, List.map_map] at hcol
  unfold UniqueHashes
  rwa [hmap]

theorem uniqueHashes_writes (h : Writes t t') (hu : UniqueHashes t) : UniqueHashes t' := by
  cases h with
  | revoke p now hf => exact uniqueHashes_same (same_revoke p now hf) hu
  | consume id now hf => exact uniqueHashes_same (same_consume id now hf) hu
  | add mk hmk hhash hfamily =>
    unfold UniqueHashes
    rw [Table.rows_insert, List.map_append, List.nodup_append]
    refine ⟨hu, List.nodup_singleton _, ?_⟩
    intro x hx y hy
    obtain ⟨s, hs, rfl⟩ := List.mem_map.1 hx
    rw [List.mem_singleton.1 hy]
    exact hhash s hs

theorem oneOwner_same (h : Table.Same identity t t') (ho : OneOwner t) : OneOwner t' := by
  intro s hs s' hs' heq
  obtain ⟨r, hr, hcols⟩ := h.mem hs
  obtain ⟨r', hr', hcols'⟩ := h.mem hs'
  simp only [identity, Prod.mk.injEq] at hcols hcols'
  rw [← hcols.1, ← hcols'.1]
  exact ho r hr r' hr' (by rw [hcols.2.1, hcols'.2.1, heq])

/-- A new session has the owner of the family that it joins. -/
theorem oneOwner_writes (h : Writes t t') (ho : OneOwner t) : OneOwner t' := by
  cases h with
  | revoke p now hf => exact oneOwner_same (same_revoke p now hf) ho
  | consume id now hf => exact oneOwner_same (same_consume id now hf) ho
  | add mk hmk hhash hfamily =>
    have hnew : ∀ s ∈ t.rows, s.familyId = (mk t.fresh).familyId →
        s.userId = (mk t.fresh).userId := by
      intro s hs heq
      rcases hfamily with hnone | ⟨parent, hparent, hfam, huser, _⟩
      · exact absurd heq (hnone s hs)
      · rw [ho s hs parent hparent (heq.trans hfam.symm), huser]
    intro s hs s' hs' heq
    rcases (Table.mem_insert t mk hmk s).1 hs with hs | rfl
    · rcases (Table.mem_insert t mk hmk s').1 hs' with hs' | rfl
      · exact ho s hs s' hs' heq
      · exact hnew s hs heq
    · rcases (Table.mem_insert t mk hmk s').1 hs' with hs' | rfl
      · exact (hnew s' hs' heq.symm).symm
      · rfl

/-- An update that keeps what is revoked keeps a dead family dead. -/
theorem isDead_updateWhere {p : Session → Prop} [DecidablePred p] {f : Session → Session}
    {hf : ∀ s, Row.id (f s) = Row.id s} (hfamily : ∀ s, (f s).familyId = s.familyId)
    (hrevoked : ∀ s, s.revokedAt ≠ none → (f s).revokedAt ≠ none) (hd : IsDead familyId t) :
    IsDead familyId (t.updateWhere p f hf) := by
  obtain ⟨⟨s, hs, hsf⟩, hall⟩ := hd
  refine ⟨⟨if p s then f s else s, (Table.mem_updateWhere _ _ f hf _).2 ⟨s, hs, rfl⟩, ?_⟩, ?_⟩
  · split_ifs
    · rw [hfamily, hsf]
    · exact hsf
  · intro s' hs' hsf'
    obtain ⟨r, hr, rfl⟩ := (Table.mem_updateWhere _ _ f hf s').1 hs'
    split_ifs at hsf' ⊢
    · exact hrevoked r (hall r hr ((hfamily r).symm.trans hsf'))
    · exact hall r hr hsf'

theorem isDead_writes (h : Writes t t') (hd : IsDead familyId t) : IsDead familyId t' := by
  cases h with
  | revoke p now hf =>
    exact isDead_updateWhere (fun _ => rfl) (fun _ _ => Option.some_ne_none now) hd
  | consume id now hf => exact isDead_updateWhere (fun _ => rfl) (fun _ hr => hr) hd
  | add mk hmk hhash hfamily =>
    obtain ⟨⟨s, hs, hsf⟩, hall⟩ := hd
    refine ⟨⟨s, (Table.mem_insert t mk hmk s).2 (Or.inl hs), hsf⟩, ?_⟩
    intro s' hs' hsf'
    rcases (Table.mem_insert t mk hmk s').1 hs' with hs' | rfl
    · exact hall s' hs' hsf'
    · -- the new session would have to be alone in its family, or beside an unrevoked one
      rcases hfamily with hnone | ⟨parent, hparent, hfam, _, hlive⟩
      · exact absurd (hsf.trans hsf'.symm) (hnone s hs)
      · exact absurd hlive (hall parent hparent (hfam.trans hsf'))

theorem Evolves.keeps {I : Table Session → Prop} (hI : ∀ t t', Writes t t' → I t → I t')
    {db db' : AuthDb} (h : Evolves db db') (hs : I db.sessions) : I db'.sessions := by
  have key : ∀ t, Relation.ReflTransGen Writes db.sessions t → I t := by
    intro t ht
    induction ht with
    | refl => exact hs
    | tail _ hw ih => exact hI _ _ hw ih
  exact key db'.sessions h

theorem Evolves.wellFormed {db db' : AuthDb} (h : Evolves db db') (hw : WellFormed db) :
    WellFormed db' :=
  ⟨h.keeps (fun _ _ => uniqueHashes_writes) hw.hashes,
    h.keeps (fun _ _ => oneOwner_writes) hw.owner⟩

theorem Evolves.isDead {db db' : AuthDb} (h : Evolves db db')
    (hd : IsDead familyId db.sessions) : IsDead familyId db'.sessions :=
  h.keeps (fun _ _ => isDead_writes) hd

end Sessions

section Calls
variable {env : Env} {db db' : AuthDb}

theorem evolves_refl (db : AuthDb) : Evolves db db := Relation.ReflTransGen.refl

theorem evolves_trans (db db' db'' : AuthDb) (h : Evolves db db') (h' : Evolves db' db'') :
    Evolves db db'' := Relation.ReflTransGen.trans h h'

theorem evolves_of_eq (h : db'.sessions = db.sessions) : Evolves db db' := by
  unfold Evolves
  rw [h]

theorem evolves_revoke (p : Session → Prop) [DecidablePred p] (now : DateTime) :
    Evolves db { db with sessions := db.sessions.updateWhere p (revoked now) (id_revoked now) } :=
  Relation.ReflTransGen.single (Writes.revoke db.sessions p now (id_revoked now))

/-- An issued session joins the table: its hash is new by the unique index. -/
theorem evolves_issue {d : Draw} {userId : ℕ} {role : UserRole} {details : IssueMeta}
    {tokens : IssuedTokens} (h : issue env d userId role details db = .ok (tokens, db'))
    (hfamily : ∀ familyId, details.familyId = some familyId →
      ∃ s ∈ db.sessions.rows, s.familyId = familyId ∧ s.userId = userId ∧ s.revokedAt = none) :
    Evolves db db' := by
  obtain ⟨hnot, rfl, _⟩ := issue_ok_iff.1 h
  apply Relation.ReflTransGen.single
  refine Writes.add db.sessions _ (id_newSession env d userId details _) ?_ ?_
  · intro s hs hhash
    exact hnot ⟨s, hs, hhash⟩
  · cases hd : details.familyId with
    | none =>
      refine Or.inl (fun s hs => ?_)
      exact (AuthDb.lt_freshFamily hs).ne
    | some familyId => exact Or.inr (hfamily familyId hd)

theorem within_issue_new {d : Draw} {userId : ℕ} {role : UserRole} {details : IssueMeta}
    (hnone : details.familyId = none) : Within Evolves (issue env d userId role details) := by
  intro db tokens db' h
  apply evolves_issue h
  intro familyId hsome
  rw [hnone] at hsome
  cases hsome

/-- A statement that leaves the sessions alone. -/
theorem within_of_eq {α : Type} {x : Tx Failure AuthDb α}
    (h : ∀ db a db', x db = .ok (a, db') → db'.sessions = db.sessions) : Within Evolves x :=
  fun db a db' hx => evolves_of_eq (h db a db' hx)

theorem within_issueCode (d : Draw) (userId : ℕ) (purpose : OtpPurpose) :
    Within Evolves (issueCode env d userId purpose) := by
  apply within_of_eq
  intro db code db' h
  obtain ⟨_, rfl⟩ := issueCode_ok_iff.1 h
  rfl

theorem within_amendCode (id : ℕ) (f : OtpCode → OtpCode) (hf : ∀ c, Row.id (f c) = Row.id c) :
    Within Evolves (amendCode id f hf) := by
  apply within_of_eq
  intro db u db' h
  obtain ⟨_, hr⟩ := (amendCode_ok_iff (u, db')).1 h
  rw [show db' = _ from hr.symm]

theorem within_amendUser (id : ℕ) (f : User → User) (hf : ∀ u, Row.id (f u) = Row.id u) :
    Within Evolves (amendUser id f hf) :=
  within_of_eq (fun _ _ _ h => amendUser_ok h)

theorem within_check {α : Type} (x : Except Failure α) :
    Within Evolves (check x : Tx Failure AuthDb α) := by
  apply within_of_eq
  intro db a db' h
  obtain ⟨_, rfl⟩ := (check_ok_iff x db db' a).1 h
  rfl

theorem within_consume (d : Draw) (userId : ℕ) (purpose : OtpPurpose) (value : String) :
    Saga.Within Evolves (consume env d userId purpose value) := by
  refine Saga.Within.bind evolves_trans (Saga.Within.atomically evolves_refl ?_) ?_
  · intro db r db' h
    exact evolves_of_eq (congrArg AuthDb.sessions (consumeRead_ok h).1)
  · intro r
    by_cases hright : r.2 = true
    · rw [if_pos hright]
      exact Saga.Within.atomically evolves_refl (within_amendCode _ _ _)
    · rw [if_neg hright]
      exact Saga.Within.bind evolves_trans
        (Saga.Within.atomically evolves_refl (within_amendCode _ _ _))
        (fun _ => Saga.Within.atomically evolves_refl (within_check _))

theorem within_revokeFamily (now : DateTime) (familyId : ℕ) :
    Within Evolves (revokeFamily now familyId) := by
  intro db u db' h
  rw [show db' = _ from ((revokeFamily_ok_iff (u, db')).1 h).symm]
  exact evolves_revoke _ now

/-- What a transaction does that changes a user and then revokes the user's sessions. -/
theorem amend_revoke_ok {id userId : ℕ} {f : User → User} {hf : ∀ u, Row.id (f u) = Row.id u}
    {now : DateTime} {u : PUnit}
    (h : (amendUser id f hf >>= fun _ => revokeUser now userId) db = .ok (u, db')) :
    db'.sessions = db.sessions.updateWhere (fun s => s.userId = userId ∧ s.revokedAt = none)
      (revoked now) (id_revoked now) := by
  obtain ⟨_, db₁, ha, hr⟩ := (bind_ok_iff _ _ _ _).1 h
  rw [← amendUser_ok ha, show db' = _ from ((revokeUser_ok_iff (u, db')).1 hr).symm]

theorem within_amend_revoke {id userId : ℕ} {f : User → User} {hf : ∀ u, Row.id (f u) = Row.id u}
    {now : DateTime} :
    Within Evolves (amendUser id f hf >>= fun _ => revokeUser now userId) := by
  intro db u db' h
  unfold Evolves
  rw [amend_revoke_ok h]
  exact evolves_revoke _ now

/-- An exchange consumes an unrevoked session and adds its successor beside it. -/
theorem evolves_exchange {d : Draw} {session : Session} {role : UserRole}
    (hmem : session ∈ db.sessions.rows) (hlive : session.revokedAt = none) :
    Evolves db (Saga.exec (Saga.atomically (consumeSession d.now session.id) >>=
      fun _ => Saga.atomically (issueSuccessor env d session role)) db) := by
  rcases Saga.exec_bind_cases (consumeSession d.now session.id)
    (fun _ => Saga.atomically (issueSuccessor env d session role)) db with
    ⟨u, db₁, hconsume, hrest⟩ | ⟨_, hrest⟩
  · rw [hrest, Saga.exec_atomically]
    have hbeside : consumed d.now session ∈ db₁.sessions.rows := mem_consumeSession hmem hconsume
    have hfirst : Evolves db db₁ := by
      rw [show db₁ = _ from ((consumeSession_ok_iff (u, db₁)).1 hconsume).2.symm]
      exact Relation.ReflTransGen.single (Writes.consume _ _ _ (id_consumed d.now))
    rcases commit_cases (issueSuccessor env d session role) db₁ with
      ⟨tokens, db₂, hissue, hc⟩ | ⟨_, _, hc⟩
    · rw [hc]
      apply evolves_trans _ _ _ hfirst
      apply evolves_issue hissue
      intro familyId hfamily
      exact ⟨_, hbeside, Option.some.inj hfamily, rfl, hlive⟩
    · rw [hc]
      exact hfirst
  · rw [hrest]
    exact evolves_refl db

theorem within_rotate (d : Draw) (raw : String) : Saga.Within Evolves (rotate env d raw) := by
  intro db
  unfold rotate
  rcases Saga.exec_bind_cases (rotateRead env d.now raw) _ db with
    ⟨p, db₁, hread, hexec⟩ | ⟨_, hexec⟩
  · rw [hexec]
    obtain ⟨rfl, s, hs, hp⟩ := rotateRead_ok hread
    cases p with
    | reuse familyId =>
      exact Saga.Within.bind evolves_trans
        (Saga.Within.atomically evolves_refl (within_revokeFamily d.now familyId))
        (fun _ => Saga.Within.atomically evolves_refl (within_check _)) db₁
    | exchange session role =>
      obtain ⟨rfl, hlive, _, _⟩ := hp
      exact evolves_exchange (sessionOf_some hs).1 hlive
  · rw [hexec]
    exact evolves_refl db

theorem within_logout (now : DateTime) (raw : String) :
    Saga.Within Evolves (revokeByToken env now raw) := by
  refine Saga.Within.bind evolves_trans (Saga.Within.atomically evolves_refl ?_) ?_
  · apply within_of_eq
    intro db o db' h
    simp only [bind_ok_iff, get_ok_iff, pure_ok_iff] at h
    obtain ⟨_, _, ⟨rfl, rfl⟩, _, rfl⟩ := h
    rfl
  · intro o
    cases o with
    | none => exact Saga.Within.pure evolves_refl _
    | some familyId =>
      exact Saga.Within.atomically evolves_refl (within_revokeFamily now familyId)

theorem within_register (d : Draw) (dto : RegisterRequest) :
    Saga.Within Evolves (register env d dto) := by
  refine Saga.Within.bind evolves_trans (Saga.Within.atomically evolves_refl ?_) ?_
  · apply within_of_eq
    intro db id db' h
    exact createUser_ok ((rescue_ok_iff _ _ _ _).1 h)
  · intro userId
    exact Saga.Within.bind evolves_trans
      (Saga.Within.atomically evolves_refl (within_issueCode d userId _))
      (fun _ => Saga.Within.atomically evolves_refl (within_issue_new rfl))

theorem within_login (d : Draw) (dto : LoginRequest) (ip userAgent : Option String) :
    Saga.Within Evolves (login env d dto ip userAgent) := by
  refine Saga.Within.bind evolves_trans (Saga.Within.atomically evolves_refl ?_) ?_
  · intro db user db' h
    exact evolves_of_eq (congrArg AuthDb.sessions (loginRead_ok h))
  · intro user
    exact Saga.Within.bind evolves_trans
      (Saga.Within.atomically evolves_refl (within_amendUser _ _ _))
      (fun _ => Saga.Within.atomically evolves_refl (within_issue_new rfl))

theorem within_verifyEmail (d : Draw) (userId : ℕ) (code : String) :
    Saga.Within Evolves (verifyEmail env d userId code) :=
  Saga.Within.bind evolves_trans (within_consume d userId _ code)
    (fun _ => Saga.Within.atomically evolves_refl (within_amendUser _ _ _))

theorem within_forgotPassword (d : Draw) (email : String) :
    Saga.Within Evolves (forgotPassword env d email) := by
  refine Saga.Within.bind evolves_trans (Saga.Within.atomically evolves_refl ?_) ?_
  · apply within_of_eq
    intro db o db' h
    simp only [bind_ok_iff, get_ok_iff, pure_ok_iff] at h
    obtain ⟨_, _, ⟨rfl, rfl⟩, _, rfl⟩ := h
    rfl
  · intro o
    cases o with
    | none => exact Saga.Within.pure evolves_refl _
    | some user =>
      exact Saga.Within.bind evolves_trans
        (Saga.Within.atomically evolves_refl (within_issueCode d user.id _))
        (fun _ => Saga.Within.pure evolves_refl _)

theorem within_resetPassword (d : Draw) (dto : ResetPasswordRequest) :
    Saga.Within Evolves (resetPassword env d dto) :=
  Saga.Within.bind evolves_trans (within_consume d dto.userId _ dto.token)
    (fun _ => Saga.Within.atomically evolves_refl within_amend_revoke)

theorem within_audit (input : Audit.RecordInput Details) : Within Evolves (audit env input) := by
  apply within_of_eq
  intro db u db' h
  rw [show db' = _ from ((audit_ok_iff (u, db')).1 h).symm]

theorem within_suspend (d : Draw) (adminId id : ℕ) (reason : String) :
    Saga.Within Evolves (suspend env d adminId id reason) := by
  refine Saga.Within.bind evolves_trans (Saga.Within.atomically evolves_refl ?_) ?_
  · intro db user db' h
    exact evolves_of_eq (congrArg AuthDb.sessions (suspendRead_ok h))
  · intro user
    exact Saga.Within.bind evolves_trans
      (Saga.Within.atomically evolves_refl within_amend_revoke)
      (fun _ => Saga.Within.atomically evolves_refl (within_audit _))

theorem within_reactivate (adminId id : ℕ) : Saga.Within Evolves (reactivate env adminId id) := by
  refine Saga.Within.bind evolves_trans (Saga.Within.atomically evolves_refl ?_) ?_
  · intro db user db' h
    exact evolves_of_eq (congrArg AuthDb.sessions (reactivateRead_ok h))
  · intro user
    exact Saga.Within.bind evolves_trans
      (Saga.Within.atomically evolves_refl (within_amendUser _ _ _))
      (fun _ => Saga.Within.atomically evolves_refl (within_audit _))

end Calls

section Runs
variable (env : Env)

/-- One call, run to completion. -/
def perform : Event → AuthDb → AuthDb
  | .register d dto => Saga.exec (register env d dto)
  | .login d dto ip userAgent => Saga.exec (login env d dto ip userAgent)
  | .rotate d raw => Saga.exec (rotate env d raw)
  | .logout d raw => Saga.exec (revokeByToken env d.now raw)
  | .verifyEmail d userId code => Saga.exec (verifyEmail env d userId code)
  | .forgotPassword d email => Saga.exec (forgotPassword env d email)
  | .resetPassword d dto => Saga.exec (resetPassword env d dto)
  | .suspend d adminId id reason => Saga.exec (suspend env d adminId id reason)
  | .reactivate adminId id => Saga.exec (reactivate env adminId id)

theorem evolves_perform (e : Event) (db : AuthDb) : Evolves db (perform env e db) := by
  cases e with
  | register d dto => exact within_register d dto db
  | login d dto ip userAgent => exact within_login d dto ip userAgent db
  | rotate d raw => exact within_rotate d raw db
  | logout d raw => exact within_logout d.now raw db
  | verifyEmail d userId code => exact within_verifyEmail d userId code db
  | forgotPassword d email => exact within_forgotPassword d email db
  | resetPassword d dto => exact within_resetPassword d dto db
  | suspend d adminId id reason => exact within_suspend d adminId id reason db
  | reactivate adminId id => exact within_reactivate adminId id db

theorem evolves_run (es : List Event) (db : AuthDb) :
    Evolves db (Sequential.run (perform env) db es) := by
  induction es generalizing db with
  | nil => exact evolves_refl db
  | cons e es ih => exact evolves_trans _ _ _ (evolves_perform env e db) (ih _)

/-- A session of the user in the family. -/
def OwnsFamily (t : Table Session) (userId familyId : ℕ) : Prop :=
  ∃ s ∈ t.rows, s.userId = userId ∧ s.familyId = familyId

/-- The call detects the reuse of a token of the family, logs it out, resets the password
of its user or suspends the user. -/
def Revokes (e : Event) (db : AuthDb) (familyId : ℕ) : Prop :=
  match e with
  | .rotate d raw => rotateRead env d.now raw db = .ok (.reuse familyId, db)
  | .logout _ raw => familyOf env db raw = some familyId
  | .resetPassword d dto => OwnsFamily db.sessions dto.userId familyId ∧
      (resetPassword env d dto db).1 = .ok ⟨⟩
  | .suspend d adminId id reason => OwnsFamily db.sessions id familyId ∧
      (suspend env d adminId id reason db).1 = .ok ⟨⟩
  | _ => False

variable {env} {db : AuthDb} {familyId : ℕ}

theorem ownsFamily_writes {userId : ℕ} {t t' : Table Session} (h : Writes t t')
    (ho : OwnsFamily t userId familyId) : OwnsFamily t' userId familyId := by
  obtain ⟨s, hs, huser, hfamily⟩ := ho
  have hsame : Table.Same identity t t' → OwnsFamily t' userId familyId := by
    intro hcols
    obtain ⟨s', hs', heq⟩ := hcols.mem_of hs
    simp only [identity, Prod.mk.injEq] at heq
    exact ⟨s', hs', heq.1.trans huser, heq.2.1.trans hfamily⟩
  cases h with
  | revoke p now hf => exact hsame (same_revoke p now hf)
  | consume id now hf => exact hsame (same_consume id now hf)
  | add mk hmk hhash hjoin => exact ⟨s, (Table.mem_insert t mk hmk s).2 (Or.inl hs), huser, hfamily⟩

/-- A family is dead once all its sessions that were not revoked have been. -/
theorem isDead_of_revoke {t : Table Session} {p : Session → Prop} [DecidablePred p]
    {now : DateTime} (hex : ∃ s ∈ t.rows, s.familyId = familyId)
    (hall : ∀ s ∈ t.rows, s.familyId = familyId → p s) :
    IsDead familyId (t.updateWhere (fun s => p s ∧ s.revokedAt = none) (revoked now)
      (id_revoked now)) := by
  constructor
  · obtain ⟨s, hs, hfamily⟩ := hex
    obtain ⟨s', hs', heq⟩ := (same_revoke (t := t) (fun s => p s ∧ s.revokedAt = none) now
      (id_revoked now)).mem_of hs
    simp only [identity, Prod.mk.injEq] at heq
    exact ⟨s', hs', heq.2.1.trans hfamily⟩
  · intro s' hs' hfamily
    obtain ⟨s, hs, rfl⟩ := (Table.mem_updateWhere _ _ (revoked now) (id_revoked now) s').1 hs'
    split_ifs at hfamily ⊢ with hp
    · exact Option.some_ne_none now
    · intro hnone
      exact hp ⟨hall s hs hfamily, hnone⟩

theorem familyOf_some {raw : String} (h : familyOf env db raw = some familyId) :
    ∃ s ∈ db.sessions.rows, s.familyId = familyId := by
  obtain ⟨s, hs, hfamily⟩ := Option.map_eq_some_iff.1 h
  exact ⟨s, (sessionOf_some hs).1, hfamily⟩

theorem isDead_revokeFamily {now : DateTime} (h : ∃ s ∈ db.sessions.rows, s.familyId = familyId) :
    IsDead familyId (commit (revokeFamily now familyId) db).sessions := by
  rw [commit_of_ok (revokeFamily_ok _ familyId db)]
  exact isDead_of_revoke h (fun _ _ hfamily => hfamily)

/-- Revoking all sessions of the owner kills each of the owner's families. -/
theorem isDead_of_owner {userId : ℕ} {now : DateTime} {db' : AuthDb}
    (hw : WellFormed db) (ho : OwnsFamily db.sessions userId familyId)
    (hdb : db'.sessions = db.sessions.updateWhere (fun s => s.userId = userId ∧ s.revokedAt = none)
      (revoked now) (id_revoked now)) : IsDead familyId db'.sessions := by
  obtain ⟨s, hs, huser, hfamily⟩ := ho
  rw [hdb]
  apply isDead_of_revoke ⟨s, hs, hfamily⟩
  intro s' hs' hfamily'
  rw [hw.owner s' hs' s hs (hfamily'.trans hfamily.symm), huser]

theorem isDead_rotate {d : Draw} {raw : String}
    (h : rotateRead env d.now raw db = .ok (.reuse familyId, db)) :
    IsDead familyId (perform env (.rotate d raw) db).sessions := by
  have hexec : perform env (.rotate d raw) db = commit (revokeFamily d.now familyId) db := by
    have hrevoke := revokeFamily_ok d.now familyId db
    change Saga.exec (rotate env d raw) db = _
    unfold rotate
    rw [Saga.exec_bind_of_ok (Saga.atomically_of_ok h), commit_of_ok hrevoke]
    exact (Saga.exec_bind_of_ok (Saga.atomically_of_ok hrevoke)).trans
      (congrArg Prod.snd (Saga.atomically_check_error _ _))
  obtain ⟨_, s, hs, hfamily, _⟩ := rotateRead_ok h
  rw [hexec]
  exact isDead_revokeFamily ⟨s, (sessionOf_some hs).1, hfamily.symm⟩

theorem isDead_logout {d : Draw} {raw : String} (h : familyOf env db raw = some familyId) :
    IsDead familyId (perform env (.logout d raw) db).sessions := by
  have hread : (do return familyOf env (← get) raw : Tx Failure AuthDb (Option ℕ)) db =
      .ok (some familyId, db) := by
    rw [← h]
    rfl
  have hexec : perform env (.logout d raw) db = commit (revokeFamily d.now familyId) db := by
    change Saga.exec (revokeByToken env d.now raw) db = _
    unfold revokeByToken
    rw [Saga.exec_bind_of_ok (Saga.atomically_of_ok hread)]
    exact Saga.exec_atomically _ _
  rw [hexec]
  exact isDead_revokeFamily (familyOf_some h)

theorem isDead_resetPassword (hw : WellFormed db) {d : Draw} {dto : ResetPasswordRequest}
    (ho : OwnsFamily db.sessions dto.userId familyId)
    (hok : (resetPassword env d dto db).1 = .ok ⟨⟩) :
    IsDead familyId (perform env (.resetPassword d dto) db).sessions := by
  obtain ⟨_, db₁, hconsume, hrest, hexec⟩ := Saga.bind_returns hok
  have hfirst : Evolves db db₁ := by
    have hstep : Evolves db
        (Saga.exec (consume env d dto.userId .passwordReset dto.token) db) :=
      within_consume d dto.userId .passwordReset dto.token db
    rwa [show Saga.exec _ db = db₁ from congrArg Prod.snd hconsume] at hstep
  cases htx : Saga.atomically (resetPasswordTx env d dto) db₁ with
  | mk r db₂ =>
    rw [htx] at hrest
    obtain rfl : r = .ok ⟨⟩ := hrest
    have hrun := Saga.atomically_returns htx
    have hdb₂ : perform env (.resetPassword d dto) db = db₂ :=
      hexec.trans (congrArg Prod.snd htx)
    rw [hdb₂]
    exact isDead_of_owner (hfirst.wellFormed hw)
      (hfirst.keeps (fun _ _ => ownsFamily_writes) ho) (amend_revoke_ok hrun)

theorem isDead_suspend (hw : WellFormed db) {d : Draw} {adminId id : ℕ} {reason : String}
    (ho : OwnsFamily db.sessions id familyId)
    (hok : (suspend env d adminId id reason db).1 = .ok ⟨⟩) :
    IsDead familyId (perform env (.suspend d adminId id reason) db).sessions := by
  obtain ⟨user, db₁, hread, hrest, hexec⟩ := Saga.bind_returns hok
  obtain rfl : db₁ = db := suspendRead_ok (Saga.atomically_returns hread)
  obtain ⟨_, db₂, htx, _, hexec'⟩ := Saga.bind_returns hrest
  have hdead := isDead_of_owner hw ho (amend_revoke_ok (Saga.atomically_returns htx))
  have hlast : perform env (.suspend d adminId id reason) db₁ = _ := hexec.trans hexec'
  rw [hlast]
  exact Evolves.isDead (Saga.Within.atomically evolves_refl (within_audit _) db₂) hdead

theorem isDead_of_revokes (hw : WellFormed db) {e : Event} (h : Revokes env e db familyId) :
    IsDead familyId (perform env e db).sessions := by
  cases e with
  | rotate d raw => exact isDead_rotate h
  | logout d raw => exact isDead_logout h
  | resetPassword d dto => exact isDead_resetPassword hw h.1 h.2
  | suspend d adminId id reason => exact isDead_suspend hw h.1 h.2
  | register _ _ | login _ _ _ _ | verifyEmail _ _ _ | forgotPassword _ _ | reactivate _ _ =>
    exact h.elim

/-- No token of a dead family is exchanged. -/
theorem rotate_fails (hw : WellFormed db) (hd : IsDead familyId db.sessions) (d : Draw)
    {raw : String} {s : Session} (hs : s ∈ db.sessions.rows) (hfamily : s.familyId = familyId)
    (hhash : s.refreshTokenHash = env.sha256 raw) :
    ∃ e, (rotate env d raw db).1 = .error e := by
  unfold rotate
  cases hread : rotateRead env d.now raw db with
  | error e =>
    exact ⟨e, congrArg Prod.fst (Saga.bind_of_error (Saga.atomically_of_error hread))⟩
  | ok r =>
    obtain ⟨p, db'⟩ := r
    obtain ⟨rfl, found, hfound, hp⟩ := rotateRead_ok hread
    rw [Saga.bind_of_ok (Saga.atomically_of_ok hread)]
    cases p with
    | reuse familyId' =>
      have hrevoke := revokeFamily_ok d.now familyId' db'
      refine ⟨.unauthorized "REFRESH_TOKEN_REUSE", ?_⟩
      change ((Saga.atomically (revokeFamily d.now familyId') >>= _) db').1 = _
      rw [Saga.bind_of_ok (Saga.atomically_of_ok hrevoke), Saga.atomically_check_error]
    | exchange session role =>
      obtain ⟨rfl, hlive, _⟩ := hp
      obtain ⟨hmem, hsame⟩ := sessionOf_some hfound
      have heq : session = s :=
        List.inj_on_of_nodup_map hw.hashes hmem hs (hsame.trans hhash.symm)
      exact absurd hlive (hd.2 session hmem (heq ▸ hfamily))

/-- Once a family is revoked by a call, none of its sessions is ever unrevoked again, and
no token of the family is exchanged, however the run goes on. -/
theorem revocation_permanent (env : Env) (db : AuthDb) (hw : WellFormed db) (es : List Event)
    (e : Event) (familyId : ℕ) (h : Revokes env e (Sequential.run (perform env) db es) familyId)
    (fs : List Event) :
    (∀ s ∈ (Sequential.run (perform env) db (es ++ e :: fs)).sessions.rows,
      s.familyId = familyId → s.revokedAt ≠ none ∧
        ∀ d raw, s.refreshTokenHash = env.sha256 raw →
          ∃ failure, (rotate env d raw (Sequential.run (perform env) db (es ++ e :: fs))).1 =
            .error failure) := by
  have hrun : Sequential.run (perform env) db (es ++ e :: fs) =
      Sequential.run (perform env) (perform env e (Sequential.run (perform env) db es)) fs := by
    unfold Sequential.run
    rw [List.foldl_append, List.foldl_cons]
  have hbefore := (evolves_run env es db).wellFormed hw
  have hafter := evolves_run env fs (perform env e (Sequential.run (perform env) db es))
  have hdead := hafter.isDead (isDead_of_revokes hbefore h)
  have hwell := hafter.wellFormed ((evolves_perform env e _).wellFormed hbefore)
  rw [hrun]
  intro s hs hfamily
  exact ⟨hdead.2 s hs hfamily, fun d raw hhash => rotate_fails hwell hdead d hs hfamily hhash⟩

end Runs

section Stolen

/-- The user has rotated the token "r0" once. -/
def rotatedOnce : List Event := [.rotate (draw 20 "r1") "r0"]

/-- The consumed token is presented again, and then the token of its successor. -/
theorem revocation_permanent_stolen :
    Revokes sampleEnv (.rotate (draw 30 "") "r0")
        (Sequential.run (perform sampleEnv) sampleDb rotatedOnce) 1 ∧
      ∀ s ∈ (Sequential.run (perform sampleEnv) sampleDb (rotatedOnce ++
          .rotate (draw 30 "") "r0" :: [.rotate (draw 40 "r2") "r1"])).sessions.rows,
        s.familyId = 1 → s.revokedAt ≠ none ∧ ∀ d raw, s.refreshTokenHash = sampleEnv.sha256 raw →
          ∃ failure, (rotate sampleEnv d raw (Sequential.run (perform sampleEnv) sampleDb
            (rotatedOnce ++ .rotate (draw 30 "") "r0" :: [.rotate (draw 40 "r2") "r1"]))).1 =
              .error failure :=
  have hreuse : Revokes sampleEnv (.rotate (draw 30 "") "r0")
      (Sequential.run (perform sampleEnv) sampleDb rotatedOnce) 1 := rfl
  ⟨hreuse, revocation_permanent sampleEnv sampleDb
    ⟨by unfold UniqueHashes; decide, by unfold OneOwner; decide⟩ rotatedOnce
    (.rotate (draw 30 "") "r0") 1 hreuse [.rotate (draw 40 "r2") "r1"]⟩

end Stolen

end Revocation
end Auth
end FootballIQ
