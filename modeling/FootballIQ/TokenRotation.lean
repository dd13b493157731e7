import FootballIQ.Tokens

/-!
# Concurrent rotations

Between the read of a session and its consumption other calls can run, and the update
does not ask whether the session is still unconsumed. Where every update does find its
session unconsumed, a family has at most one session that is unconsumed or about to be
issued, and no token is exchanged twice.
-/

namespace FootballIQ
namespace Auth
namespace TokenRotation

open Transaction Relational Interleaving

/-- The calls of the token service; `issue` opens a new family. -/
inductive Call where
  | issue (userId : ℕ) (role : UserRole) (details : IssueMeta)
  | rotate (rawRefreshToken : String)
  | revokeByToken (rawRefreshToken : String)
  deriving DecidableEq

/-- A call about to begin, or with its next statement prepared. -/
inductive Task where
  | ready (call : Call)
  | revoke (familyId : ℕ)
  | consume (session : Session) (role : UserRole)
  | issue (session : Session) (role : UserRole)
  deriving DecidableEq

/-- The database, with the pairs of an exchanged session and its successor so far. -/
structure Traced where
  db : AuthDb
  successors : List (ℕ × ℕ)

section Steps
variable (env : Env)

def readStep (d : Draw) (rawRefreshToken : String) (db : AuthDb) : Option Task :=
  match rotateRead env d.now rawRefreshToken db with
  | .ok (.reuse familyId, _) => some (.revoke familyId)
  | .ok (.exchange session role, _) => some (.consume session role)
  | .error _ => none

def step (d : Draw) (t : Task) (s : Traced) : Traced × Option Task :=
  match t with
  | .ready (.issue userId role details) =>
    ({ s with db := commit (issue env d userId role { details with familyId := none }) s.db }, none)
  | .ready (.rotate rawRefreshToken) => (s, readStep env d rawRefreshToken s.db)
  | .ready (.revokeByToken rawRefreshToken) =>
    (s, (familyOf env s.db rawRefreshToken).map .revoke)
  | .revoke familyId => ({ s with db := commit (revokeFamily d.now familyId) s.db }, none)
  | .consume session role =>
    match consumeSession d.now session.id s.db with
    | .ok (_, db') => ({ s with db := db' }, some (.issue session role))
    | .error _ => (s, none)
  | .issue session role =>
    match issueSuccessor env d session role s.db with
    | .ok (_, db') => (⟨db', s.successors ++ [(session.id, s.db.sessions.fresh)]⟩, none)
    | .error _ => (s, none)

def protocol : Protocol Traced Call Task Draw := ⟨.ready, step env⟩

end Steps

/-- Neither consumed nor revoked nor expired. -/
def IsLive (now : DateTime) (s : Session) : Prop :=
  s.consumedAt = none ∧ s.revokedAt = none ∧ now ≤ s.expiresAt

instance (now : DateTime) : DecidablePred (IsLive now) := fun s =>
  inferInstanceAs (Decidable (s.consumedAt = none ∧ s.revokedAt = none ∧ now ≤ s.expiresAt))

/-- No session has two successors, and no family two live sessions at any time. -/
structure ExchangedOnce (s : Traced) : Prop where
  successors : (s.successors.map Prod.fst).Nodup
  families : ∀ now familyId,
    s.db.sessions.count (fun x => x.familyId = familyId ∧ IsLive now x) ≤ 1

def IsUnconsumed (familyId : ℕ) (s : Session) : Prop := s.familyId = familyId ∧ s.consumedAt = none

instance (familyId : ℕ) : DecidablePred (IsUnconsumed familyId) := fun s =>
  inferInstanceAs (Decidable (s.familyId = familyId ∧ s.consumedAt = none))

/-- The session that a call is about to consume has not been consumed since it was read. -/
def FindsUnconsumed (_ : Draw) (t : Task) (s : Traced) : Prop :=
  match t with
  | .consume session _ => ∀ x, s.db.sessions.find session.id = some x → x.consumedAt = none
  | _ => True

instance (d : Draw) (t : Task) (s : Traced) : Decidable (FindsUnconsumed d t s) :=
  match t with
  | .ready _ | .revoke _ | .issue _ _ => .isTrue trivial
  | .consume session _ => inferInstanceAs
      (Decidable (∀ x ∈ s.db.sessions.find session.id, x.consumedAt = none))

section InFlight

/-- The session whose successor the task is about to issue. -/
def Task.issuing : Task → Option Session
  | .issue session _ => some session
  | _ => none

def inFlight (ts : List Task) : List Session := ts.filterMap Task.issuing

theorem inFlight_split (l r : List Task) (t : Task) :
    inFlight (l ++ t :: r) = inFlight l ++ (t.issuing.toList ++ inFlight r) := by
  unfold inFlight
  rw [List.filterMap_append, List.filterMap_cons]
  cases t.issuing with
  | none => rfl
  | some session => rfl

theorem inFlight_next (l r : List Task) (o : Option Task) :
    inFlight (l ++ o.toList ++ r) =
      inFlight l ++ ((o.bind Task.issuing).toList ++ inFlight r) := by
  cases o with
  | none => simp [inFlight, List.filterMap_append]
  | some t =>
    rw [Option.toList_some, List.append_assoc, List.singleton_append, inFlight_split,
      Option.bind_some]

/-- The session of a prepared consumption is in the table, in the family it was read with. -/
def Knows (db : AuthDb) : Task → Prop
  | .consume session _ => ∃ x, db.sessions.find session.id = some x ∧ x.familyId = session.familyId
  | _ => True

/-- Each family has at most one session that is unconsumed or has its successor in flight,
and no session is exchanged twice. -/
structure Linear (s : Traced) (flight : List Session) : Prop where
  family : ∀ familyId, s.db.sessions.count (IsUnconsumed familyId) +
    flight.countP (fun x => x.familyId = familyId) ≤ 1
  once : (s.successors.map Prod.fst ++ flight.map Session.id).Nodup
  spent : ∀ k ∈ s.successors.map Prod.fst, ∃ x, s.db.sessions.find k = some x ∧
    x.consumedAt ≠ none
  known : ∀ y ∈ flight, ∃ x, s.db.sessions.find y.id = some x ∧ x.familyId = y.familyId ∧
    x.consumedAt ≠ none

theorem Linear.perm {s : Traced} {flight flight' : List Session} (h : Linear s flight)
    (hp : flight.Perm flight') : Linear s flight' where
  family familyId := by
    rw [← hp.countP_eq]
    exact h.family familyId
  once := ((hp.map Session.id).append_left _).nodup_iff.1 h.once
  spent := h.spent
  known y hy := h.known y (hp.mem_iff.2 hy)

/-- A call that fails to issue leaves its session consumed for good. -/
theorem Linear.tail {s : Traced} {y : Session} {flight : List Session}
    (h : Linear s (y :: flight)) : Linear s flight where
  family familyId := by
    have hle := h.family familyId
    rw [List.countP_cons] at hle
    omega
  once := by
    have hsub : (s.successors.map Prod.fst ++ flight.map Session.id).Sublist
        (s.successors.map Prod.fst ++ (y :: flight).map Session.id) :=
      List.Sublist.append_left (List.sublist_cons_self _ _) _
    exact h.once.sublist hsub
  spent := h.spent
  known x hx := h.known x (List.mem_cons_of_mem y hx)

theorem Linear.exchangedOnce {s : Traced} {flight : List Session} (h : Linear s flight) :
    ExchangedOnce s where
  successors := (List.nodup_append.1 h.once).1
  families now familyId := by
    have hle := Nat.le_of_add_right_le (h.family familyId)
    refine le_trans ?_ hle
    apply List.Sublist.length_le
    apply List.monotone_filter_right
    intro x hx
    rw [decide_eq_true_iff] at hx ⊢
    exact ⟨hx.1, hx.2.1⟩

end InFlight

section Preservation
variable {env : Env} {d : Draw} {s : Traced} {flight : List Session} {db db' : AuthDb}

/-- Sessions stay, in their family, and consumed ones stay consumed. -/
def Advances (db db' : AuthDb) : Prop :=
  ∀ k x, db.sessions.find k = some x → ∃ x', db'.sessions.find k = some x' ∧
    x'.familyId = x.familyId ∧ (x.consumedAt ≠ none → x'.consumedAt ≠ none)

theorem advances_refl (db : AuthDb) : Advances db db := fun _ x hx => ⟨x, hx, rfl, id⟩

theorem advances_updateWhere {p : Session → Prop} [DecidablePred p] {f : Session → Session}
    {hf : ∀ r, Row.id (f r) = Row.id r} (hfamily : ∀ r, (f r).familyId = r.familyId)
    (hconsumed : ∀ r, r.consumedAt ≠ none → (f r).consumedAt ≠ none) :
    Advances db { db with sessions := db.sessions.updateWhere p f hf } := by
  intro k x hx
  refine ⟨if p x then f x else x, ?_, ?_⟩
  · rw [Table.find_updateWhere, hx, Option.map_some]
  · split_ifs
    · exact ⟨hfamily x, hconsumed x⟩
    · exact ⟨rfl, id⟩

theorem advances_insert (mk : ℕ → Session) (hmk : ∀ k, Row.id (mk k) = k) :
    Advances db { db with sessions := db.sessions.insert mk hmk } :=
  fun _ x hx => ⟨x, Table.find_insert_of_some _ mk hmk hx, rfl, id⟩

/-- The facts about sessions survive any advance that leaves the successors alone. -/
theorem Linear.advance (h : Linear s flight) (ha : Advances s.db db')
    (hcount : ∀ familyId, db'.sessions.count (IsUnconsumed familyId) +
      flight.countP (fun x => x.familyId = familyId) ≤ 1) : Linear { s with db := db' } flight where
  family := hcount
  once := h.once
  spent k hk := by
    obtain ⟨x, hx, hc⟩ := h.spent k hk
    obtain ⟨x', hx', _, hc'⟩ := ha k x hx
    exact ⟨x', hx', hc' hc⟩
  known y hy := by
    obtain ⟨x, hx, hfamily, hc⟩ := h.known y hy
    obtain ⟨x', hx', hfamily', hc'⟩ := ha y.id x hx
    exact ⟨x', hx', hfamily'.trans hfamily, hc' hc⟩

theorem linear_revoke (h : Linear s flight) (familyId : ℕ) :
    Linear { s with db := commit (revokeFamily d.now familyId) s.db } flight := by
  have hdb : commit (revokeFamily d.now familyId) s.db = { s.db with
      sessions := s.db.sessions.updateWhere (fun x => x.familyId = familyId ∧ x.revokedAt = none)
        (revoked d.now) (id_revoked d.now) } :=
    commit_of_ok (revokeFamily_ok d.now familyId s.db)
  rw [hdb]
  refine h.advance (advances_updateWhere (fun _ => rfl) (fun _ hc => hc)) ?_
  intro g
  have hsame : Table.Same (fun x : Session => (x.familyId, x.consumedAt)) s.db.sessions
      (s.db.sessions.updateWhere (fun x => x.familyId = familyId ∧ x.revokedAt = none)
        (revoked d.now) (id_revoked d.now)) :=
    Table.same_updateWhere _ (fun _ _ _ => rfl)
  have hcols : ∀ x x' : Session, (x.familyId, x.consumedAt) = (x'.familyId, x'.consumedAt) →
      (IsUnconsumed g x ↔ IsUnconsumed g x') := by
    intro x x' hx
    obtain ⟨hfamily, hconsumed⟩ := Prod.mk.inj hx
    unfold IsUnconsumed
    rw [hfamily, hconsumed]
  rw [hsame.count (IsUnconsumed g) hcols]
  exact h.family g

/-- No session is in a family that is yet to come, and none of it is in flight. -/
theorem Linear.freshFamily (h : Linear s flight) :
    s.db.sessions.count (IsUnconsumed s.db.freshFamily) = 0 ∧
      flight.countP (fun x => x.familyId = s.db.freshFamily) = 0 := by
  constructor
  · rw [Table.count_eq_zero_iff]
    rintro x hmem ⟨hfamily, _⟩
    have hlt := AuthDb.lt_freshFamily hmem
    omega
  · rw [List.countP_eq_zero]
    intro y hy hfamily
    obtain ⟨x, hx, hxy, _⟩ := h.known y hy
    have hlt := AuthDb.lt_freshFamily ((Table.find_eq_some_iff _ _ x).1 hx).1
    have heq := of_decide_eq_true hfamily
    omega

/-- A new family starts with one unconsumed session and nothing in flight. -/
theorem linear_issue_new (h : Linear s flight) (userId : ℕ) (role : UserRole)
    (details : IssueMeta) :
    Linear ⟨commit (issue env d userId role { details with familyId := none }) s.db, s.successors⟩
      flight := by
  rcases commit_cases (issue env d userId role { details with familyId := none }) s.db with
    ⟨tokens, db', hok, hc⟩ | ⟨_, _, hc⟩
  · obtain ⟨_, rfl, _⟩ := issue_ok_iff.1 hok
    rw [hc]
    refine h.advance (advances_insert _ _) ?_
    intro g
    rw [Table.count_insert]
    split_ifs with hnew
    · obtain rfl : s.db.freshFamily = g := hnew.1
      obtain ⟨hzero, hnone⟩ := h.freshFamily
      omega
    · exact h.family g
  · rw [hc]
    exact h

/-- Consuming an unconsumed session takes it out of the count of its family. -/
theorem count_consume {t : Table Session} {id familyId : ℕ} {x : Session} (now : DateTime)
    (hx : t.find id = some x) (hfamily : x.familyId = familyId) (hnone : x.consumedAt = none)
    (g : ℕ) :
    (t.update id (consumed now) (id_consumed now)).count (IsUnconsumed g) +
      (if familyId = g then 1 else 0) = t.count (IsUnconsumed g) := by
  have hone := Table.count_update t (IsUnconsumed g) (consumed now) (id_consumed now) hx
  have hafter : ¬ IsUnconsumed g (consumed now x) := by
    rintro ⟨_, hc⟩
    cases hc
  have hbefore : IsUnconsumed g x ↔ familyId = g := by
    unfold IsUnconsumed
    rw [hfamily, and_iff_left hnone]
  simpa only [hafter, hbefore, if_false, add_zero] using hone

/-- A session that is unconsumed has no successor and is not in flight. -/
theorem Linear.not_spent (h : Linear s flight) {id : ℕ} {x : Session}
    (hx : s.db.sessions.find id = some x) (hnone : x.consumedAt = none) :
    id ∉ s.successors.map Prod.fst ++ flight.map Session.id := by
  have hfresh : ¬ ∃ y, s.db.sessions.find id = some y ∧ y.consumedAt ≠ none := by
    rintro ⟨y, hy, hc⟩
    rw [Option.some.inj (hy.symm.trans hx)] at hc
    exact hc hnone
  intro hmem
  rcases List.mem_append.1 hmem with hmem | hmem
  · exact hfresh (h.spent id hmem)
  · obtain ⟨y, hy, rfl⟩ := List.mem_map.1 hmem
    obtain ⟨z, hz, _, hc⟩ := h.known y hy
    exact hfresh ⟨z, hz, hc⟩

/-- A consumption that finds its session unconsumed moves it from the table into flight. -/
theorem linear_consume (h : Linear s flight) {session x : Session}
    (hx : s.db.sessions.find session.id = some x) (hfamily : x.familyId = session.familyId)
    (hnone : x.consumedAt = none) :
    Linear { s with db := { s.db with
      sessions := s.db.sessions.update session.id (consumed d.now) (id_consumed d.now) } }
      (session :: flight) := by
  have hself : (s.db.sessions.update session.id (consumed d.now)
      (id_consumed d.now)).find session.id = some (consumed d.now x) :=
    Table.find_update_self _ _ _ hx
  have hcount := count_consume d.now hx hfamily hnone
  have hadvance : Linear { s with db := { s.db with
      sessions := s.db.sessions.update session.id (consumed d.now) (id_consumed d.now) } }
      flight := by
    refine h.advance (advances_updateWhere (fun _ => rfl) (fun _ _ => Option.some_ne_none _)) ?_
    intro g
    have hle := h.family g
    have hg := hcount g
    exact le_trans (Nat.add_le_add_right (Nat.le_of_add_right_le hg.le) _) hle
  constructor
  · intro g
    have hle := h.family g
    have hg := hcount g
    rw [List.countP_cons]
    simp only [decide_eq_true_eq]
    omega
  · rw [List.map_cons, List.perm_middle.nodup_iff, List.nodup_cons]
    exact ⟨h.not_spent hx hnone, h.once⟩
  · exact hadvance.spent
  · intro y hy
    rcases List.mem_cons.1 hy with rfl | hy
    · exact ⟨consumed d.now x, hself, hfamily, Option.some_ne_none _⟩
    · exact hadvance.known y hy

/-- An issued successor takes the place of its session. -/
theorem linear_successor {session : Session} (h : Linear s (session :: flight)) {role : UserRole}
    {tokens : IssuedTokens} (hok : issueSuccessor env d session role s.db = .ok (tokens, db')) :
    Linear ⟨db', s.successors ++ [(session.id, s.db.sessions.fresh)]⟩ flight := by
  obtain ⟨_, rfl, _⟩ := issue_ok_iff.1 hok
  have hinsert : Advances s.db { s.db with sessions := s.db.sessions.insert _ _ } :=
    advances_insert (newSession env d session.userId { IssueMeta.none with
      deviceId := session.deviceId, familyId := some session.familyId } session.familyId)
      (id_newSession env d _ _ _)
  have hadvance := h.tail.advance hinsert (by
      intro g
      have hle := h.family g
      rw [Table.count_insert]
      rw [List.countP_cons] at hle
      simp only [decide_eq_true_eq] at hle
      have hiff : IsUnconsumed g (newSession env d session.userId { IssueMeta.none with
          deviceId := session.deviceId, familyId := some session.familyId } session.familyId
          s.db.sessions.fresh) ↔ session.familyId = g := and_iff_left rfl
      simp only [hiff]
      omega)
  constructor
  · exact hadvance.family
  · have honce := h.once
    rw [List.map_cons, List.perm_middle.nodup_iff] at honce
    rw [List.map_append, List.append_assoc]
    exact List.perm_middle.nodup_iff.2 honce
  · intro k hk
    rw [List.map_append, List.mem_append] at hk
    rcases hk with hk | hk
    · exact hadvance.spent k hk
    · obtain ⟨x, hx, _, hc⟩ := h.known session List.mem_cons_self
      rw [show k = session.id from List.mem_singleton.1 hk]
      exact ⟨x, Table.find_insert_of_some _ _ (id_newSession env d _ _ _) hx, hc⟩
  · exact hadvance.known

/-- What one guarded step does to the sessions and to what is in flight. -/
theorem linear_step {t : Task} (h : Linear s (t.issuing.toList ++ flight)) (hk : Knows s.db t)
    (hG : FindsUnconsumed d t s) :
    Linear (step env d t s).1 (((step env d t s).2.bind Task.issuing).toList ++ flight) := by
  cases t with
  | ready call =>
    cases call with
    | issue userId role details => exact linear_issue_new h userId role details
    | rotate raw =>
      have hread : (readStep env d raw s.db).bind Task.issuing = none := by
        unfold readStep
        split
        · rfl
        · rfl
        · rfl
      change Linear s (((readStep env d raw s.db).bind Task.issuing).toList ++ flight)
      rw [hread]
      exact h
    | revokeByToken raw =>
      have hread : ((familyOf env s.db raw).map Task.revoke).bind Task.issuing = none := by
        cases familyOf env s.db raw with
        | none => rfl
        | some familyId => rfl
      change Linear s
        ((((familyOf env s.db raw).map Task.revoke).bind Task.issuing).toList ++ flight)
      rw [hread]
      exact h
  | revoke familyId => exact linear_revoke h familyId
  | consume session role =>
    obtain ⟨x, hx, hfamily⟩ := hk
    have hok : consumeSession d.now session.id s.db = .ok (⟨⟩, _) :=
      (consumeSession_ok_iff (⟨⟩, _)).2 ⟨by rw [hx]; exact Option.some_ne_none x, rfl⟩
    simp only [step, hok]
    exact linear_consume h hx hfamily (hG x hx)
  | issue session role =>
    cases hok : issueSuccessor env d session role s.db with
    | ok r =>
      simp only [step, hok]
      exact linear_successor h hok
    | error e =>
      simp only [step, hok]
      exact h.tail

theorem advances_step (t : Task) : Advances s.db (step env d t s).1.db := by
  cases t with
  | ready call =>
    cases call with
    | issue userId role details =>
      rcases commit_cases (issue env d userId role { details with familyId := none }) s.db with
        ⟨tokens, db', hok, hc⟩ | ⟨_, _, hc⟩
      · obtain ⟨_, rfl, _⟩ := issue_ok_iff.1 hok
        simp only [step, hc]
        exact advances_insert _ _
      · simp only [step, hc]
        exact advances_refl s.db
    | rotate raw => exact advances_refl s.db
    | revokeByToken raw => exact advances_refl s.db
  | revoke familyId =>
    simp only [step, commit_of_ok (revokeFamily_ok d.now familyId s.db)]
    exact advances_updateWhere (fun _ => rfl) (fun _ hc => hc)
  | consume session role =>
    cases hok : consumeSession d.now session.id s.db with
    | ok r =>
      obtain ⟨_, hr⟩ := (consumeSession_ok_iff r).1 hok
      simp only [step, hok]
      rw [← hr]
      exact advances_updateWhere (fun _ => rfl) (fun _ _ => Option.some_ne_none _)
    | error e =>
      simp only [step, hok]
      exact advances_refl s.db
  | issue session role =>
    cases hok : issueSuccessor env d session role s.db with
    | ok r =>
      obtain ⟨_, hr, _⟩ := issue_ok_iff.1 (show issueSuccessor env d session role s.db =
        .ok (r.1, r.2) from hok)
      simp only [step, hok]
      rw [hr]
      exact advances_insert _ _
    | error e =>
      simp only [step, hok]
      exact advances_refl s.db

theorem knows_mono (h : Advances db db') {t : Task} (hk : Knows db t) : Knows db' t := by
  cases t with
  | consume session role =>
    obtain ⟨x, hx, hfamily⟩ := hk
    obtain ⟨x', hx', hfamily', _⟩ := h session.id x hx
    exact ⟨x', hx', hfamily'.trans hfamily⟩
  | _ => trivial

theorem knows_next {t t' : Task} (h : (step env d t s).2 = some t') :
    Knows (step env d t s).1.db t' := by
  cases t' with
  | consume session role =>
    cases t with
    | ready call =>
      cases call with
      | rotate raw =>
        have hread : readStep env d raw s.db = some (.consume session role) := h
        unfold readStep at hread
        split at hread
        · cases hread
        · rename_i hok
          cases hread
          obtain ⟨rfl, x, hx, rfl, _⟩ := rotateRead_ok hok
          exact ⟨session, Table.find_id _ (sessionOf_some hx).1, rfl⟩
        · cases hread
      | revokeByToken raw =>
        obtain ⟨familyId, _, hrevoke⟩ := Option.map_eq_some_iff.1 h
        cases hrevoke
      | issue userId role' details => cases h
    | consume session' role' =>
      cases hok : consumeSession d.now session'.id s.db with
      | ok r =>
        simp only [step, hok] at h
        cases h
      | error e =>
        simp only [step, hok] at h
        cases h
    | issue session' role' =>
      cases hok : issueSuccessor env d session' role' s.db with
      | ok r =>
        simp only [step, hok] at h
        cases h
      | error e =>
        simp only [step, hok] at h
        cases h
    | revoke familyId => cases h
  | _ => trivial

end Preservation

section Runs
variable {env : Env}

/-- The invariant of whole configurations. -/
def Orderly (c : Config Traced Task) : Prop :=
  Linear c.shared (inFlight c.pending) ∧ ∀ t ∈ c.pending, Knows c.shared.db t

theorem orderly_start (c : Config Traced Task) (call : Call) (h : Orderly c) :
    Orderly ((protocol env).next c (.start call)) := by
  refine ⟨?_, ?_⟩
  · have hsame : inFlight (c.pending ++ [Task.ready call]) = inFlight c.pending := by
      simp [inFlight, List.filterMap_append, Task.issuing]
    change Linear c.shared (inFlight (c.pending ++ [Task.ready call]))
    rw [hsame]
    exact h.1
  · intro t ht
    rcases List.mem_append.1 ht with ht | ht
    · exact h.2 t ht
    · rw [List.mem_singleton.1 ht]
      trivial

theorem orderly_resume (c : Config Traced Task) (i : ℕ) (d : Draw) (t : Task)
    (hi : c.pending[i]? = some t) (hG : FindsUnconsumed d t c.shared) (h : Orderly c) :
    Orderly ((protocol env).next c (.resume i d)) := by
  obtain ⟨l, r, hp, hn⟩ := (protocol env).next_resume_some d hi
  have hlinear := h.1
  rw [hp, inFlight_split] at hlinear
  have hknows : Knows c.shared.db t := h.2 t (by simp [hp])
  have hbefore : Linear c.shared (t.issuing.toList ++ (inFlight l ++ inFlight r)) :=
    hlinear.perm (List.perm_append_comm_assoc _ _ _)
  have hafter : Linear (step env d t c.shared).1
      (((step env d t c.shared).2.bind Task.issuing).toList ++ (inFlight l ++ inFlight r)) :=
    linear_step hbefore hknows hG
  rw [hn]
  refine ⟨?_, ?_⟩
  · rw [inFlight_next]
    exact hafter.perm (List.perm_append_comm_assoc _ _ _)
  · intro u hu
    rw [List.append_assoc, List.mem_append, List.mem_append, Option.mem_toList] at hu
    have hold : ∀ u ∈ c.pending, Knows (step env d t c.shared).1.db u := fun u hu =>
      knows_mono (advances_step t) (h.2 u hu)
    rcases hu with hu | hu | hu
    · exact hold u (by simp [hp, hu])
    · exact knows_next hu
    · exact hold u (by simp [hp, hu])

/-- Where every consumption finds its session unconsumed, every token is exchanged at most
once and every family has at most one live session, in every state of the run. -/
theorem exchangedOnce_throughout (env : Env) (db : AuthDb)
    (h : ∀ familyId, db.sessions.count (IsUnconsumed familyId) ≤ 1) (as : List (Act Call Draw))
    (hG : (protocol env).Along FindsUnconsumed ⟨⟨db, []⟩, []⟩ as) :
    (protocol env).Throughout ExchangedOnce ⟨⟨db, []⟩, []⟩ as := by
  have hstart : Orderly ⟨⟨db, []⟩, []⟩ := by
    refine ⟨⟨h, List.nodup_nil, ?_, ?_⟩, ?_⟩
    · intro k hk
      cases hk
    · intro y hy
      cases hy
    · intro t ht
      cases ht
  rw [Protocol.throughout_iff_prefixes]
  rintro bs ⟨cs, rfl⟩
  have hearlier := (((protocol env).along_append _ _ bs cs).1 hG).1
  exact (hearlier.invariant (protocol env) orderly_start orderly_resume hstart).1.exchangedOnce

end Runs

section Twice

/-- Two calls present the same token, and both read its session before either consumes it. -/
def presentedTwice : List (Act Call Draw) :=
  [.start (.rotate "r0"), .start (.rotate "r0"), .resume 0 (draw 20 ""), .resume 1 (draw 20 ""),
    .resume 0 (draw 21 ""), .resume 0 (draw 22 "r1"), .resume 0 (draw 23 ""),
    .resume 0 (draw 24 "r2")]

/-- The second call presents the token after the first one has finished. -/
def presentedAgain : List (Act Call Draw) :=
  [.start (.rotate "r0"), .resume 0 (draw 20 ""), .resume 0 (draw 21 ""),
    .resume 0 (draw 22 "r1"), .start (.rotate "r0"), .resume 0 (draw 23 ""),
    .resume 0 (draw 24 "")]

theorem exchangedOnce_presentedAgain :
    (protocol sampleEnv).Throughout ExchangedOnce ⟨⟨sampleDb, []⟩, []⟩ presentedAgain :=
  exchangedOnce_throughout sampleEnv sampleDb
    (fun familyId => (List.length_filter_le _ _).trans (le_refl 1)) presentedAgain
    (by decide +kernel)

/-- The token gets two successors, and its family two live sessions. -/
theorem presentedTwice_forks :
    ¬ (protocol sampleEnv).Throughout ExchangedOnce ⟨⟨sampleDb, []⟩, []⟩ presentedTwice := by
  intro h
  have hlast := ((protocol sampleEnv).throughout_iff_prefixes _ _ presentedTwice).1 h
    presentedTwice List.prefix_rfl
  have hlive : 1 < ((protocol sampleEnv).run ⟨⟨sampleDb, []⟩, []⟩
      presentedTwice).shared.db.sessions.count (fun x => x.familyId = 1 ∧ IsLive 25 x) := by
    decide +kernel
  exact absurd (hlast.families 25 1) (not_le.2 hlive)

end Twice

end TokenRotation
end Auth
end FootballIQ
