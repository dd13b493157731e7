import FootballIQ.PrizePool
import FootballIQ.ReadThrough

/-!
# The leaderboard cache

A request that finds nothing in the cache reads the contest, then its entries, and stores
what it answers for five seconds. A live push reads its contest and deletes the key. The
platform goes on between any two of these steps.
-/

namespace FootballIQ
namespace LeaderboardCache

open Transaction Relational Interleaving Contests Platform Leaderboard PrizePool

section Model

def cacheKey (slug : String) : String := "lb:" ++ slug

/-- `CACHE_TTL_SEC`, in milliseconds. -/
def cacheTtl : ℕ := 5000

structure Answer where
  slug : String
  payload : Payload
  answeredAt : DateTime

structure World where
  db : Db
  cache : ReadThrough.Cache String Payload
  /-- What the steps have found in the database, each with its time. -/
  history : List (DateTime × Db)
  answers : List Answer

inductive Call where
  | forContest (slug : String)
  | pushLive (contestId : ℕ) (type : LiveType)
  | platform (call : Platform.Call)

/-- A load keeps the time at which it has read the contest. -/
inductive Task where
  | lookup (slug : String)
  | readContest (slug : String)
  | readEntries (slug : String) (readAt : DateTime) (contest : Contest)
  | store (slug : String) (readAt : DateTime) (payload : Payload)
  | push (contestId : ℕ) (type : LiveType)
  | evict (key : String)
  | platform (task : Platform.Task)

/-- The clock of a step and the order in which the database returns its rows. -/
structure Input where
  tick : Tick
  rows : List Entry → List Entry
  reorders : Reorders rows

variable (directory : Directory) (drawHash : ℕ → ℕ → String)

/-- The contest as a request finds it; a draft is not found. -/
def visible (slug : String) (db : Db) : Option Contest :=
  (findBySlug directory db slug).filter (fun c => c.status ≠ .draft)

def order (contest : Contest) (entries : List Entry) : Option (List Entry) :=
  if contest.status = .settled then some (byFinalRank entries)
  else byRanking drawHash contest.id entries

/-- What is answered for a contest and the rows of its entries. -/
def render (contest : Contest) (entries : List Entry) : Option Payload :=
  (order drawHash contest entries).map (toPayload directory contest)

def World.see (now : DateTime) (w : World) : World :=
  { w with history := w.history ++ [(now, w.db)] }

def World.answer (now : DateTime) (slug : String) (payload : Payload) (w : World) : World :=
  { w with answers := w.answers ++ [⟨slug, payload, now⟩] }

def act (input : Input) : Task → World → World × Option Task
  | .lookup slug, w =>
    match w.cache.get input.tick.now (cacheKey slug) with
    | some payload => (w.answer input.tick.now slug payload, none)
    | none => (w, some (.readContest slug))
  | .readContest slug, w =>
    (w, (visible directory slug w.db).map (.readEntries slug input.tick.now))
  | .readEntries slug readAt contest, w =>
    (w, (render directory drawHash contest (input.rows (shownEntries w.db contest.id))).map
      (.store slug readAt))
  | .store slug _ payload, w =>
    (({ w with cache := w.cache.set input.tick.now cacheTtl (cacheKey slug) payload }).answer
      input.tick.now slug payload, none)
  | .push contestId type, w =>
    (w, (pushLive directory contestId type w.db).map (fun r => .evict r.1))
  | .evict key, w => ({ w with cache := w.cache.del key }, none)
  | .platform task, w =>
    ({ w with db := (Platform.step drawHash input.tick task w.db).1 },
      (Platform.step drawHash input.tick task w.db).2.map .platform)

def step (input : Input) (t : Task) (w : World) : World × Option Task :=
  act directory drawHash input t (w.see input.tick.now)

def init : Call → Task
  | .forContest slug => .lookup slug
  | .pushLive contestId type => .push contestId type
  | .platform call => .platform (.ready call)

def protocol : Protocol World Call Task Input := ⟨init, step directory drawHash⟩

/-- The world with nothing cached and nothing answered. -/
def begins (db : Db) : World := ⟨db, .empty, [], []⟩

end Model

section Alone
variable {directory : Directory} {drawHash : ℕ → ℕ → String} {rows : List Entry → List Entry}
  {slug : String} {payload : Payload} {db : Db}

theorem visible_eq_some_iff {c : Contest} : visible directory slug db = some c ↔
    findBySlug directory db slug = some c ∧ c.status ≠ .draft := by
  simp [visible, Option.filter_eq_some_iff]

/-- A request that nothing comes between reads and renders one state. -/
theorem forContest_iff : forContest directory drawHash none rows slug db = .ok (payload, db) ↔
    ∃ c, visible directory slug db = some c ∧
      render directory drawHash c (rows (shownEntries db c.id)) = some payload := by
  simp only [forContest, standings, bind_ok_iff, get_ok_iff, orThrow_ok_iff, throwIf_ok_iff,
    pure_ok_iff, visible_eq_some_iff, render, order, Option.map_eq_some_iff]
  constructor
  · rintro ⟨⟨c, ordered⟩, _, ⟨_, _, ⟨rfl, rfl⟩, c', _, ⟨hslug, rfl⟩, _, _, ⟨hdraft, rfl⟩, _, _,
      ⟨hordered, rfl⟩, heq, rfl⟩, rfl, _⟩
    obtain ⟨rfl, rfl⟩ := Prod.mk.inj heq
    exact ⟨c', ⟨hslug, hdraft⟩, _, hordered, rfl⟩
  · rintro ⟨c, ⟨hslug, hdraft⟩, ordered, hordered, rfl⟩
    exact ⟨(c, ordered), db, ⟨db, db, ⟨rfl, rfl⟩, c, db, ⟨hslug, rfl⟩, ⟨⟩, db, ⟨hdraft, rfl⟩,
      ordered, db, ⟨hordered, rfl⟩, rfl, rfl⟩, rfl, rfl⟩

/-- It answers what the service answers in one go. -/
theorem run_alone {first second third fourth : Input}
    (h : forContest directory drawHash none third.rows slug db = .ok (payload, db)) :
    ((protocol directory drawHash).run ⟨begins db, []⟩ [.start (.forContest slug),
      .resume 0 first, .resume 0 second, .resume 0 third, .resume 0 fourth]).shared.answers =
        [⟨slug, payload, fourth.tick.now⟩] := by
  obtain ⟨c, hvisible, hrender⟩ := forContest_iff.1 h
  simp [Protocol.run, Protocol.next, protocol, init, step, act, begins, World.see, World.answer,
    ReadThrough.Cache.get, ReadThrough.Cache.empty, hvisible, hrender]

end Alone

section Freshness
variable (directory : Directory) (drawHash : ℕ → ℕ → String)

/-- The payload is what the contest as it was at `t`, with the entries as they were then or
later, renders to. -/
def Loaded (history : List (DateTime × Db)) (key : String) (payload : Payload) (t : DateTime) :
    Prop :=
  ∃ slug c db t' db' rows, key = cacheKey slug ∧ [(t, db), (t', db')].Sublist history ∧
    visible directory slug db = some c ∧ Reorders rows ∧
    render directory drawHash c (rows (shownEntries db' c.id)) = some payload

/-- A load stores its payload within `span` of its first read. -/
def Prompt (span : ℕ) (input : Input) (t : Task) (_ : World) : Prop :=
  match t with
  | .store _ readAt _ => input.tick.now ≤ readAt + span
  | _ => True

/-- What is cached expires, and what is answered was answered, soon after its load began. -/
structure Fresh (span : ℕ) (w : World) : Prop where
  cache : w.cache.Justified (Loaded directory drawHash w.history) (span + cacheTtl)
  answers : ∀ a ∈ w.answers, ∃ t,
    Loaded directory drawHash w.history (cacheKey a.slug) a.payload t ∧
      a.answeredAt < t + (span + cacheTtl)

/-- What a load has read so far. -/
def Reads (w : World) : Task → Prop
  | .readEntries slug readAt contest => ∃ db, (readAt, db) ∈ w.history ∧
    visible directory slug db = some contest
  | .store slug readAt payload => Loaded directory drawHash w.history (cacheKey slug) payload readAt
  | _ => True

variable {directory drawHash} {span : ℕ} {w w' : World} {t : Task} {input : Input}

theorem Loaded.mono {h h' : List (DateTime × Db)} (hs : h.Sublist h') {key : String}
    {payload : Payload} {t : DateTime} (hl : Loaded directory drawHash h key payload t) :
    Loaded directory drawHash h' key payload t := by
  obtain ⟨slug, c, db, t', db', rows, hkey, hread, hrest⟩ := hl
  exact ⟨slug, c, db, t', db', rows, hkey, hread.trans hs, hrest⟩

theorem Reads.mono (hs : w.history.Sublist w'.history) (h : Reads directory drawHash w t) :
    Reads directory drawHash w' t := by
  cases t with
  | readEntries slug readAt contest =>
    obtain ⟨db, hmem, hvisible⟩ := h
    exact ⟨db, hs.subset hmem, hvisible⟩
  | store slug readAt payload => exact Loaded.mono hs h
  | lookup _ | readContest _ | push _ _ | evict _ | platform _ => trivial

/-- A step adds what it has found to the history. -/
theorem history_step : (step directory drawHash input t w).1.history =
    w.history ++ [(input.tick.now, w.db)] := by
  cases t with
  | lookup slug =>
    simp only [step, act]
    split
    · rfl
    · rfl
  | readContest _ | readEntries _ _ _ | store _ _ _ | push _ _ | evict _ | platform _ => rfl

theorem history_le : w.history.Sublist (step directory drawHash input t w).1.history := by
  rw [history_step]
  exact List.sublist_append_left _ _

theorem Fresh.see (h : Fresh directory drawHash span w) (now : DateTime) :
    Fresh directory drawHash span (w.see now) := by
  have hs : w.history.Sublist (w.see now).history := List.sublist_append_left _ _
  refine ⟨h.cache.mono (fun _ _ _ => Loaded.mono hs), fun a ha => ?_⟩
  obtain ⟨t, hloaded, hlt⟩ := h.answers a ha
  exact ⟨t, hloaded.mono hs, hlt⟩

/-- An answer that was loaded recently enough. -/
theorem Fresh.answer (h : Fresh directory drawHash span w) {now t : DateTime} {slug : String}
    {payload : Payload} (hloaded : Loaded directory drawHash w.history (cacheKey slug) payload t)
    (hlt : now < t + (span + cacheTtl)) :
    Fresh directory drawHash span (w.answer now slug payload) := by
  refine ⟨h.cache, fun a ha => ?_⟩
  rcases List.mem_append.1 ha with ha | ha
  · exact h.answers a ha
  · rw [List.mem_singleton.1 ha]
    exact ⟨t, hloaded, hlt⟩

theorem fresh_step (h : Fresh directory drawHash span w) (ht : Reads directory drawHash w t)
    (hG : Prompt span input t w) :
    Fresh directory drawHash span (step directory drawHash input t w).1 := by
  have hseen := h.see input.tick.now
  have hread : Reads directory drawHash (w.see input.tick.now) t :=
    ht.mono (List.sublist_append_left _ _)
  cases t with
  | lookup slug =>
    simp only [step, act]
    cases hget : (w.see input.tick.now).cache.get input.tick.now (cacheKey slug) with
    | none => exact hseen
    | some payload =>
      obtain ⟨t, hloaded, hlt⟩ := hseen.cache.get hget
      exact hseen.answer hloaded hlt
  | store slug readAt payload =>
    have hnow : input.tick.now ≤ readAt + span := hG
    have hlt : input.tick.now < readAt + (span + cacheTtl) := by
      calc input.tick.now ≤ readAt + span := hnow
        _ < readAt + span + cacheTtl := Nat.lt_add_of_pos_right (by decide)
        _ = readAt + (span + cacheTtl) := Nat.add_assoc _ _ _
    have hcached : Fresh directory drawHash span { w.see input.tick.now with
        cache := w.cache.set input.tick.now cacheTtl (cacheKey slug) payload } :=
      ⟨hseen.cache.set hread hnow, hseen.answers⟩
    exact hcached.answer hread hlt
  | evict key => exact ⟨hseen.cache.del, hseen.answers⟩
  | readContest _ | readEntries _ _ _ | push _ _ | platform _ => exact ⟨hseen.cache, hseen.answers⟩

/-- What a load reads is there from then on. -/
theorem reads_next {t' : Task} (ht : Reads directory drawHash w t)
    (h : (step directory drawHash input t w).2 = some t') :
    Reads directory drawHash (step directory drawHash input t w).1 t' := by
  cases t with
  | lookup slug =>
    simp only [step, act] at h
    split at h
    · cases h
    · cases h
      trivial
  | readContest slug =>
    obtain ⟨c, hvisible, rfl⟩ := Option.map_eq_some_iff.1 h
    exact ⟨w.db, List.mem_append_right _ List.mem_cons_self, hvisible⟩
  | readEntries slug readAt contest =>
    obtain ⟨db, hmem, hvisible⟩ := ht
    obtain ⟨payload, hrender, rfl⟩ := Option.map_eq_some_iff.1 h
    refine ⟨slug, contest, db, input.tick.now, w.db, input.rows, rfl, ?_, hvisible,
      input.reorders, hrender⟩
    exact (List.singleton_sublist.2 hmem).append (List.Sublist.refl [(input.tick.now, w.db)])
  | push contestId type =>
    obtain ⟨r, _, rfl⟩ := Option.map_eq_some_iff.1 h
    trivial
  | platform task =>
    obtain ⟨next, _, rfl⟩ := Option.map_eq_some_iff.1 h
    trivial
  | store _ _ _ => cases h
  | evict _ => cases h

theorem inductive_fresh (directory : Directory) (drawHash : ℕ → ℕ → String) (span : ℕ) :
    (protocol directory drawHash).Inductive (Prompt span) (Fresh directory drawHash span)
      (Reads directory drawHash) where
  init w call _ := by
    cases call with
    | forContest _ | pushLive _ _ | platform _ => trivial
  shared _ _ _ hI ht hG := fresh_step hI ht hG
  cont _ _ _ _ _ ht _ hnext := reads_next ht hnext
  stable _ _ _ _ _ _ _ hu := hu.mono history_le

/-- In every interleaving of requests, pushes and calls of the platform, whatever the loads
find between their reads and whenever the key is deleted, what is answered was rendered from
the contest as it was, and its entries as they were then or later, less than five seconds
and the duration of a load before. -/
theorem fresh_of_run (directory : Directory) (drawHash : ℕ → ℕ → String) {span : ℕ} {db : Db}
    {as : List (Act Call Input)}
    (h : (protocol directory drawHash).Along (Prompt span) ⟨begins db, []⟩ as) :
    ∀ a ∈ ((protocol directory drawHash).run ⟨begins db, []⟩ as).shared.answers, ∃ t,
      Loaded directory drawHash
        ((protocol directory drawHash).run ⟨begins db, []⟩ as).shared.history
        (cacheKey a.slug) a.payload t ∧ a.answeredAt < t + (span + cacheTtl) := by
  have hstart : Fresh directory drawHash span (begins db) :=
    ⟨ReadThrough.Cache.justified_empty, by simp [begins]⟩
  exact ((inductive_fresh directory drawHash span).run ⟨hstart, by simp⟩ h).1.answers

end Freshness

section Sample

def asRead (now : DateTime) : Input := ⟨⟨now, false, false⟩, id, fun _ => List.Perm.refl _⟩

def reversed (now : DateTime) : Input := ⟨⟨now, false, false⟩, List.reverse, List.reverse_perm⟩

def drawOf : ℕ → ℕ → String := fun _ id => toString id

/-- A settlement falls between the two reads of a load, whose payload a second request finds; the
key is deleted, and a third request loads the settled contest. -/
def straddled : List (Act Call Input) :=
  [.start (.forContest "matchday-1"), .resume 0 (asRead 100), .resume 0 (asRead 101),
    .start (.platform (.distribute 1)), .resume 1 (asRead 102), .resume 1 (asRead 103),
    .resume 0 (reversed 104), .resume 0 (asRead 105),
    .start (.forContest "matchday-1"), .resume 0 (asRead 106),
    .start (.pushLive 1 .leaderboardUpdate), .resume 0 (asRead 107), .resume 0 (asRead 108),
    .start (.forContest "matchday-1"), .resume 0 (asRead 109), .resume 0 (asRead 110),
    .resume 0 (reversed 111), .resume 0 (asRead 112)]

instance (span : ℕ) (input : Input) (w : World) : ∀ t, Decidable (Prompt span input t w)
  | .store _ readAt _ => inferInstanceAs (Decidable (input.tick.now ≤ readAt + span))
  | .lookup _ | .readContest _ | .readEntries _ _ _ | .push _ _ | .evict _ | .platform _ =>
    .isTrue trivial

def straddledWorld : World :=
  ((protocol matchday drawOf).run ⟨begins Settlement.scoredDb, []⟩ straddled).shared

theorem fresh_of_run_straddled :
    straddledWorld.answers.map (fun a => (a.payload.status, a.answeredAt)) =
        [(.scored, 105), (.scored, 106), (.settled, 112)] ∧
      ∀ a ∈ straddledWorld.answers, ∃ t,
        Loaded matchday drawOf straddledWorld.history (cacheKey a.slug) a.payload t ∧
          a.answeredAt < t + (4 + cacheTtl) :=
  ⟨by decide +kernel, fresh_of_run matchday drawOf (by decide +kernel)⟩

end Sample

end LeaderboardCache
end FootballIQ
