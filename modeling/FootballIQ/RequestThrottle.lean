import FootballIQ.Sequential
import FootballIQ.Spacing

/-!
# The request throttle of the football-data adapter

All requests run one after the other on a promise chain, each after a gap to the one before it and
with one retry on 429. The state is what the event loop holds between two of its turns: the calls
that are chained, and the timer or the response that the running call awaits. A turn happens at
one reading of the clock; it runs to the next timer, response or call.
-/

namespace FootballIQ
namespace RequestThrottle

open Spacing

section Adapter

def minGapMs : ℕ := 6200

def backoffMs : ℕ := 30000

inductive Phase where
  | idle
  | gap (path : String) (wakeAt : ℕ)
  | sending (path : String) (retry : Bool)
  | backoff (path : String) (wakeAt : ℕ)
  deriving DecidableEq

structure HttpRequest where
  path : String
  retry : Bool
  startedAt : ℕ
  deriving DecidableEq

/-- The adapter with the calls that wait on the chain, and all HTTP requests so far. -/
structure State where
  now : ℕ
  lastRequestAt : ℕ
  phase : Phase
  queue : List String
  requests : List HttpRequest
  deriving DecidableEq

inductive Outcome where
  | ok | tooManyRequests | failed
  deriving DecidableEq

inductive Event where
  | request (now : ℕ) (path : String)
  | timer (now : ℕ)
  | answer (now : ℕ) (outcome : Outcome)
  deriving DecidableEq

def Event.time : Event → ℕ
  | .request now _ => now
  | .timer now => now
  | .answer now _ => now

def send (path : String) (retry : Bool) (s : State) : State :=
  { s with
    lastRequestAt := s.now
    phase := .sending path retry
    requests := s.requests ++ [⟨path, retry, s.now⟩] }

/-- A run begins with `gap`, which waits for what is left of the minimum gap. -/
def run (path : String) (s : State) : State :=
  if s.now < s.lastRequestAt + minGapMs then
    { s with phase := .gap path (s.lastRequestAt + minGapMs) }
  else send path false s

/-- The run is over, with a value or an error: the next call on the chain runs. -/
def settle (s : State) : State :=
  match s.queue with
  | [] => { s with phase := .idle }
  | path :: queue => run path { s with queue := queue }

def request (path : String) (s : State) : State :=
  match s.phase with
  | .idle => run path s
  | _ => { s with queue := s.queue ++ [path] }

def timer (s : State) : State :=
  match s.phase with
  | .gap path _ => send path false s
  | .backoff path _ => send path true s
  | _ => s

/-- The first 429 of a call backs off and tries again; any other answer ends the run. -/
def answer (outcome : Outcome) (s : State) : State :=
  match s.phase with
  | .sending path false =>
    if outcome = .tooManyRequests then { s with phase := .backoff path (s.now + backoffMs) }
    else settle s
  | .sending _ true => settle s
  | _ => s

def step (e : Event) (s : State) : State :=
  let s := { s with now := e.time }
  match e with
  | .request _ path => request path s
  | .timer _ => timer s
  | .answer _ outcome => answer outcome s

/-- The adapter as it is constructed, at any reading of the clock. -/
def init (now : ℕ) : State := ⟨now, 0, .idle, [], []⟩

end Adapter

section Statement

/-- What the environment promises: the clock does not go back, a timer fires no earlier than it
is due, and only a request in flight is answered. -/
def Timely (e : Event) (s : State) : Prop :=
  s.now ≤ e.time ∧
    match e, s.phase with
    | .request _ _, _ => True
    | .timer now, .gap _ wakeAt => wakeAt ≤ now
    | .timer now, .backoff _ wakeAt => wakeAt ≤ now
    | .answer _ _, .sending _ _ => True
    | _, _ => False

instance (e : Event) (s : State) : Decidable (Timely e s) := by
  unfold Timely
  cases e <;> cases s.phase <;> infer_instance

def starts (s : State) : List ℕ := s.requests.map (·.startedAt)

/-- The starts are 6.2 seconds apart, and a minute holds at most ten. -/
def WithinQuota (s : State) : Prop :=
  Spaced 6200 (starts s) ∧ ∀ t, (inWindow t 60000 (starts s)).length ≤ 10

end Statement

section Invariant

/-- Until when the running call waits. -/
def wakesAt : Phase → Option ℕ
  | .gap _ wakeAt => some wakeAt
  | .backoff _ wakeAt => some wakeAt
  | .idle => none
  | .sending _ _ => none

/-- The last start is stamped, and a call that waits does so for the whole gap. -/
structure Throttled (s : State) : Prop where
  spaced : Spaced minGapMs (starts s)
  stamped : ∀ t ∈ (starts s).getLast?, t ≤ s.lastRequestAt
  past : s.lastRequestAt ≤ s.now
  waits : ∀ wakeAt ∈ wakesAt s.phase, s.lastRequestAt + minGapMs ≤ wakeAt

variable {s : State}

/-- A request that starts a gap after the stamp keeps the starts apart. -/
theorem Throttled.send (h : Throttled s) (hgap : s.lastRequestAt + minGapMs ≤ s.now)
    (path : String) (retry : Bool) : Throttled (send path retry s) := by
  have hstarts : starts (RequestThrottle.send path retry s) = starts s ++ [s.now] := by
    rw [starts, RequestThrottle.send, List.map_append]
    rfl
  refine ⟨?_, ?_, le_refl _, ?_⟩
  · rw [hstarts]
    apply h.spaced.concat
    intro t ht
    have hle := h.stamped t ht
    omega
  · rw [hstarts, List.getLast?_concat]
    intro t ht
    rw [Option.mem_some_iff] at ht
    exact ht.symm.le
  · rintro _ ⟨⟩

theorem Throttled.run (h : Throttled s) (path : String) : Throttled (run path s) := by
  unfold RequestThrottle.run
  split_ifs with hwait
  · refine ⟨h.spaced, h.stamped, h.past, ?_⟩
    intro wakeAt hwake
    rw [wakesAt, Option.mem_some_iff] at hwake
    exact hwake.le
  · exact h.send (by omega) path false

theorem Throttled.settle (h : Throttled s) : Throttled (settle s) := by
  unfold RequestThrottle.settle
  cases s.queue with
  | nil => exact ⟨h.spaced, h.stamped, h.past, by rintro _ ⟨⟩⟩
  | cons path queue =>
    have hpopped : Throttled { s with queue := queue } :=
      ⟨h.spaced, h.stamped, h.past, h.waits⟩
    exact hpopped.run path

theorem Throttled.request (h : Throttled s) (path : String) : Throttled (request path s) := by
  unfold RequestThrottle.request
  split
  · exact h.run path
  · exact ⟨h.spaced, h.stamped, h.past, h.waits⟩

/-- A timer sends what waited, and it waited long enough. -/
theorem Throttled.timer (h : Throttled s) (hdue : ∀ wakeAt ∈ wakesAt s.phase, wakeAt ≤ s.now) :
    Throttled (timer s) := by
  have hgap : ∀ wakeAt ∈ wakesAt s.phase, s.lastRequestAt + minGapMs ≤ s.now := by
    intro wakeAt hwake
    exact (h.waits wakeAt hwake).trans (hdue wakeAt hwake)
  unfold RequestThrottle.timer
  cases hphase : s.phase with
  | gap path wakeAt => exact h.send (hgap wakeAt (by rw [hphase]; rfl)) path false
  | backoff path wakeAt => exact h.send (hgap wakeAt (by rw [hphase]; rfl)) path true
  | idle => exact h
  | sending path retry => exact h

/-- The back-off is longer than the gap, and the stamp of the first try lies behind. -/
theorem Throttled.answer (h : Throttled s) (outcome : Outcome) : Throttled (answer outcome s) := by
  unfold RequestThrottle.answer
  split
  · split_ifs with hretry
    · refine ⟨h.spaced, h.stamped, h.past, ?_⟩
      intro wakeAt hwake
      rw [wakesAt, Option.mem_some_iff] at hwake
      have hpast := h.past
      simp only [minGapMs, backoffMs] at hwake ⊢
      omega
    · exact h.settle
  · exact h.settle
  · exact h

theorem Throttled.step (h : Throttled s) {e : Event} (ht : Timely e s) :
    Throttled (step e s) := by
  have hmoved : Throttled { s with now := e.time } :=
    ⟨h.spaced, h.stamped, h.past.trans ht.1, h.waits⟩
  cases e with
  | request now path => exact hmoved.request path
  | answer now outcome => exact hmoved.answer outcome
  | timer now =>
    apply hmoved.timer
    intro wakeAt hwake
    have hdue := ht.2
    simp only at hdue hwake
    cases hphase : s.phase with
    | gap path due =>
      rw [hphase] at hdue hwake
      rw [wakesAt, Option.mem_some_iff] at hwake
      exact hwake ▸ hdue
    | backoff path due =>
      rw [hphase] at hdue hwake
      rw [wakesAt, Option.mem_some_iff] at hwake
      exact hwake ▸ hdue
    | idle =>
      rw [hphase] at hwake
      cases hwake
    | sending path retry =>
      rw [hphase] at hwake
      cases hwake

theorem Throttled.init (now : ℕ) : Throttled (init now) :=
  ⟨spaced_nil _, by rintro _ ⟨⟩, Nat.zero_le _, by rintro _ ⟨⟩⟩

theorem Throttled.withinQuota (h : Throttled s) : WithinQuota s :=
  ⟨h.spaced, fun t => h.spaced.length_inWindow_le (by decide) t 60000⟩

/-- Whatever the calls, latencies, errors and 429 answers, on every timely run the requests stay
within the quota of the provider. -/
theorem withinQuota_throughout {now : ℕ} {es : List Event}
    (h : Sequential.Along step Timely (init now) es) :
    Sequential.Throughout step WithinQuota (init now) es := by
  have hthrottled : Sequential.Throughout step Throttled (init now) es :=
    h.throughout (fun _ _ htimely hs => hs.step htimely) (Throttled.init now)
  exact hthrottled.mono (fun _ hs => hs.withinQuota)

end Invariant

section Order

/-- The calls that have been sent, retries apart. -/
def sent (s : State) : List String :=
  (s.requests.filter (fun r => r.retry = false)).map (·.path)

/-- The call that waits for its gap, and those behind it. -/
def pending (s : State) : List String :=
  match s.phase with
  | .gap path _ => path :: s.queue
  | _ => s.queue

def called : Event → List String
  | .request _ path => [path]
  | .timer _ => []
  | .answer _ _ => []

/-- Nothing is chained behind a run that is over. -/
def Settled (s : State) : Prop := s.phase = .idle → s.queue = []

variable {s : State}

theorem sent_send (path : String) (s : State) : sent (send path false s) = sent s ++ [path] := by
  simp [sent, send]

theorem sent_retry (path : String) (s : State) : sent (send path true s) = sent s := by
  simp [sent, send]

theorem run_order (path : String) (s : State) :
    sent (run path s) ++ pending (run path s) = sent s ++ path :: s.queue ∧
      Settled (run path s) := by
  unfold run
  split_ifs with hwait
  · exact ⟨rfl, by rintro ⟨⟩⟩
  · refine ⟨?_, by rintro ⟨⟩⟩
    rw [sent_send, List.append_assoc]
    rfl

theorem settle_order (s : State) :
    sent (settle s) ++ pending (settle s) = sent s ++ s.queue ∧ Settled (settle s) := by
  unfold settle
  cases hqueue : s.queue with
  | nil => exact ⟨by simp [sent, pending], fun _ => rfl⟩
  | cons path queue => exact run_order path { s with queue := queue }

/-- A turn sends or keeps what is chained, and a call goes behind all of it. -/
theorem step_order (h : Settled s) (e : Event) :
    sent (step e s) ++ pending (step e s) = sent s ++ pending s ++ called e ∧
      Settled (step e s) := by
  have hidle := h
  unfold step
  cases e with
  | request now path =>
    simp only [Event.time, request, called]
    cases hphase : s.phase with
    | idle =>
      obtain ⟨horder, hsettled⟩ := run_order path { s with now := now }
      simp only [hphase] at horder hsettled ⊢
      refine ⟨horder.trans ?_, hsettled⟩
      have hnil := hidle hphase
      simp [sent, pending, hphase, hnil]
    | gap _ _ | sending _ _ | backoff _ _ =>
      refine ⟨by simp [sent, pending, hphase], ?_⟩
      rintro ⟨⟩
  | timer now =>
    simp only [Event.time, timer, called, List.append_nil]
    cases hphase : s.phase with
    | gap path wakeAt =>
      refine ⟨?_, by rintro ⟨⟩⟩
      simp only [sent_send, List.append_assoc]
      simp [sent, pending, send, hphase]
    | backoff path wakeAt =>
      refine ⟨?_, by rintro ⟨⟩⟩
      simp only [sent_retry]
      simp [sent, pending, send, hphase]
    | idle => exact ⟨by simp [sent, pending, hphase], fun _ => hidle hphase⟩
    | sending path retry => exact ⟨by simp [sent, pending, hphase], by rintro ⟨⟩⟩
  | answer now outcome =>
    simp only [Event.time, answer, called, List.append_nil]
    cases hphase : s.phase with
    | sending path retry =>
      have hsettle := settle_order { s with now := now, phase := .sending path retry }
      have hpending : sent s ++ pending s = sent s ++ s.queue := by simp [pending, hphase]
      rw [hpending]
      cases retry with
      | true => exact hsettle
      | false =>
        simp only
        split_ifs with hretry
        · exact ⟨by simp [sent, pending], by rintro ⟨⟩⟩
        · exact hsettle
    | idle => exact ⟨by simp [sent, pending, hphase], fun _ => hidle hphase⟩
    | gap path wakeAt => exact ⟨by simp [sent, pending, hphase], by rintro ⟨⟩⟩
    | backoff path wakeAt => exact ⟨by simp [sent, pending, hphase], by rintro ⟨⟩⟩

/-- The calls are sent in the order in which they came, none is dropped and none is sent twice
but for its retry. -/
theorem sent_in_order (h : Settled s) (es : List Event) :
    sent (Sequential.run step s es) ++ pending (Sequential.run step s es) =
      sent s ++ pending s ++ es.flatMap called := by
  induction es generalizing s with
  | nil => simp
  | cons e es ih =>
    obtain ⟨horder, hsettled⟩ := step_order h e
    rw [Sequential.run_cons, ih hsettled, horder, List.flatMap_cons, List.append_assoc]

end Order

section Sample

/-- Three calls at once; the first answer is a 429 and the retry fails. -/
def burst : List Event :=
  [.request 10000 "/matches", .request 10000 "/teams/57", .request 10001 "/teams/61",
    .answer 10400 .tooManyRequests, .timer 40400, .answer 41000 .failed, .timer 46600,
    .answer 46700 .ok, .timer 52800]

theorem withinQuota_burst :
    WithinQuota (Sequential.run step (init 9000) burst) ∧
      starts (Sequential.run step (init 9000) burst) = [10000, 40400, 46600, 52800] := by
  have hall : Sequential.Throughout step WithinQuota (init 9000) burst :=
    withinQuota_throughout (by decide)
  exact ⟨hall.2.2.2.2.2.2.2.2.2, by decide⟩

end Sample

end RequestThrottle
end FootballIQ
