import EspClawPlatform.Lib.Run
import EspClawPlatform.Events

namespace EspClawPlatform.Bus

def DEFAULT_TIMEOUT_MS : Nat := 10000

def DEFAULT_BACKOFF_MS : Nat := 100

/-- Events without a device share one ordering lane. -/
def GLOBAL_LANE : String := "_global"

/-- The loop of `matchesPattern` from one position on: the segments of the
pattern and of the type that are left. -/
def matchSegments : List (List Char) → List (List Char) → Bool
  | [], t => t.isEmpty
  | p :: ps, t =>
      if p = "**".toList then !t.isEmpty
      else match t with
        | [] => false
        | x :: xs => (p = "*".toList || p = x) && matchSegments ps xs

def matchesPattern (pattern type : String) : Bool :=
  matchSegments (pattern.toList.splitOn '.') (type.toList.splitOn '.')

structure SubscribeOptions where
  name : String
  retries : Option Nat := none
  backoffMs : Option Nat := none
  timeoutMs : Option Nat := none

/-- The handler itself is any code; `id` is the identity of the object in the
array, by which it is unsubscribed. -/
structure Subscription where
  id : Nat
  pattern : String
  name : String
  retries : Nat
  backoffMs : Nat
  timeoutMs : Nat
  deriving DecidableEq

/-- A JavaScript value that a handler throws or rejects with. For an object,
`message` is what `${err.message}` evaluates to, and `none` when reading the
property or converting it to a string throws in turn. -/
inductive Thrown
  | undefined
  | null
  | primitive
  | object (message : Option String)
  deriving DecidableEq

/-- `${(err as Error).message}`; `none` when the evaluation throws. -/
def Thrown.message : Thrown → Option String
  | .undefined | .null => none
  | .primitive => some "undefined"
  | .object message => message

def Thrown.error (message : String) : Thrown := .object (some message)

inductive Outcome
  | succeeded
  | threw (value : Thrown)
  | timedOut
  deriving DecidableEq

inductive RunPhase
  | due
  | running
  | backingOff
  | delivered
  | failed
  | crashed
  deriving DecidableEq

/-- One call of `runHandler`: the outcomes of the attempts made so far, oldest
first, and where the loop stands. `crashed` is the loop having thrown itself. -/
structure HandlerRun where
  sub : Subscription
  outcomes : List Outcome := []
  phase : RunPhase := .due
  deriving DecidableEq

def HandlerRun.attempt (r : HandlerRun) : Nat := r.outcomes.length

inductive PromiseState
  | pending
  | fulfilled
  | rejected
  deriving DecidableEq

/-- A published event with targets, and the promise `current` that `publish`
chained for it; `previous` is the promise it was chained on, `none` standing
for `Promise.resolve()`. -/
structure Link (P : Type) where
  id : Nat
  event : DomainEvent P
  previous : Option Nat
  started : Bool := false
  state : PromiseState := .pending
  runs : List HandlerRun
  deriving DecidableEq

instance {P : Type} : Keyed (Link P) Nat := ⟨Link.id⟩

def lane {P : Type} (event : DomainEvent P) : String := event.deviceId.getD GLOBAL_LANE

structure EventBusStats where
  published : Nat := 0
  delivered : Nat := 0
  failed : Nat := 0
  timedOut : Nat := 0
  deriving DecidableEq

/-- `links` keeps every chained promise, also after `lanes` and `inFlight`
have dropped it. -/
structure State (P : Type) where
  subscriptions : List Subscription := []
  subscribed : Nat := 0
  lanes : Table (String × Nat) := .empty
  inFlight : List Nat := []
  counters : EventBusStats := {}
  links : Table (Link P) := .empty

/-- What the runtime may do next: a call from outside or from a handler, a
microtask, the end of a handler, or a timer. -/
inductive Action (P : Type)
  | publish (event : DomainEvent P)
  | subscribe (pattern : String) (options : SubscribeOptions)
  | unsubscribe (id : Nat)
  | start (link : Nat)
  | invoke (link target : Nat)
  | settle (link target : Nat) (result : Except Thrown Unit)
  | timeout (link target : Nat)
  | wake (link target : Nat)
  | finish (link : Nat)
  | cleanup (link : Nat)

variable {P : Type}

def State.publish (s : State P) (event : DomainEvent P) : State P :=
  let id := s.counters.published
  let s := { s with counters := { s.counters with published := id + 1 } }
  let targets := s.subscriptions.filter fun sub => matchesPattern sub.pattern event.eventType
  if targets.isEmpty then s
  else { s with
    links := s.links.save
      { id := id, event := event, previous := s.lanes.get (lane event),
        runs := targets.map fun sub => { sub := sub } }
    lanes := s.lanes.set (lane event) id
    inFlight := id :: s.inFlight }

def State.subscribe (s : State P) (pattern : String) (options : SubscribeOptions) : State P :=
  { s with
    subscribed := s.subscribed + 1
    subscriptions := s.subscriptions ++
      [{ id := s.subscribed, pattern := pattern, name := options.name,
         retries := options.retries.getD 0,
         backoffMs := options.backoffMs.getD DEFAULT_BACKOFF_MS,
         timeoutMs := options.timeoutMs.getD DEFAULT_TIMEOUT_MS }] }

def State.unsubscribe (s : State P) (id : Nat) : State P :=
  { s with subscriptions := s.subscriptions.eraseP fun sub => sub.id = id }

def State.promise (s : State P) (link : Nat) : Option PromiseState :=
  (s.links.find link).map (·.state)

/-- The callback of `previous.then(...)` runs, or is passed over because
`previous` was rejected. -/
def State.start (s : State P) (link : Nat) : Option (State P) := do
  let d ← s.links.find link
  if d.started ∨ d.state ≠ .pending then none
  else match d.previous.elim (some .fulfilled) s.promise with
    | some .fulfilled => some { s with links := s.links.save { d with started := true } }
    | some .rejected => some { s with links := s.links.save { d with state := .rejected } }
    | _ => none

def HandlerRun.invoke (r : HandlerRun) : Option HandlerRun :=
  if r.phase = .due then some { r with phase := .running } else none

/-- The `catch` block of `runHandler`; its log line reads the message. -/
def HandlerRun.fail (r : HandlerRun) (outcome : Outcome) (message : Option String) : HandlerRun :=
  { r with
    outcomes := r.outcomes ++ [outcome]
    phase :=
      match message with
      | none => .crashed
      | some _ => if r.attempt = r.sub.retries then .failed else .backingOff }

def HandlerRun.settle (r : HandlerRun) (result : Except Thrown Unit) : Option HandlerRun :=
  if r.phase = .running then
    some <| match result with
      | .ok () => { r with outcomes := r.outcomes ++ [.succeeded], phase := .delivered }
      | .error value => r.fail (.threw value) value.message
  else none

def HandlerRun.timeout (r : HandlerRun) : Option HandlerRun :=
  if r.phase = .running then
    some (r.fail .timedOut (Thrown.error s!"timed out after {r.sub.timeoutMs} ms").message)
  else none

def HandlerRun.wake (r : HandlerRun) : Option HandlerRun :=
  if r.phase = .backingOff then some { r with phase := .due } else none

def EventBusStats.tally (c : EventBusStats) : RunPhase → EventBusStats
  | .delivered => { c with delivered := c.delivered + 1 }
  | .failed => { c with failed := c.failed + 1 }
  | _ => c

def State.onRun (s : State P) (link target : Nat) (move : HandlerRun → Option HandlerRun) :
    Option (State P) := do
  let d ← s.links.find link
  if d.started then
    let r ← d.runs[target]?
    let r' ← move r
    some { s with
      links := s.links.save { d with runs := d.runs.set target r' }
      counters := s.counters.tally r'.phase }
  else none

/-- `deliver` settles: it rejects as soon as one handler run has thrown, and
fulfils when every one has returned; `current` settles with it. -/
def State.finish (s : State P) (link : Nat) : Option (State P) := do
  let d ← s.links.find link
  if d.started ∧ d.state = .pending then
    if d.runs.any fun r => r.phase = .crashed then
      some { s with links := s.links.save { d with state := .rejected } }
    else if d.runs.all fun r => r.phase = .delivered ∨ r.phase = .failed then
      some { s with links := s.links.save { d with state := .fulfilled } }
    else none
  else none

def State.cleanup (s : State P) (link : Nat) : Option (State P) := do
  let d ← s.links.find link
  if d.state ≠ .pending ∧ link ∈ s.inFlight then
    some { s with
      inFlight := s.inFlight.filter (· ≠ link)
      lanes := if s.lanes.get (lane d.event) = some link then s.lanes.erase (lane d.event) else s.lanes }
  else none

def step (s : State P) : Action P → Option (State P)
  | .publish event => some (s.publish event)
  | .subscribe pattern options => some (s.subscribe pattern options)
  | .unsubscribe id => some (s.unsubscribe id)
  | .start link => s.start link
  | .invoke link target => s.onRun link target HandlerRun.invoke
  | .settle link target result => s.onRun link target (·.settle result)
  | .timeout link target =>
      (s.onRun link target HandlerRun.timeout).map fun t =>
        { t with counters := { t.counters with timedOut := t.counters.timedOut + 1 } }
  | .wake link target => s.onRun link target HandlerRun.wake
  | .finish link => s.finish link
  | .cleanup link => s.cleanup link

def init : State P := {}

end EspClawPlatform.Bus
