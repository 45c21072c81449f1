import EspClawPlatform.Bus.Listener
import EspClawPlatform.Twin.TwinService

namespace EspClawPlatform.Twin

open Bus (Subscription Thrown)

/-- The subscription of `onModuleInit`, which is the first one and is never given up. -/
def feed : Subscription where
  id := 0
  pattern := "device.telemetry.updated"
  name := "twin.reported"
  retries := 0
  backoffMs := Bus.DEFAULT_BACKOFF_MS
  timeoutMs := Bus.DEFAULT_TIMEOUT_MS

/-- Where a call of `onTelemetryUpdated` stands: it awaits the call of
`mergeReported` with a number, or has returned without one, and is `settled`
once the bus knows. -/
inductive Standing
  | awaits (call : Nat)
  | returned
  | settled (failure : Option String)
  deriving DecidableEq

structure Execution where
  link : Nat
  target : Nat
  event : DomainEvent Payload
  standing : Standing
  deriving DecidableEq

instance : Keyed Execution (Nat × Nat) := ⟨fun x => (x.link, x.target)⟩

/-- The module on its bus. `failures` has the error of each call of the service
that has ended with one; `executions` keeps every call of the handler. -/
structure Subscriber where
  bus : Bus.State Payload
  twin : State
  failures : Table (Nat × String) := .empty
  executions : Table Execution := .empty

namespace Subscriber

def init (shadows : Table DeviceShadow) : Subscriber where
  bus := Bus.init.subscribe "device.telemetry.updated" { name := "twin.reported" }
  twin := Twin.init shadows

example (shadows : Table DeviceShadow) : (init shadows).bus.subscriptions = [feed] := rfl

/-- The calls of the service go on by number, those that the handler has made and
those of the controller alike. -/
inductive Action
  | bus (action : Bus.Action Payload)
  | setDesired (deviceId : String) (patch : Record)
  | commit (k : Nat)
  | refuse (k : Nat) (message : String)
  | resume (k : Nat) (context : Option RequestContext) (eventId correlationId : String) (now : Nat)
  | settle (link target : Nat)

/-- `onTelemetryUpdated` up to its first `await`. -/
def calls (s : Subscriber) (link target : Nat) (event : DomainEvent Payload) : Subscriber :=
  match onTelemetryUpdated event with
  | none =>
      { s with
        executions := s.executions.save { link := link, target := target, event := event, standing := .returned } }
  | some call =>
      { s with
        twin := s.twin.begins call
        executions := s.executions.save
          { link := link, target := target, event := event, standing := .awaits s.twin.calls.length } }

def called (s : Subscriber) : Bus.Action Payload → Subscriber
  | .invoke link target =>
      match s.bus.heardBy feed link target with
      | none => s
      | some event => s.calls link target event
  | _ => s

/-- What the rest of the platform and the runtime may do with the bus. The end
of `onTelemetryUpdated` is not theirs, nor is its subscription, and an event
says its type as `createEvent` was given it. -/
def outside (s : Subscriber) : Bus.Action Payload → Bool
  | .publish event => event.eventType = event.payload.eventType
  | .unsubscribe id => id ≠ feed.id
  | .settle link target _ => (s.bus.heardBy feed link target).isNone
  | _ => true

def refuse (s : Subscriber) (k : Nat) (message : String) : Frame → Option Subscriber
  | .finding _ | .creating _ | .saving .. =>
      some
        { s with
          twin := { s.twin with frames := s.twin.frames.erase k }
          failures := s.failures.set k message }
  | _ => none

def handed (s t : State) : List Published := t.events.drop s.events.length

def resume (s : Subscriber) (k : Nat) (create : Published → DomainEvent Payload) : Option Subscriber :=
  (step s.twin (.resume k)).map fun twin =>
    { s with
      twin := twin
      bus := ((handed s.twin twin).map create).foldl Bus.State.publish s.bus }

def outcome (s : Subscriber) : Standing → Option (Option String)
  | .awaits k =>
      match s.failures.get k with
      | some message => some (some message)
      | none => if (s.twin.frames.get k).isNone then some none else none
  | .returned => some none
  | .settled _ => none

def result (failure : Option String) : Except Thrown Unit :=
  match failure with
  | none => .ok ()
  | some message => .error (Thrown.error message)

/-- The promise of a call settles. That has no effect once the bus has given the call up. -/
def settle (s : Subscriber) (x : Execution) : Option Subscriber :=
  (s.outcome x.standing).map fun failure =>
    { s with
      bus := (Bus.step s.bus (.settle x.link x.target (result failure))).getD s.bus
      executions := s.executions.save { x with standing := .settled failure } }

def step (s : Subscriber) : Action → Option Subscriber
  | .bus action =>
      if s.outside action then (Bus.step s.bus action).map fun bus => { s.called action with bus := bus } else none
  | .setDesired deviceId patch => some { s with twin := s.twin.begins (.setDesired deviceId patch) }
  | .commit k => (Twin.step s.twin (.commit k)).map fun twin => { s with twin := twin }
  | .refuse k message => (s.twin.frames.get k).bind (s.refuse k message)
  | .resume k context eventId correlationId now => s.resume k (createEvent context eventId correlationId now)
  | .settle link target => (s.executions.find (link, target)).bind s.settle

def published (s : Subscriber) : Action → List (DomainEvent Payload)
  | .bus action => (Bus.publication action).toList
  | .resume k context eventId correlationId now =>
      (Twin.step s.twin (.resume k)).elim [] fun twin =>
        (handed s.twin twin).map (createEvent context eventId correlationId now)
  | _ => []

end Subscriber

end EspClawPlatform.Twin
