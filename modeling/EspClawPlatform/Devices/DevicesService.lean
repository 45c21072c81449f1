import EspClawPlatform.Bus.Listener
import EspClawPlatform.Devices.Device

namespace EspClawPlatform.Devices

open Bus (Subscription HandlerRun Thrown)

/-- The columns that the service and the commands to the device read or write. -/
structure DeviceEntity extends Device where
  online : Bool
  lastSeenAt : Option Nat
  localApiBaseUrl : Option String := none
  deriving DecidableEq

instance : Keyed DeviceEntity String := ⟨fun d => d.id⟩

structure Observation where
  deviceId : String
  baseTopic : String
  online : Bool
  timestamp : Nat
  deriving DecidableEq

/-- What `handlePresenceReported` reads of an event; without a device id it returns at once. -/
def observe (event : DomainEvent Payload) : Option Observation :=
  match event.payload, event.deviceId with
  | .presenceReported baseTopic online, some id =>
      if id = "" then none
      else some { deviceId := id, baseTopic := baseTopic, online := online, timestamp := event.timestamp }
  | _, _ => none

/-- Where a call of `handlePresenceReported` waits. A query comes in two, for
the query that is under way and for its answer that is not yet taken up;
`finding` and `saving` are those of `findOrCreate`. `failure` is the error of
a query, if one has failed, and a call is `settled` once the bus knows. -/
inductive Frame
  | findingBefore
  | foundBefore (before : Option DeviceEntity)
  | finding (before : Option DeviceEntity)
  | found (before existing : Option DeviceEntity)
  | saving (before : Option DeviceEntity)
  | saved (before : Option DeviceEntity)
  | updating (before : Option DeviceEntity)
  | updated (before : Option DeviceEntity)
  | returned (failure : Option String)
  | settled (failure : Option String)
  deriving DecidableEq

structure Execution where
  link : Nat
  target : Nat
  event : DomainEvent Payload
  frame : Frame
  deriving DecidableEq

instance : Keyed Execution (Nat × Nat) := ⟨fun x => (x.link, x.target)⟩

structure State where
  bus : Bus.State Payload
  devices : Table DeviceEntity := .empty
  executions : Table Execution := .empty

structure Draw where
  context : Option RequestContext := none
  eventId : String := ""
  correlationId : String := ""
  now : Nat := 0

inductive Action
  | bus (action : Bus.Action Payload)
  | commit (link target : Nat)
  | refuse (link target : Nat) (message : String)
  | resume (link target : Nat) (draw : Draw)
  | settle (link target : Nat)

def PRESENCE_PATTERN : String := "device.presence.reported"

/-- The subscription of `onModuleInit`, which is the first one and is never given up. -/
def presence : Subscription where
  id := 0
  pattern := PRESENCE_PATTERN
  name := "devices.presence"
  retries := 0
  backoffMs := Bus.DEFAULT_BACKOFF_MS
  timeoutMs := Bus.DEFAULT_TIMEOUT_MS

def init : State where
  bus := Bus.init.subscribe PRESENCE_PATTERN { name := "devices.presence" }

example : init.bus.subscriptions = [presence] := rfl

def State.boot (devices : Table DeviceEntity) : State := { init with devices := devices }

def State.handled (s : State) (link target : Nat) : Option (DomainEvent Payload) :=
  s.bus.heardBy presence link target

def begin (event : DomainEvent Payload) : Frame :=
  if (observe event).isSome then .findingBefore else .returned none

def State.called (s : State) : Bus.Action Payload → Table Execution
  | .invoke link target =>
      match s.handled link target with
      | none => s.executions
      | some event => s.executions.save { link := link, target := target, event := event, frame := begin event }
  | _ => s.executions

/-- What the rest of the platform and the runtime may do with the bus. The end
of `handlePresenceReported` is not theirs, nor is its subscription, and an
event says its type as `createEvent` was given it. -/
def State.outside (s : State) : Bus.Action Payload → Bool
  | .publish event => event.eventType = event.payload.eventType
  | .unsubscribe id => id ≠ presence.id
  | .settle link target _ => (s.handled link target).isNone
  | _ => true

def State.goto (s : State) (x : Execution) (f : Frame) : State :=
  { s with executions := s.executions.save { x with frame := f } }

/-- What `findOrCreate` makes of the table; the row of a known device keeps its other columns. -/
def saveCreated (devices : Table DeviceEntity) (id baseTopic : String) : Table DeviceEntity :=
  devices.save
    { id := id, baseTopic := baseTopic, online := false, lastSeenAt := none
      localApiBaseUrl := (devices.find id).bind (·.localApiBaseUrl) }

def updatePresence (devices : Table DeviceEntity) (o : Observation) : Table DeviceEntity :=
  match devices.find o.deviceId with
  | none => devices
  | some row => devices.save { row with online := o.online, lastSeenAt := some o.timestamp }

def State.commit (s : State) (x : Execution) : Option State := do
  let o ← observe x.event
  match x.frame with
  | .findingBefore => some (s.goto x (.foundBefore (s.devices.find o.deviceId)))
  | .finding before => some (s.goto x (.found before (s.devices.find o.deviceId)))
  | .saving before =>
      some ({ s with devices := saveCreated s.devices o.deviceId o.baseTopic }.goto x (.saved before))
  | .updating before => some ({ s with devices := updatePresence s.devices o }.goto x (.updated before))
  | _ => none

def State.refuse (s : State) (x : Execution) (message : String) : Option State :=
  match x.frame with
  | .findingBefore | .finding _ | .saving _ | .updating _ => some (s.goto x (.returned (some message)))
  | _ => none

def State.publish (s : State) (draw : Draw) (input : Published) : State :=
  { s with bus := s.bus.publish (createEvent draw.context draw.eventId draw.correlationId draw.now input) }

def registeredEvent (o : Observation) : Published :=
  { announce "module:devices" (.deviceRegistered o.baseTopic) with deviceId := some o.deviceId }

def transitionEvent (event : DomainEvent Payload) (o : Observation) (wasOnline : Bool) : Published :=
  { announce "module:devices" (if o.online then .deviceOnline wasOnline else .deviceOffline wasOnline) with
    deviceId := some o.deviceId
    causationId := some event.eventId
    correlationId := some event.correlationId }

def State.resume (s : State) (x : Execution) (draw : Draw) : Option State := do
  let o ← observe x.event
  match x.frame with
  | .foundBefore before => some (s.goto x (.finding before))
  | .found before existing => some (s.goto x (if existing.isSome then .updating before else .saving before))
  | .saved before => some ((s.publish draw (registeredEvent o)).goto x (.updating before))
  | .updated before =>
      let wasOnline := (before.map (·.online)).getD false
      let t := if wasOnline ≠ o.online then s.publish draw (transitionEvent x.event o wasOnline) else s
      some (t.goto x (.returned none))
  | _ => none

def result (failure : Option String) : Except Thrown Unit :=
  match failure with
  | none => .ok ()
  | some message => .error (Thrown.error message)

/-- The promise of a call settles. That has no effect once the bus has given the call up. -/
def State.settle (s : State) (x : Execution) : Option State :=
  match x.frame with
  | .returned failure =>
      some ({ s with bus := (Bus.step s.bus (.settle x.link x.target (result failure))).getD s.bus }.goto x
        (.settled failure))
  | _ => none

def step (s : State) : Action → Option State
  | .bus action =>
      if s.outside action then
        (Bus.step s.bus action).map fun bus => { s with bus := bus, executions := s.called action }
      else none
  | .commit link target => (s.executions.find (link, target)).bind s.commit
  | .refuse link target message => (s.executions.find (link, target)).bind fun x => s.refuse x message
  | .resume link target draw => (s.executions.find (link, target)).bind fun x => s.resume x draw
  | .settle link target => (s.executions.find (link, target)).bind s.settle

/-- No delivery is in flight, and every call has finished without an error. -/
def State.Finished (s : State) : Prop :=
  s.bus.inFlight = [] ∧ ∀ x ∈ s.executions.rows, x.frame = .settled none

end EspClawPlatform.Devices
