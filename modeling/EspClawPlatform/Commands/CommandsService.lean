import EspClawPlatform.Mqtt.MqttService
import EspClawPlatform.Devices.Device

namespace EspClawPlatform.Commands

open Devices (Device)
open Mqtt (ResponseEnvelope)

structure Command where
  id : String
  deviceId : String
  name : String
  input : Record
  status : CommandStatus
  timeoutMs : Nat
  correlationId : Option String
  createdAt : Nat
  resolvedAt : Option Nat
  deriving DecidableEq

instance : Keyed Command String := ⟨Command.id⟩

structure CommandResult where
  commandId : String
  ok : Bool
  result : Option String
  receivedAt : Nat
  deriving DecidableEq

instance : Keyed CommandResult String := ⟨CommandResult.commandId⟩

/-- What is persisted and announced instead of the wire values. -/
structure LogicalOperation where
  name : String
  input : Record
  deriving DecidableEq

structure DispatchInput where
  name : String
  input : Option Record := none
  timeoutMs : Option Nat := none
  record : Option LogicalOperation := none
  deriving DecidableEq

structure DispatchOutcome where
  command : Command
  result : CommandResult
  deriving DecidableEq

def DEFAULT_TIMEOUT_MS : Nat := 15000

/-- The refusals of a platform_exec token with a fixed text. -/
def tokenRefusals : List String :=
  ["invalid token signature", "malformed token", "token expired", "token was issued for a different device",
    "token nonce already used", "platform secret not configured"]

/-- `capability '[^']*' cannot be triggered through platform_exec` at the start of a text. -/
def refusesCapability (text : String) : Bool :=
  match dropPrefix text "capability '" with
  | none => false
  | some rest =>
      startsWith (String.ofList (rest.toList.dropWhile (· ≠ Char.ofNat 39)))
        "' cannot be triggered through platform_exec"

def matchesDenial (text : String) : Bool :=
  includes text "is not exposed to the LLM" || startsWith text "Denied agent cap call" ||
    match dropPrefix text "Error: " with
    | none => false
    | some rest => tokenRefusals.any (startsWith rest) || refusesCapability rest

def classify (response : ResponseEnvelope) : CommandStatus :=
  if response.ok then .succeeded
  else
    let text := response.result.getD ""
    if matchesDenial text then .rejected
    else if includes text "timed out" then .timedOut
    else .failed

example : matchesDenial "Error: capability 'restart' cannot be triggered through platform_exec" := by
  decide +kernel

/-- A call of `dispatch`. `correlation` is the id that is drawn when the call is
made outside a request, and `failure` what the client library throws on
publish, if anything. -/
structure Call where
  deviceId : String
  input : DispatchInput
  context : Option RequestContext := none
  correlation : String := ""
  failure : Option String := none
  deriving DecidableEq

def Call.name (call : Call) : String := (call.input.record.map (·.name)).getD call.input.name

def Call.timeoutMs (call : Call) : Nat := call.input.timeoutMs.getD DEFAULT_TIMEOUT_MS

def Call.command (call : Call) (id : String) : Command where
  id := id
  deviceId := call.deviceId
  name := call.name
  input := (call.input.record.map (·.input)).getD (call.input.input.getD .empty)
  status := .pending
  timeoutMs := call.timeoutMs
  correlationId := some ((call.context.map (·.correlationId)).getD call.correlation)
  createdAt := 0
  resolvedAt := none

/-- Where a dispatch waits. A read or write of the database comes in two, for
the query that is under way and for its answer that is not yet taken up. -/
inductive Frame
  | finding (call : Call)
  | found (call : Call) (device : Option Device)
  | creating (call : Call) (device : Device) (command : Command) (startedAtMs : Nat)
  | created (call : Call) (device : Device) (command : Command) (startedAtMs : Nat)
  | sending (command : Command) (promise startedAtMs : Nat)
  | closing (command : Command) (response : ResponseEnvelope) (startedAtMs : Nat)
  | closed (command : Command) (response : ResponseEnvelope) (startedAtMs : Nat)
  | recording (command : Command) (response : ResponseEnvelope) (result : CommandResult) (startedAtMs : Nat)
  | recorded (command : Command) (response : ResponseEnvelope) (result : CommandResult) (startedAtMs : Nat)
  deriving DecidableEq

/-- `frames` holds the dispatches under way and `outcomes` what the others came
to, by the id of the command. `drawn` are the ids drawn so far, `swept` those
of the commands closed by a sweep, and `sweeping` is whether the sweep of this
process is still to come. -/
structure State where
  mqtt : Mqtt.State
  devices : Table Device := .empty
  commands : Table Command := .empty
  results : Table CommandResult := .empty
  frames : Table (String × Frame) := .empty
  outcomes : Table (String × Except String DispatchOutcome) := .empty
  drawn : List String := []
  swept : List String := []
  sweeping : Bool := true
  events : List Published := []

/-- `commit` and `refuse` are the two answers of the database to the query that
a dispatch has under way. -/
inductive Action
  | mqtt (action : Mqtt.Action)
  | registry (devices : Table Device)
  | dispatch (id : String) (call : Call)
  | commit (id : String)
  | refuse (id : String) (message : String)
  | resume (id : String)
  | sweep
  | sweepFails
  | restart (connected : Bool)

def Action.restarts : Action → Bool
  | .restart _ => true
  | _ => false

def State.now (s : State) : Nat := s.mqtt.now

def State.goto (s : State) (id : String) (f : Frame) : State := { s with frames := s.frames.set id f }

def State.finish (s : State) (id : String) (outcome : Except String DispatchOutcome) : State :=
  { s with frames := s.frames.erase id, outcomes := s.outcomes.set id outcome }

def State.dispatch (s : State) (id : String) (call : Call) : Option State :=
  if id ∈ s.drawn then none else some ({ s with drawn := id :: s.drawn }.goto id (.finding call))

def State.commit (s : State) (id : String) : Frame → Option State
  | .finding call => some (s.goto id (.found call (s.devices.find call.deviceId)))
  | .creating call device command startedAtMs =>
      let stored := { command with createdAt := s.now }
      some ({ s with commands := s.commands.save stored }.goto id (.created call device stored startedAtMs))
  | .closing command response startedAtMs =>
      some ({ s with commands := s.commands.save command }.goto id (.closed command response startedAtMs))
  | .recording command response result startedAtMs =>
      some ({ s with results := s.results.save result }.goto id
        (.recorded command response result startedAtMs))
  | _ => none

def State.refuse (s : State) (id message : String) : Frame → Option State
  | .finding _ | .creating .. | .closing .. | .recording .. => some (s.finish id (.error message))
  | _ => none

def createdEvent (call : Call) (command : Command) : Published :=
  { announce "module:commands" (.commandCreated command.id call.name call.timeoutMs) with
    deviceId := some call.deviceId
    causationId := some command.id
    correlationId := command.correlationId }

def completedEvent (command : Command) (ok : Bool) (durationMs : Nat) : Published :=
  { announce "module:commands" (.commandCompleted command.id command.name command.status ok durationMs) with
    deviceId := some command.deviceId
    causationId := some command.id
    correlationId := command.correlationId }

def errorResponse (id message : String) : ResponseEnvelope :=
  { id := id, capability := none, ok := false, result := some message }

/-- `resolveOutcome` up to its first await. -/
def State.resolveOutcome (s : State) (id : String) (command : Command) (response : ResponseEnvelope)
    (startedAtMs : Nat) : State :=
  s.goto id (.closing { command with status := classify response, resolvedAt := some s.now } response startedAtMs)

def State.result (s : State) (command : Command) (response : ResponseEnvelope) : CommandResult where
  commandId := command.id
  ok := response.ok
  result := response.result
  receivedAt := s.now

/-- `dispatch` from the saved row up to the await of the response. -/
def State.send (config : Mqtt.Config) (s : State) (id : String) (call : Call) (device : Device)
    (command : Command) (startedAtMs : Nat) : State :=
  let sent := s.mqtt.sendCommand config call.deviceId call.input.name (call.input.input.getD .empty)
    { baseTopic := some device.baseTopic, timeoutMs := some call.timeoutMs, id := some id } "" call.failure
  let t := { s with mqtt := sent.1, events := s.events ++ [createdEvent call command] }
  match sent.2 with
  | .ok promise => t.goto id (.sending command promise startedAtMs)
  | .error message => t.resolveOutcome id command (errorResponse id message) startedAtMs

def State.resume (config : Mqtt.Config) (s : State) (id : String) : Frame → Option State
  | .found call device =>
      match device with
      | none => some (s.finish id (.error s!"Device {call.deviceId} is not registered"))
      | some device => some (s.goto id (.creating call device (call.command id) s.now))
  | .created call device command startedAtMs => some (s.send config id call device command startedAtMs)
  | .sending command promise startedAtMs => do
      let p ← s.mqtt.commands.find promise
      match p.state with
      | .pending => none
      | .resolved response => some (s.resolveOutcome id command response startedAtMs)
      | .rejected message => some (s.resolveOutcome id command (errorResponse id message) startedAtMs)
  | .closed command response startedAtMs =>
      some (s.goto id (.recording command response (s.result command response) startedAtMs))
  | .recorded command response result startedAtMs =>
      some ({ s with events := s.events ++ [completedEvent command response.ok (s.now - startedAtMs)] }.finish id
        (.ok { command := command, result := result }))
  | _ => none

def Command.sweep (now : Nat) (c : Command) : Command :=
  if c.status = .pending then { c with status := .timedOut, resolvedAt := some now } else c

theorem Command.id_sweep (now : Nat) (c : Command) : (c.sweep now).id = c.id := by
  rw [Command.sweep]
  split <;> rfl

/-- `onModuleInit`. -/
def State.sweep (s : State) : State :=
  { s with
    commands := s.commands.modify (Command.sweep s.now) (Command.id_sweep s.now)
    swept := (s.commands.rows.filter fun c => c.status = .pending).map (·.id) ++ s.swept
    sweeping := false }

/-- The process stops wherever it is, and a new one starts. -/
def State.restart (s : State) (connected : Bool) : State :=
  { s with mqtt := s.mqtt.restart connected, frames := .empty, sweeping := true }

/-- No one but `dispatch` calls `sendCommand`. -/
def State.mqttStep (config : Mqtt.Config) (s : State) (action : Mqtt.Action) : Option State :=
  if action.sends then none
  else (Mqtt.step config s.mqtt action).map fun mqtt => { s with mqtt := mqtt }

def step (config : Mqtt.Config) (s : State) : Action → Option State
  | .mqtt action => s.mqttStep config action
  | .registry devices => some { s with devices := devices }
  | .dispatch id call => s.dispatch id call
  | .commit id => (s.frames.get id).bind (s.commit id)
  | .refuse id message => (s.frames.get id).bind (s.refuse id message)
  | .resume id => (s.frames.get id).bind (s.resume config id)
  | .sweep => if s.sweeping then some s.sweep else none
  | .sweepFails => if s.sweeping then some { s with sweeping := false } else none
  | .restart connected => some (s.restart connected)

def init (connected : Bool) : State := { mqtt := Mqtt.init connected }

end EspClawPlatform.Commands
