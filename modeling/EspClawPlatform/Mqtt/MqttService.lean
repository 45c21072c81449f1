import EspClawPlatform.Lib.Run
import EspClawPlatform.Events
import EspClawPlatform.Mqtt.Topics
import EspClawPlatform.Mqtt.Envelope

namespace EspClawPlatform.Mqtt

def DEFAULT_COMMAND_TIMEOUT_MS : Nat := 15000

/-- What the service is configured with; `parse` is `JSON.parse`. -/
structure Config where
  defaultBaseTopic : String
  parse : String → Option Json

structure SendOptions where
  baseTopic : Option String := none
  timeoutMs : Option Nat := none
  id : Option String := none

inductive PromiseState
  | pending
  | resolved (response : ResponseEnvelope)
  | rejected (message : String)
  deriving DecidableEq

structure Message where
  topic : String
  envelope : CommandEnvelope
  deriving DecidableEq

/-- A promise that `sendCommand` has returned, with what its closures hold and
the message published for it, if any. The promises are numbered; `armed` is
whether the timer is still to fire. -/
structure Command where
  promise : Nat
  id : String
  deviceId : String
  timeoutMs : Nat
  message : Option Message := none
  state : PromiseState
  armed : Bool := false
  deriving DecidableEq

instance : Keyed Command Nat := ⟨Command.promise⟩

@[simp]
theorem key_command (c : Command) : Keyed.key c = c.promise := rfl

structure DevicePresence where
  deviceId : String
  online : Bool
  lastSeenAt : Nat
  deriving DecidableEq

/-- `pending` maps the ids in flight to their promises. `commands` keeps every
promise made and `wire` every command published. -/
structure State where
  connected : Bool := true
  closing : Bool := false
  now : Nat := 0
  presence : Table (String × DevicePresence) := .empty
  pending : Table (String × Nat) := .empty
  sent : Nat := 0
  commands : Table Command := .empty
  wire : List Message := []
  events : List Published := []

/-- `failure` is what the client library throws on publish, if anything, and
`fresh` the id that is drawn when the caller gives none. -/
inductive Action
  | tick (ms : Nat)
  | sendCommand (deviceId name : String) (input : Record) (options : SendOptions) (fresh : String)
      (failure : Option String)
  | message (topic payload : String)
  | timer (promise : Nat)
  | destroy
  | ended

def Action.sends : Action → Bool
  | .sendCommand .. => true
  | _ => false

def notConnected : String := "MQTT client is not connected (MQTT_URL not set)"

def timedOut (c : Command) : String :=
  s!"Command {c.id} to device {c.deviceId} timed out after {c.timeoutMs}ms"

def State.returnRejected (s : State) (id deviceId : String) (timeoutMs : Nat) (message : String) : State :=
  { s with
    sent := s.sent + 1
    commands := s.commands.save
      { promise := s.sent, id := id, deviceId := deviceId, timeoutMs := timeoutMs,
        state := .rejected message } }

def State.await (s : State) (deviceId : String) (timeoutMs : Nat) (message : Message) : State :=
  { s with
    sent := s.sent + 1
    pending := s.pending.set message.envelope.id s.sent
    commands := s.commands.save
      { promise := s.sent, id := message.envelope.id, deviceId := deviceId, timeoutMs := timeoutMs,
        message := some message, state := .pending, armed := true }
    wire := s.wire ++ [message] }

/-- The topic of `sendCommand`; an empty base topic counts as none. -/
def commandTopic (config : Config) (deviceId : String) (baseTopic : Option String) : Except String String :=
  match baseTopic with
  | some base =>
      if base = "" then buildTopic config.defaultBaseTopic deviceId .command
      else buildTopic base deviceId .command
  | none => buildTopic config.defaultBaseTopic deviceId .command

/-- The call returns a promise, except that a topic that cannot be built throws. -/
def State.sendCommand (config : Config) (s : State) (deviceId name : String) (input : Record)
    (options : SendOptions) (fresh : String) (failure : Option String) : State × Except String Nat :=
  let timeoutMs := options.timeoutMs.getD DEFAULT_COMMAND_TIMEOUT_MS
  let id := options.id.getD fresh
  if !s.connected then (s.returnRejected id deviceId timeoutMs notConnected, .ok s.sent)
  else if (s.pending.get id).isSome then
    (s.returnRejected id deviceId timeoutMs s!"Command id {id} is already in flight", .ok s.sent)
  else
    match commandTopic config deviceId options.baseTopic with
    | .error message => (s, .error message)
    | .ok topic =>
        match failure with
        | some message => (s.returnRejected id deviceId timeoutMs message, .ok s.sent)
        | none =>
            (s.await deviceId timeoutMs { topic := topic, envelope := { id := id, name := name, input := input } },
              .ok s.sent)

def State.handleStatus (s : State) (deviceId baseTopic : String) (json : Json) : State :=
  match parseStatusEnvelope json with
  | none => s
  | some status =>
      { s with
        presence := s.presence.set deviceId
          { deviceId := deviceId, online := status.online, lastSeenAt := s.now }
        events := s.events ++
          [{ announce "gateway:mqtt" (.presenceReported baseTopic status.online) with deviceId := some deviceId }] }

/-- Settling a promise twice has no effect, and clears its timer in any case. -/
def Command.settle (c : Command) (state : PromiseState) : Command :=
  { c with state := if c.state = .pending then state else c.state, armed := false }

def State.handleResponse (s : State) (json : Json) : State :=
  match parseResponseEnvelope json with
  | none => s
  | some response =>
      match s.pending.get response.id with
      | none => s
      | some promise =>
          { s with
            pending := s.pending.erase response.id
            commands := (s.commands.find promise).elim s.commands fun c =>
              s.commands.save (c.settle (.resolved response)) }

def State.handleMessage (config : Config) (s : State) (topic payload : String) : State :=
  match parseTopic topic with
  | none => s
  | some parsed =>
      match config.parse payload with
      | none => s
      | some json =>
          if parsed.leaf = "status" then s.handleStatus parsed.deviceId parsed.baseTopic json
          else if parsed.leaf = "response" then s.handleResponse json
          else s

def State.fire (s : State) (promise : Nat) : Option State := do
  let c ← s.commands.find promise
  if c.armed then
    some { s with
      pending := s.pending.erase c.id
      commands := s.commands.save (c.settle (.rejected (timedOut c))) }
  else none

def State.clearTimers (s : State) : Table Command :=
  (s.pending.rows.map Prod.snd).foldl
    (fun commands promise => (commands.find promise).elim commands fun c => commands.save
      { c with armed := false })
    s.commands

/-- `onModuleDestroy` up to its await of `client.end`. -/
def State.onModuleDestroy (s : State) : State :=
  { s with pending := .empty, commands := s.clearTimers, closing := s.connected }

def step (config : Config) (s : State) : Action → Option State
  | .tick ms => some { s with now := s.now + ms }
  | .sendCommand deviceId name input options fresh failure =>
      some (s.sendCommand config deviceId name input options fresh failure).1
  | .message topic payload => if s.connected then some (s.handleMessage config topic payload) else none
  | .timer promise => s.fire promise
  | .destroy => some s.onModuleDestroy
  | .ended => if s.closing then some { s with connected := false } else none

def init (connected : Bool) : State := { connected := connected }

/-- A new process, which knows nothing of the promises of the old one. -/
def State.restart (s : State) (connected : Bool) : State :=
  { connected := connected, now := s.now, wire := s.wire, events := s.events }

end EspClawPlatform.Mqtt
