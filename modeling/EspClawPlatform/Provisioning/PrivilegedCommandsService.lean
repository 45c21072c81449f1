import EspClawPlatform.Commands.CommandsService
import EspClawPlatform.Provisioning.PlatformExec

namespace EspClawPlatform.Provisioning

open Commands (DispatchOutcome)

/-- `masterKey` is `PLATFORM_MASTER_KEY` decoded, when it is set. -/
structure Config where
  runtime : Runtime
  masterKey : Option (List UInt8)
  mqtt : Mqtt.Config

/-- A call of `execute`, with the clock and the nonce of its token. `context`,
`correlation` and `failure` are those of the dispatch that it makes. -/
structure Request where
  deviceId : String
  capability : String
  input : Record
  actor : Option String
  timeoutMs : Option Nat := none
  nowSeconds : Int := 0
  nonce : String := ""
  context : Option RequestContext := none
  correlation : String := ""
  failure : Option String := none
  deriving DecidableEq

inductive Refusal
  | badRequest (message : String)
  | unprocessableEntity (message : String)
  | serviceUnavailable (message : String)
  | plain (message : String)
  deriving DecidableEq

def refusal : IssueError → Refusal
  | .token error => if error.kind = .tooLarge then .unprocessableEntity error.message else .badRequest error.message
  | .unavailable message => .serviceUnavailable message
  | .plain message => .plain message

def prepare (config : Config) (request : Request) : Except IssueError String := do
  (validatePrivilegedInput request.capability request.input).mapError .token
  issue config.runtime config.masterKey request.deviceId request.capability request.input request.nowSeconds
    request.nonce

/-- The dispatch of a request: the token goes on the wire, and the logical
operation on record. -/
def Request.call (request : Request) (token : String) : Commands.Call where
  deviceId := request.deviceId
  input :=
    { name := "platform_exec"
      input := some (Table.empty.set "token" (.str token))
      timeoutMs := request.timeoutMs
      record := some { name := "platform_exec:" ++ request.capability, input := redactInput request.input } }
  context := request.context
  correlation := request.correlation
  failure := request.failure

structure Ended where
  request : Request
  outcome : Except String DispatchOutcome
  deriving DecidableEq

/-- `waiting` holds the calls of `execute` that await their dispatch, by the id
of the command, and `ended` those that did. `refused` are the errors of the
calls that came to no dispatch. -/
structure State where
  commands : Commands.State
  waiting : Table (String × Request) := .empty
  ended : Table (String × Ended) := .empty
  refused : List Refusal := []
  events : List Published := []

/-- The dispatches that are not those of `execute` are among the actions of the
commands service. -/
inductive Action
  | commands (action : Commands.Action)
  | execute (id : String) (request : Request)
  | resume (id : String)

def State.execute (config : Config) (s : State) (id : String) (request : Request) : Option State :=
  if !isPlatformExecTarget request.capability then
    some { s with refused := s.refused ++ [.badRequest (cannotBeTriggered request.capability)] }
  else
    match prepare config request with
    | .error error => some { s with refused := s.refused ++ [refusal error] }
    | .ok token =>
        (s.commands.dispatch id (request.call token)).map fun commands =>
          { s with commands := commands, waiting := s.waiting.set id request }

def executedEvent (request : Request) (outcome : DispatchOutcome) : Published :=
  { announce "module:provisioning"
      (.privilegedExecuted outcome.command.id request.capability request.actor outcome.command.status) with
    deviceId := some request.deviceId
    causationId := some outcome.command.id }

def State.finish (s : State) (id : String) (request : Request)
    (outcome : Except String DispatchOutcome) : State :=
  { s with
    waiting := s.waiting.erase id
    ended := s.ended.set id { request := request, outcome := outcome } }

def State.resume (s : State) (id : String) : Option State := do
  let request ← s.waiting.get id
  match ← s.commands.outcomes.get id with
  | .error message => some (s.finish id request (.error message))
  | .ok outcome =>
      some ({ s with events := s.events ++ [executedEvent request outcome] }.finish id request (.ok outcome))

def step (config : Config) (s : State) : Action → Option State
  | .commands action =>
      (Commands.step config.mqtt s.commands action).map fun commands =>
        { s with commands := commands, waiting := if action.restarts then .empty else s.waiting }
  | .execute id request => s.execute config id request
  | .resume id => s.resume id

def init (connected : Bool) : State := { commands := Commands.init connected }

end EspClawPlatform.Provisioning
