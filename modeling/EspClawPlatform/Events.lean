import EspClawPlatform.Json

namespace EspClawPlatform

structure RequestContext where
  correlationId : String
  traceId : Option String
  spanId : Option String
  deriving DecidableEq

structure DomainEvent (P : Type) where
  eventId : String
  eventType : String
  schemaVersion : Nat
  timestamp : Nat
  deviceId : Option String
  organizationId : Option String
  source : String
  correlationId : String
  causationId : Option String
  traceId : Option String
  spanId : Option String
  sequence : Option Nat
  idempotencyKey : Option String
  payload : P
  deriving DecidableEq

structure CreateEventInput (P : Type) where
  type : String
  source : String
  payload : P
  deviceId : Option String := none
  causationId : Option String := none
  idempotencyKey : Option String := none
  correlationId : Option String := none
  occurredAt : Option Nat := none
  schemaVersion : Option Nat := none
  deriving DecidableEq

/-- `eventId` and `freshCorrelation` are the two UUIDs the call may draw. -/
def createEvent {P : Type} (ctx : Option RequestContext) (eventId freshCorrelation : String) (now : Nat)
    (input : CreateEventInput P) : DomainEvent P where
  eventId := eventId
  eventType := input.type
  schemaVersion := input.schemaVersion.getD 1
  timestamp := input.occurredAt.getD now
  deviceId := input.deviceId
  organizationId := none
  source := input.source
  correlationId := input.correlationId.getD ((ctx.map (·.correlationId)).getD freshCorrelation)
  causationId := input.causationId
  traceId := ctx.bind (·.traceId)
  spanId := ctx.bind (·.spanId)
  sequence := none
  idempotencyKey := input.idempotencyKey
  payload := input.payload

inductive Role
  | admin | operator | viewer
  deriving DecidableEq

inductive CommandStatus
  | pending | succeeded | failed | rejected | timedOut
  deriving DecidableEq

inductive PasswordChangedBy
  | self | admin
  deriving DecidableEq

inductive LockScope
  | account | address
  deriving DecidableEq

structure UserChanges where
  role : Option (Role × Role) := none
  disabled : Option Bool := none
  deriving DecidableEq

structure TelemetrySample where
  metric : String
  value : Json
  deriving DecidableEq

inductive Payload
  | presenceReported (baseTopic : String) (online : Bool)
  | deviceRegistered (baseTopic : String)
  | deviceOnline (previous : Bool)
  | deviceOffline (previous : Bool)
  | commandCreated (commandId name : String) (timeoutMs : Nat)
  | commandCompleted (commandId name : String) (status : CommandStatus) (ok : Bool) (durationMs : Nat)
  | userCreated (userId email : String) (role : Role) (actor : Option String)
  | userUpdated (userId email : String) (changes : UserChanges) (actor : Option String)
  | passwordChanged (userId email : String) (by_ : PasswordChangedBy) (actor : Option String)
  | loginSucceeded (userId email address : String)
  | loginLocked (scope : LockScope) (email address : String)
  | privilegedExecuted (commandId capability : String) (actor : Option String) (status : CommandStatus)
  | telemetryUpdated (source : String) (count : Nat) (samples : List TelemetrySample)
  | stateChanged (changed : Record) (desiredVersion : Nat) (drift : List String)
  deriving DecidableEq

def Payload.eventType : Payload → String
  | .presenceReported .. => "device.presence.reported"
  | .deviceRegistered .. => "device.registered"
  | .deviceOnline .. => "device.online"
  | .deviceOffline .. => "device.offline"
  | .commandCreated .. => "device.command.created"
  | .commandCompleted .. => "device.command.completed"
  | .telemetryUpdated .. => "device.telemetry.updated"
  | .stateChanged .. => "device.state.changed"
  | .userCreated .. => "security.user.created"
  | .userUpdated .. => "security.user.updated"
  | .passwordChanged .. => "security.password.changed"
  | .loginSucceeded .. => "security.login.succeeded"
  | .loginLocked .. => "security.login.locked"
  | .privilegedExecuted .. => "security.privileged.executed"

/-- What a service hands to `createEvent`; its type is that of its payload. -/
abbrev Published := CreateEventInput Payload

def announce (source : String) (payload : Payload) : Published where
  type := payload.eventType
  source := source
  payload := payload

end EspClawPlatform
