import EspClawPlatform.Audit.EventLogService
import EspClawPlatform.Bus.Listener

namespace EspClawPlatform.Audit

open Bus (Attempt AttemptsShape HandlerRun Subscription Thrown Timed TimedAction)
open Run

/-- The subscription of `onModuleInit`, which is the first one and is never given up. -/
def recorder : Subscription where
  id := 0
  pattern := "**"
  name := "audit.event-log"
  retries := 3
  backoffMs := 200
  timeoutMs := Bus.DEFAULT_TIMEOUT_MS

/-- Where a call of `recordIfAudited` stands; `failure` is the error that its query was answered with. -/
inductive Frame
  | inserting
  | returned (failure : Option String)
  | settled (failure : Option String)
  deriving DecidableEq

structure Execution where
  link : Nat
  target : Nat
  attempt : Nat
  event : DomainEvent Payload
  frame : Frame
  deriving DecidableEq

instance : Keyed Execution (Nat × Nat × Nat) := ⟨fun x => (x.link, x.target, x.attempt)⟩

structure State where
  bus : Timed Payload
  log : EventLog
  executions : Table Execution := .empty

def init (log : EventLog) : State where
  bus := { bus := Bus.init.subscribe "**" { name := "audit.event-log", retries := some 3, backoffMs := some 200 } }
  log := log

example (log : EventLog) : (init log).bus.bus.subscriptions = [recorder] := rfl

/-- An insert may take effect although its answer is an error, when the
connection is lost in between; one that fails may have drawn a number. -/
inductive Action
  | bus (action : TimedAction Payload)
  | insert (link target attempt now : Nat) (failure : Option String)
  | refuse (link target attempt : Nat) (drew : Bool) (message : String)
  | settle (link target attempt : Nat)

def begin (event : DomainEvent Payload) : Frame :=
  if isAuditedEventType event.eventType then .inserting else .returned none

def State.called (s : State) : TimedAction Payload → Table Execution
  | .bus (.invoke link target) =>
      match s.bus.bus.heardBy recorder link target with
      | none => s.executions
      | some event =>
          s.executions.save
            { link := link, target := target, attempt := (s.bus.attemptsAt link target).length
              event := event, frame := begin event }
  | _ => s.executions

/-- What the rest of the platform and the runtime may do with the bus: the end
of `recordIfAudited` is not theirs, nor is its subscription. -/
def State.outside (s : State) : TimedAction Payload → Bool
  | .bus (.unsubscribe id) => id ≠ recorder.id
  | .ends link target _ _ => (s.bus.bus.heardBy recorder link target).isNone
  | _ => true

def State.goto (s : State) (x : Execution) (f : Frame) : State :=
  { s with executions := s.executions.save { x with frame := f } }

def State.insert (s : State) (x : Execution) (now : Nat) (failure : Option String) : Option State :=
  if x.frame = .inserting then
    some ({ s with log := recordIfAudited s.log now x.event }.goto x (.returned failure))
  else none

def State.refuse (s : State) (x : Execution) (drew : Bool) (message : String) : Option State :=
  if x.frame = .inserting then
    some ({ s with log := { s.log with drawn := s.log.drawn + drew.toNat } }.goto x (.returned (some message)))
  else none

def result (failure : Option String) : Except Thrown Unit :=
  match failure with
  | none => .ok ()
  | some message => .error (Thrown.error message)

def State.settle (s : State) (x : Execution) : Option State :=
  match x.frame with
  | .returned failure =>
      (s.bus.ends x.link x.target x.attempt (result failure)).map fun bus =>
        { s with bus := bus }.goto x (.settled failure)
  | _ => none

def step (s : State) : Action → Option State
  | .bus action =>
      if s.outside action then
        (s.bus.step action).map fun bus => { s with bus := bus, executions := s.called action }
      else none
  | .insert link target attempt now failure =>
      (s.executions.find (link, target, attempt)).bind fun x => s.insert x now failure
  | .refuse link target attempt drew message =>
      (s.executions.find (link, target, attempt)).bind fun x => s.refuse x drew message
  | .settle link target attempt => (s.executions.find (link, target, attempt)).bind s.settle

def recordOf (event : DomainEvent Payload) (seq recordedAt : Nat) : EventLogRecord where
  eventId := event.eventId
  seq := seq
  eventType := event.eventType
  schemaVersion := event.schemaVersion
  occurredAt := event.timestamp
  recordedAt := recordedAt
  deviceId := event.deviceId
  organizationId := event.organizationId
  source := event.source
  correlationId := event.correlationId
  causationId := event.causationId
  traceId := event.traceId
  spanId := event.spanId
  payload := event.payload

section Log

variable {log : EventLog} {event : DomainEvent Payload} {now : Nat} {record : EventLogRecord}

theorem recordIfAudited_eq (h : isAuditedEventType event.eventType = true) :
    recordIfAudited log now event = log.insertOrIgnore (recordOf event (log.drawn + 1) now) :=
  if_pos h

theorem find_insertOrIgnore (id : String) : (log.insertOrIgnore record).records.find id =
    if (log.records.find record.eventId).isSome = false ∧ id = record.eventId then some record
    else log.records.find id := by
  rw [EventLog.insertOrIgnore]
  simp only
  cases hfind : (log.records.find record.eventId).isSome with
  | true => rw [if_pos rfl, if_neg fun h => Bool.noConfusion h.1]
  | false =>
      rw [if_neg Bool.false_ne_true, Table.find_save]
      exact if_congr (and_iff_right rfl).symm rfl rfl

def Extends (log log' : EventLog) : Prop :=
  log.drawn ≤ log'.drawn ∧ ∀ id record, log.records.find id = some record → log'.records.find id = some record

theorem extends_recorded (log : EventLog) (now : Nat) (event : DomainEvent Payload) :
    Extends log (recordIfAudited log now event) := by
  rw [recordIfAudited]
  split
  · refine ⟨Nat.le_succ _, fun id record h => ?_⟩
    rw [find_insertOrIgnore, if_neg, h]
    rintro ⟨hnone, rfl⟩
    rw [h] at hnone
    cases hnone
  · exact ⟨Nat.le_refl _, fun _ _ h => h⟩

theorem find_recorded_new {id : String} (h : (recordIfAudited log now event).records.find id = some record)
    (hnone : log.records.find id = none) :
    isAuditedEventType event.eventType = true ∧ record = recordOf event (log.drawn + 1) now := by
  rw [recordIfAudited] at h
  split at h
  · rename_i ha
    rw [find_insertOrIgnore] at h
    split at h
    · exact ⟨ha, (Option.some.inj h).symm⟩
    · rw [hnone] at h
      cases h
  · rw [hnone] at h
    cases h

end Log

end EspClawPlatform.Audit
