import EspClawPlatform.Lib.Text
import EspClawPlatform.Lib.Page
import EspClawPlatform.Events

namespace EspClawPlatform.Audit

def isAuditedEventType (type : String) : Bool :=
  type = "device.registered" ||
    type = "device.online" ||
    type = "device.offline" ||
    type = "device.command.created" ||
    type = "device.command.completed" ||
    type = "device.state.changed" ||
    startsWith type "device.ota." ||
    startsWith type "device.alert." ||
    startsWith type "agent." ||
    startsWith type "security."

structure EventLogRecord where
  eventId : String
  seq : Nat
  eventType : String
  schemaVersion : Nat
  occurredAt : Nat
  recordedAt : Nat
  deviceId : Option String
  organizationId : Option String
  source : String
  correlationId : String
  causationId : Option String
  traceId : Option String
  spanId : Option String
  payload : Payload
  deriving DecidableEq

instance : Keyed EventLogRecord String := ⟨EventLogRecord.eventId⟩

/-- The table `event_log`, with the last number its sequence has drawn. -/
structure EventLog where
  records : Table EventLogRecord := .empty
  drawn : Nat := 0

/-- An insert that ignores a conflict draws a number all the same. -/
def EventLog.insertOrIgnore (log : EventLog) (record : EventLogRecord) : EventLog where
  records := if (log.records.find record.eventId).isSome then log.records else log.records.save record
  drawn := log.drawn + 1

def recordIfAudited (log : EventLog) (now : Nat) (event : DomainEvent Payload) : EventLog :=
  if isAuditedEventType event.eventType then
    log.insertOrIgnore
      { eventId := event.eventId
        seq := log.drawn + 1
        eventType := event.eventType
        schemaVersion := event.schemaVersion
        occurredAt := event.timestamp
        recordedAt := now
        deviceId := event.deviceId
        organizationId := event.organizationId
        source := event.source
        correlationId := event.correlationId
        causationId := event.causationId
        traceId := event.traceId
        spanId := event.spanId
        payload := event.payload }
  else log

structure EventLogQuery where
  deviceId : Option String := none
  eventType : Option String := none
  correlationId : Option String := none
  beforeSeq : Option String := none
  limit : Nat

structure EventLogPage where
  items : List EventLogRecord
  nextCursor : Option String

/-- What the database reads as a `bigint`, among the numbers that have no sign. -/
def bigintOf (text : String) : Option Nat := (numberOf text).filter (· < 2 ^ 63)

/-- The clauses of `find` about one record, without the cursor; an empty filter is none. -/
def EventLogQuery.selects (query : EventLogQuery) (record : EventLogRecord) : Bool :=
  (query.deviceId.filter (· ≠ "")).all (fun deviceId => record.deviceId = some deviceId) &&
    (query.eventType.filter (· ≠ "")).all (fun eventType => record.eventType = eventType) &&
    (query.correlationId.filter (· ≠ "")).all fun correlationId => record.correlationId = correlationId

/-- The number that the cursor stands for; the outer `none` is the error of the database. -/
def EventLogQuery.before (query : EventLogQuery) : Option (Option Nat) :=
  match query.beforeSeq.filter (· ≠ "") with
  | none => some none
  | some text => (bigintOf text).map some

def EventLog.selected (log : EventLog) (query : EventLogQuery) (before : Option Nat) : List EventLogRecord :=
  log.records.rows.filter fun record => query.selects record && before.all (record.seq < ·)

/-- `none` is an error, of the database or of the cursor of an empty page. -/
def find (log : EventLog) (query : EventLogQuery) : Option EventLogPage := do
  let before ← query.before
  let rows := (Page.newestFirst EventLogRecord.seq (log.selected query before)).take (query.limit + 1)
  if query.limit < rows.length then
    let items := rows.take query.limit
    let last ← items.getLast?
    some { items := items, nextCursor := some (toString last.seq) }
  else some { items := rows, nextCursor := none }

def acceptsBeforeSeq (text : String) : Bool :=
  text.toList.all Char.isDigit && 1 ≤ text.length && text.length ≤ 19

theorem records_of_recorded {log : EventLog} {event : DomainEvent Payload}
    (h : isAuditedEventType event.eventType = true → (log.records.find event.eventId).isSome = true) (now : Nat) :
    (recordIfAudited log now event).records = log.records := by
  rw [recordIfAudited]
  split
  · rename_i ha
    exact if_pos (h ha)
  · rfl

theorem find_inserted (log : EventLog) (record : EventLogRecord) :
    ((log.insertOrIgnore record).records.find record.eventId).isSome = true := by
  rw [EventLog.insertOrIgnore]
  simp only
  split
  · assumption
  · have hsaved : (log.records.save record).find record.eventId = some record := Table.find_save_self log.records record
    rw [hsaved]
    rfl

theorem find_recorded {log : EventLog} {now : Nat} {event : DomainEvent Payload}
    (h : isAuditedEventType event.eventType = true) :
    ((recordIfAudited log now event).records.find event.eventId).isSome = true := by
  rw [recordIfAudited, if_pos h]
  exact find_inserted log _

end EspClawPlatform.Audit
