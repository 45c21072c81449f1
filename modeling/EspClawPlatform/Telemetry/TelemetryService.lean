import EspClawPlatform.Columns
import EspClawPlatform.Events

namespace EspClawPlatform.Telemetry

structure ExtractedSample where
  metric : String
  valueNumeric : Option Rat
  valueBool : Option Bool
  deriving DecidableEq

def extractSample : String × Json → Option ExtractedSample
  | (key, .num (.finite value)) => some { metric := key, valueNumeric := some value, valueBool := none }
  | (key, .bool value) => some { metric := key, valueNumeric := none, valueBool := some value }
  | _ => none

/-- `parse` is `JSON.parse`; it yields the members of an object as `Object.entries` lists them. -/
def extractSamples (parse : String → Option Json) (resultJson : Option String) : List ExtractedSample :=
  match resultJson.filter (· ≠ "") with
  | none => []
  | some text =>
      match parse text with
      | some (.obj members) => members.filterMap extractSample
      | _ => []

structure TelemetrySample where
  deviceId : String
  metric : String
  recordedAt : Nat
  valueNumeric : Option Rat
  valueBool : Option Bool
  source : String
  deriving DecidableEq

instance : Keyed TelemetrySample (String × String × Nat) := ⟨fun row => (row.deviceId, row.metric, row.recordedAt)⟩

def ExtractedSample.row (deviceId source : String) (recordedAt : Nat) (sample : ExtractedSample) :
    TelemetrySample where
  deviceId := deviceId
  metric := sample.metric
  recordedAt := recordedAt
  valueNumeric := sample.valueNumeric
  valueBool := sample.valueBool
  source := source

/-- The row as the column of the metric, a `varchar(64)`, holds it. -/
def TelemetrySample.held (row : TelemetrySample) : TelemetrySample := { row with metric := varchar 64 row.metric }

def admits (table : Table TelemetrySample) (row : TelemetrySample) : Bool :=
  fitsVarchar 64 row.metric && (table.find (Keyed.key row.held)).isNone

/-- One insert of several rows, all of them or none. -/
def insert (table : Table TelemetrySample) (rows : List TelemetrySample) : Option (Table TelemetrySample) :=
  rows.foldlM (fun table row => if admits table row then some (table.save row.held) else none) table

/-- The insert of `recordCapabilityResult` and the count it returns; without samples there is no insert. -/
def recordCapabilityResult (parse : String → Option Json) (table : Table TelemetrySample)
    (deviceId source : String) (recordedAt : Nat) (resultJson : Option String) :
    Option (Table TelemetrySample × Nat) :=
  let samples := extractSamples parse resultJson
  if samples = [] then some (table, 0)
  else (insert table (samples.map (ExtractedSample.row deviceId source recordedAt))).map
    fun table => (table, samples.length)

end EspClawPlatform.Telemetry
