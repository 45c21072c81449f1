import EspClawPlatform.Events

namespace EspClawPlatform.Twin

structure DeviceShadow where
  deviceId : String
  desired : Record
  reported : Record
  desiredVersion : Nat
  reportedVersion : Nat
  deriving DecidableEq

instance : Keyed DeviceShadow String := ⟨DeviceShadow.deviceId⟩

def emptyShadow (deviceId : String) : DeviceShadow where
  deviceId := deviceId
  desired := .empty
  reported := .empty
  desiredVersion := 0
  reportedVersion := 0

abbrev ReportedSample := TelemetrySample

inductive Call
  | setDesired (deviceId : String) (patch : Record)
  | mergeReported (deviceId : String) (samples : List ReportedSample)
  deriving DecidableEq

def Call.deviceId : Call → String
  | .setDesired deviceId _ => deviceId
  | .mergeReported deviceId _ => deviceId

def onTelemetryUpdated (event : DomainEvent Payload) : Option Call :=
  match event.payload, event.deviceId with
  | .telemetryUpdated _ _ samples, some id => if id = "" then none else some (.mergeReported id samples)
  | _, _ => none

def Call.isNoop : Call → Bool
  | .mergeReported _ [] => true
  | _ => false

/-- `{ ...desired, ...patch }`. -/
def spread (desired patch : Record) : Record := patch.rows.foldl (fun r m => r.set m.1 m.2) desired

/-- `reported[sample.metric] = sample.value`. Unless `__proto__` is an own
property, assigning to it runs the setter of `Object.prototype`, which ignores
a number or a boolean. -/
def assign (reported : Record) (sample : ReportedSample) : Record :=
  if sample.metric = "__proto__" ∧ reported.get "__proto__" = none then reported
  else reported.set sample.metric sample.value

def Call.update : Call → DeviceShadow → DeviceShadow
  | .setDesired _ patch, row =>
      { row with desired := spread row.desired patch, desiredVersion := row.desiredVersion + 1 }
  | .mergeReported _ samples, row =>
      { row with reported := samples.foldl assign row.reported, reportedVersion := row.reportedVersion + 1 }

/-- `===` of two values from different documents, of which objects are never equal. -/
def strictEqual : Json → Option Json → Bool
  | .null, some .null => true
  | .bool a, some (.bool b) => a = b
  | .num a, some (.num b) => a = b && a ≠ .nan
  | .str a, some (.str b) => a = b
  | _, _ => false

structure Drift where
  drift : List String
  inSync : Bool
  deriving DecidableEq

def computeDrift (desired reported : Record) : Drift :=
  let drift := (desired.rows.filter fun m => !strictEqual m.2 (reported.get m.1)).map Prod.fst
  { drift := drift, inSync := drift.length = 0 }

structure ShadowView where
  shadow : DeviceShadow
  drift : Drift
  deriving DecidableEq

def DeviceShadow.view (row : DeviceShadow) : ShadowView :=
  { shadow := row, drift := computeDrift row.desired row.reported }

/-- Where a call waits for a query or for its turn to take up the answer. A call
that saves keeps the row as it was loaded; what it saves is the update of that. -/
inductive Frame
  | finding (call : Call)
  | found (call : Call) (row : Option DeviceShadow)
  | creating (call : Call)
  | created (call : Call) (row : DeviceShadow)
  | saving (call : Call) (row : DeviceShadow)
  | saved (call : Call) (row : DeviceShadow)
  deriving DecidableEq

/-- The calls are numbered. `frames` holds those under way, `views` what
`setDesired` has returned and `saved` the calls that have saved their row, in
the order they did. -/
structure State where
  shadows : Table DeviceShadow
  frames : Table (Nat × Frame) := .empty
  views : Table (Nat × ShadowView) := .empty
  calls : List Call := []
  saved : List Call := []
  events : List Published := []

inductive Action
  | begins (call : Call)
  | commit (k : Nat)
  | resume (k : Nat)

def State.goto (s : State) (k : Nat) (f : Frame) : State := { s with frames := s.frames.set k f }

def State.begins (s : State) (call : Call) : State :=
  let t := { s with calls := s.calls ++ [call] }
  if call.isNoop then t else t.goto s.calls.length (.finding call)

def State.commit (s : State) (k : Nat) : Frame → Option State
  | .finding call => some (s.goto k (.found call (s.shadows.find call.deviceId)))
  | .creating call =>
      let row := emptyShadow call.deviceId
      some ({ s with shadows := s.shadows.save row }.goto k (.created call row))
  | .saving call row =>
      let row := call.update row
      some ({ s with shadows := s.shadows.save row, saved := s.saved ++ [call] }.goto k (.saved call row))
  | _ => none

def stateChangedEvent (deviceId : String) (patch : Record) (view : ShadowView) : Published :=
  { announce "module:twin" (.stateChanged patch view.shadow.desiredVersion view.drift.drift) with
    deviceId := some deviceId }

def State.finish (s : State) (k : Nat) (call : Call) (row : DeviceShadow) : State :=
  match call with
  | .setDesired deviceId patch =>
      { s with
        frames := s.frames.erase k
        views := s.views.set k row.view
        events := s.events ++ [stateChangedEvent deviceId patch row.view] }
  | .mergeReported .. => { s with frames := s.frames.erase k }

def State.resume (s : State) (k : Nat) : Frame → Option State
  | .found call row =>
      match row with
      | some row => some (s.goto k (.saving call row))
      | none => some (s.goto k (.creating call))
  | .created call row => some (s.goto k (.saving call row))
  | .saved call row => some (s.finish k call row)
  | _ => none

def step (s : State) : Action → Option State
  | .begins call => some (s.begins call)
  | .commit k => (s.frames.get k).bind (s.commit k)
  | .resume k => (s.frames.get k).bind (s.resume k)

def init (shadows : Table DeviceShadow) : State := { shadows := shadows }

end EspClawPlatform.Twin
