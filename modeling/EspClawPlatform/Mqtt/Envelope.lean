import EspClawPlatform.Json

namespace EspClawPlatform.Mqtt

structure CommandEnvelope where
  id : String
  name : String
  input : Record
  deriving DecidableEq

structure ResponseEnvelope where
  id : String
  capability : Option String
  ok : Bool
  result : Option String
  deriving DecidableEq

structure StatusEnvelope where
  online : Bool
  deriving DecidableEq

/-- `z.string().min(1)` on a property; `none` is a parse error. -/
def requiredString (raw : Json) (name : String) : Option String :=
  match raw.property name with
  | some (.str value) => if value = "" then none else some value
  | _ => none

def optionalString (raw : Json) (name : String) : Option (Option String) :=
  match raw.property name with
  | none => some none
  | some (.str value) => some (some value)
  | _ => none

def requiredBool (raw : Json) (name : String) : Option Bool :=
  match raw.property name with
  | some (.bool value) => some value
  | _ => none

/-- A value that is not an object has no properties and is refused with them. -/
def parseResponseEnvelope (raw : Json) : Option ResponseEnvelope := do
  let id ← requiredString raw "id"
  let capability ← optionalString raw "capability"
  let ok ← requiredBool raw "ok"
  let result ← optionalString raw "result"
  some { id := id, capability := capability, ok := ok, result := result }

def parseStatusEnvelope (raw : Json) : Option StatusEnvelope := do
  let online ← requiredBool raw "online"
  some { online := online }

end EspClawPlatform.Mqtt
