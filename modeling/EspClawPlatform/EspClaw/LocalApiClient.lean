import EspClawPlatform.EspClaw.LocalTarget

namespace EspClawPlatform.EspClaw

def MAX_RESPONSE_BYTES : Nat := 256 * 1024

def ALLOWED_PATHS : List String := ["/api/capabilities", "/api/status"]

inductive Thrown
  | localTarget (message : String)
  | error (message : String)
  | schema
  deriving DecidableEq

inductive Redirect
  | follow | error | manual
  deriving DecidableEq

structure FetchRequest where
  url : String
  accept : String
  redirect : Redirect
  deriving DecidableEq

structure Response where
  ok : Bool
  status : Nat
  contentLength : Option String
  deriving DecidableEq

structure CapabilityGroup where
  groupId : String
  displayName : String
  defaultLlmVisible : Bool
  deriving DecidableEq

structure CapabilityCatalog where
  items : List CapabilityGroup
  deriving DecidableEq

def parseCapabilityGroup : Json → Option CapabilityGroup
  | .obj members => do
      let groupId ←
        match (Json.obj members).property "group_id" with
        | some (.str text) => if text = "" then none else some text
        | _ => none
      let displayName ←
        match (Json.obj members).property "display_name" with
        | none => some ""
        | some (.str text) => some text
        | _ => none
      let defaultLlmVisible ←
        match (Json.obj members).property "default_llm_visible" with
        | none => some false
        | some (.bool visible) => some visible
        | _ => none
      return { groupId, displayName, defaultLlmVisible }
  | _ => none

def parseCapabilityCatalog : Json → Option CapabilityCatalog
  | .obj members =>
      match (Json.obj members).property "items" with
      | none => some { items := [] }
      | some (.arr items) => (items.mapM parseCapabilityGroup).map fun items => { items := items }
      | _ => none
  | _ => none

/-- Sorted as `sort` does it, by the code units of the texts. -/
def capabilityGroupIds (catalog : CapabilityCatalog) : List String :=
  (catalog.items.map (·.groupId)).eraseDups.mergeSort fun g h => !(utf16 h).lex (utf16 g)

theorem mem_capabilityGroupIds {catalog : CapabilityCatalog} {g : String} :
    g ∈ capabilityGroupIds catalog ↔ g ∈ catalog.items.map (·.groupId) := by
  rw [capabilityGroupIds, List.mem_mergeSort, List.mem_eraseDups]

def isBool : Json → Bool
  | .bool _ => true
  | _ => false

def isStr : Json → Bool
  | .str _ => true
  | _ => false

/-- A status keeps the members it does not know. -/
def parseLocalStatus : Json → Option Json
  | .obj members =>
      if ["wifi_connected", "ap_active"].all (fun name => ((Json.obj members).property name).all isBool) &&
          ["ip", "ap_ssid", "ap_ip", "wifi_mode", "storage_base_path"].all fun name =>
            ((Json.obj members).property name).all isStr then
        some (.obj members)
      else none
  | _ => none

variable (web : Web) (allowedHosts : List String)

def validateBaseUrl (baseUrl : String) : Except String String :=
  (assertSafeLocalTarget web baseUrl allowedHosts).map Url.origin

/-- `getJson` up to its request. -/
def getJson (baseUrl path : String) : Except Thrown FetchRequest :=
  if path ∉ ALLOWED_PATHS then .error (.error s!"LocalApiClient refuses non-introspection path: {path}")
  else
    match assertSafeLocalTarget web baseUrl allowedHosts with
    | .error message => .error (.localTarget message)
    | .ok target =>
        match web.resolve path target with
        | none => .error (.error "Invalid URL")
        | some url => .ok { url := url.href, accept := "application/json", redirect := .manual }

/-- `getJson` once there is a response. -/
def gotResponse (url : String) (res : Response) : Except Thrown Unit :=
  let declared := (res.contentLength.bind numberOf).getD 0
  if !res.ok then .error (.error s!"GET {url} -> HTTP {res.status}")
  else if MAX_RESPONSE_BYTES < declared then
    .error (.error s!"GET {url} -> response too large ({declared} bytes)")
  else .ok ()

/-- `getJson` once the body has been read. -/
def gotText (url text : String) : Except Thrown Json :=
  if MAX_RESPONSE_BYTES < utf16Length text then .error (.error s!"GET {url} -> response too large")
  else
    match web.parseJson text with
    | none => .error (.error "Unexpected token")
    | some raw => .ok raw

end EspClawPlatform.EspClaw
