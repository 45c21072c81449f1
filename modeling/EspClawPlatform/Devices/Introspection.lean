import EspClawPlatform.Lib.Await
import EspClawPlatform.Lib.Run
import EspClawPlatform.Devices.DevicesService
import EspClawPlatform.EspClaw.LocalApiClient

namespace EspClawPlatform.Devices.Introspection

open EspClaw

structure DeviceRow extends DeviceEntity where
  capabilitiesRefreshedAt : Option Nat := none
  deriving DecidableEq

instance : Keyed DeviceRow String := ⟨fun d => d.id⟩

structure DeviceCapability where
  deviceId : String
  groupId : String
  displayName : String
  defaultLlmVisible : Bool
  firstSeenAt : Nat
  deriving DecidableEq

instance : Keyed DeviceCapability (String × String) := ⟨fun r => (r.deviceId, r.groupId)⟩

inductive ApiError
  | notFound (message : String)
  | badRequest (message : String)
  | thrown (error : Thrown)
  deriving DecidableEq

inductive Reply
  | catalog (catalog : CapabilityCatalog)
  | status (raw : Json)
  | capabilities (rows : List DeviceCapability)
  deriving DecidableEq

/-- The methods of the client that send a request, and the service's use of them. -/
inductive Request
  | fetchCapabilities (baseUrl : String)
  | fetchStatus (baseUrl : String)
  | refreshCapabilities (id : String) (baseUrl : Option String)
  deriving DecidableEq

inductive Caller
  | fetchCapabilities
  | fetchStatus
  | refreshCapabilities (id url : String)
  deriving DecidableEq

def Caller.path : Caller → String
  | .fetchStatus => "/api/status"
  | .fetchCapabilities | .refreshCapabilities .. => "/api/capabilities"

/-- The await a call stands at: a query, the response to a request, its body,
the transaction, the query at the end. -/
inductive Frame
  | finding (id : String) (baseUrl : Option String)
  | fetching (caller : Caller) (url : String)
  | reading (caller : Caller) (url : String)
  | saving (id url : String) (catalog : CapabilityCatalog)
  | listing (id : String)
  deriving DecidableEq

inductive Answer
  | none
  | response (res : Response)
  | text (body : String)
  deriving DecidableEq

structure State where
  now : Nat := 0
  devices : Table DeviceRow := .empty
  capabilities : Table DeviceCapability := .empty
  requests : List FetchRequest := []
  calls : Nat := 0
  frames : Table (Nat × Frame) := .empty
  results : Table (Nat × Except ApiError Reply) := .empty

abbrev Next := Await.Next Frame (Except ApiError Reply)

/-- What happens when an await is over: the request sent or the transaction
committed on the way to the next one. -/
structure Effect where
  fetch : Option FetchRequest := none
  commit : Option (String × String × CapabilityCatalog) := none
  next : Next

def throw (error : ApiError) : Next := .done (.error error)

section Service

variable (web : Web) (allowedHosts : List String)

def startFetch (caller : Caller) (baseUrl : String) : Effect :=
  match getJson web allowedHosts baseUrl caller.path with
  | .error error => { next := throw (.thrown error) }
  | .ok request => { fetch := some request, next := .await (.fetching caller request.url) }

def Request.start : Request → Effect
  | .fetchCapabilities baseUrl => startFetch web allowedHosts .fetchCapabilities baseUrl
  | .fetchStatus baseUrl => startFetch web allowedHosts .fetchStatus baseUrl
  | .refreshCapabilities id baseUrl => { next := .await (.finding id baseUrl) }

def refreshFound (id : String) (baseUrl : Option String) : Option DeviceRow → Effect
  | none => { next := throw (.notFound s!"Device {id} not found") }
  | some device =>
      let requested := trim ((baseUrl.or device.localApiBaseUrl).getD "")
      if requested = "" then
        { next := throw (.badRequest
            "No local API base URL known for this device — pass \x7b baseUrl \x7d or set it first") }
      else
        match validateBaseUrl web allowedHosts requested with
        | .error message => { next := throw (.badRequest s!"Invalid device URL: {message}") }
        | .ok url => startFetch web allowedHosts (.refreshCapabilities id url) url

def Caller.receive (raw : Json) : Caller → Next
  | .fetchCapabilities =>
      match parseCapabilityCatalog raw with
      | none => throw (.thrown .schema)
      | some catalog => .done (.ok (.catalog catalog))
  | .fetchStatus =>
      match parseLocalStatus raw with
      | none => throw (.thrown .schema)
      | some status => .done (.ok (.status status))
  | .refreshCapabilities id url =>
      match parseCapabilityCatalog raw with
      | none => throw (.thrown .schema)
      | some catalog => .await (.saving id url catalog)

def listCapabilities (s : State) (id : String) : List DeviceCapability :=
  (s.capabilities.rows.filter fun r => r.deviceId = id).mergeSort fun r q => r.groupId ≤ q.groupId

/-- The end of the await a call stands at. An upsert refuses a catalog that
names a group twice. -/
def Frame.resume (s : State) : Frame → Answer → Option Effect
  | .finding id baseUrl, .none => some (refreshFound web allowedHosts id baseUrl (s.devices.find id))
  | .fetching caller url, .response res =>
      some
        { next :=
            match gotResponse url res with
            | .error error => throw (.thrown error)
            | .ok () => .await (.reading caller url) }
  | .reading caller url, .text body =>
      some
        { next :=
            match gotText web url body with
            | .error error => throw (.thrown error)
            | .ok raw => caller.receive raw }
  | .saving id url catalog, .none =>
      if (catalog.items.map (·.groupId)).Nodup then
        some { commit := some (id, url, catalog), next := .await (.listing id) }
      else none
  | .listing id, .none => some { next := .done (.ok (.capabilities (listCapabilities s id))) }
  | _, _ => none

end Service

/-- The row that the upsert leaves, which keeps the time it was first seen. -/
def upserted (rows : Table DeviceCapability) (id : String) (now : Nat) (g : CapabilityGroup) :
    DeviceCapability where
  deviceId := id
  groupId := g.groupId
  displayName := g.displayName
  defaultLlmVisible := g.defaultLlmVisible
  firstSeenAt := ((rows.find (id, g.groupId)).map (·.firstSeenAt)).getD now

def saveCatalog (rows : Table DeviceCapability) (id : String) (now : Nat) (catalog : CapabilityCatalog) :
    Table DeviceCapability :=
  if catalog.items ≠ [] then
    (catalog.items.foldl (fun rows g => rows.save (upserted rows id now g)) rows).filter fun r =>
      r.deviceId ≠ id || r.groupId ∈ capabilityGroupIds catalog
  else rows.filter fun r => r.deviceId ≠ id

def DeviceRow.refreshed (id url : String) (now : Nat) (d : DeviceRow) : DeviceRow :=
  if d.id = id then
    { d with localApiBaseUrl := some url, capabilitiesRefreshedAt := some now }
  else d

theorem key_refreshed (id url : String) (now : Nat) (d : DeviceRow) :
    Keyed.key (d.refreshed id url now) = Keyed.key d := by
  rw [DeviceRow.refreshed]
  split <;> rfl

def State.commit (s : State) (id url : String) (catalog : CapabilityCatalog) : State :=
  { s with
    devices := s.devices.modify (DeviceRow.refreshed id url s.now) (key_refreshed id url s.now)
    capabilities := saveCatalog s.capabilities id s.now catalog }

def State.committed (s : State) (e : Effect) : State :=
  match e.commit with
  | none => s
  | some (id, url, catalog) => s.commit id url catalog

def State.perform (s : State) (call : Nat) (e : Effect) : State :=
  { s.committed e with
    requests := s.requests ++ e.fetch.toList
    frames := e.next.frames call s.frames
    results := e.next.results call s.results }

/-- `put` is a write of any other part of the platform to the table of devices. -/
inductive Action
  | tick (ms : Nat)
  | put (device : DeviceRow)
  | call (request : Request)
  | resume (call : Nat) (answer : Answer)
  | reject (call : Nat) (message : String)

def step (web : Web) (allowedHosts : List String) (s : State) : Action → Option State
  | .tick ms => some { s with now := s.now + ms }
  | .put device => some { s with devices := s.devices.save device }
  | .call request => some { s.perform s.calls (request.start web allowedHosts) with calls := s.calls + 1 }
  | .resume call answer => do
      let frame ← s.frames.get call
      let e ← frame.resume web allowedHosts s answer
      some (s.perform call e)
  | .reject call message => do
      let _ ← s.frames.get call
      some (s.perform call { next := throw (.thrown (.error message)) })

def State.boot (devices : Table DeviceRow) (capabilities : Table DeviceCapability) : State :=
  { devices := devices, capabilities := capabilities }

end EspClawPlatform.Devices.Introspection
