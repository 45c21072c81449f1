import EspClawPlatform.Lib.Utf8
import EspClawPlatform.Provisioning.PlatformExec

namespace EspClawPlatform.Provisioning

def SECRET_MIN_BYTES : Nat := 16

def SEGMENT_MAX : Nat := 1024

def PAYLOAD_MAX : Nat := 768

def NONCE_WINDOW : Nat := 16

def MAX_TTL_S : Rat := 60

def CLOCK_SKEW_S : Rat := 5

def MIN_VALID_EPOCH : Rat := 1704067200

/-- The device's own state: the secret it was provisioned with, if any, its id,
and what it keeps of the nonces it has seen, oldest first. -/
structure FirmwareModel where
  secret : Option (List UInt8)
  ownDeviceId : String
  seenNonces : List (List Nat) := []
  deriving DecidableEq

inductive VerifyResult
  | accepted (capability : String) (input : Json)
  | refused (error : String)
  deriving DecidableEq

def fail (error : String) : VerifyResult := .refused ("Error: " ++ error)

/-- `none` where the C code returns an error. -/
def decode (segment : String) (maxDecoded : Nat) : Option (List UInt8) :=
  if segment = "" ∨ utf16Length segment > SEGMENT_MAX then none
  else (fromBase64Url segment).filter fun buf => buf.length ≤ maxDecoded

def splitToken (token : String) : Option (String × String) :=
  let payloadSegment := token.toList.takeWhile (· ≠ '.')
  let rest := (token.toList.dropWhile (· ≠ '.')).drop 1
  if payloadSegment = [] ∨ rest = [] then none else some (String.ofList payloadSegment, String.ofList rest)

/-- `verify` up to the payload, which it returns as a text. -/
def FirmwareModel.openToken (runtime : Runtime) (device : FirmwareModel) (token : Option String) :
    Except String String :=
  match device.secret.filter fun secret => SECRET_MIN_BYTES ≤ secret.length with
  | none => .error "platform secret not configured (run platform_configure locally first)"
  | some secret =>
      if token.getD "" = "" then .error "'token' is required"
      else
        match splitToken (token.getD "") with
        | none => .error "malformed token (expected <payload>.<sig>)"
        | some (payloadSegment, sigSegment) =>
            match (decode sigSegment 64).filter fun sig => sig.length = 32 with
            | none => .error "malformed token signature"
            | some sig =>
                if runtime.hmacSha256 secret payloadSegment ≠ sig then .error "invalid token signature"
                else
                  match decode payloadSegment PAYLOAD_MAX with
                  | none => .error "malformed token payload encoding"
                  | some payloadBytes => .ok (String.ofList (utf8Decode payloadBytes.length payloadBytes))

def stringField (payload : Json) (k : String) : Option String :=
  match payload.property k with
  | some (.str value) => some value
  | _ => none

def numberField (payload : Json) (k : String) : JsNumber :=
  match payload.property k with
  | some (.num value) => value
  | _ => .finite (-1)

/-- The times of a token when they are a valid window. An infinity is none, and
`JSON.parse` yields no NaN. -/
def validityWindow : JsNumber → JsNumber → Option (Rat × Rat)
  | .finite issuedAt, .finite expiresAt =>
      if issuedAt < 0 ∨ expiresAt < 0 ∨ expiresAt ≤ issuedAt ∨ expiresAt - issuedAt > MAX_TTL_S then none
      else some (issuedAt, expiresAt)
  | _, _ => none

def inputField (payload : Json) : Json :=
  match payload.property "input" with
  | none | some .null => .obj []
  | some value => value

/-- What `verify` makes of a payload: the capability, its input and the nonce. -/
def FirmwareModel.judge (device : FirmwareModel) (payload : Json) (nowSeconds : Rat) :
    Except String (String × Json × String) :=
  let capability := (stringField payload "capability").getD ""
  let nonce := (stringField payload "nonce").getD ""
  if stringField payload "device_id" ≠ some device.ownDeviceId then .error "token was issued for a different device"
  else if capability = "" then .error "token missing target capability"
  else if !isPlatformExecTarget capability then
    .error s!"capability '{capability}' cannot be triggered through platform_exec"
  else
    match validityWindow (numberField payload "issued_at") (numberField payload "expires_at") with
    | none => .error "invalid token validity window (must be issued_at < expires_at, TTL <= 60s)"
    | some (issuedAt, expiresAt) =>
        if nowSeconds < MIN_VALID_EPOCH then .error "system time not set; cannot verify token expiry"
        else if nowSeconds < issuedAt - CLOCK_SKEW_S ∨ nowSeconds > expiresAt then
          .error "token expired or not yet valid"
        else if nonce = "" ∨ utf16 nonce ∈ device.seenNonces then .error "token nonce already used (replay)"
        else .ok (capability, inputField payload, nonce)

/-- Remember a nonce, of which 47 code units are kept, and forget the oldest one beyond the window. -/
def FirmwareModel.remember (device : FirmwareModel) (nonce : String) : FirmwareModel :=
  let seen := device.seenNonces ++ [(utf16 nonce).take 47]
  { device with seenNonces := if seen.length > NONCE_WINDOW then seen.drop 1 else seen }

/-- The window is lost with the power. -/
def FirmwareModel.reboot (device : FirmwareModel) : FirmwareModel := { device with seenNonces := [] }

/-- `parse` is `JSON.parse`. There is no result when a field of `null` is read, which throws. -/
def FirmwareModel.verify (runtime : Runtime) (parse : String → Option Json) (device : FirmwareModel)
    (token : Option String) (nowSeconds : Rat) : Option (VerifyResult × FirmwareModel) :=
  match device.openToken runtime token with
  | .error error => some (fail error, device)
  | .ok text =>
      match parse text with
      | none => some (fail "token payload is not valid JSON", device)
      | some .null => none
      | some payload =>
          match device.judge payload nowSeconds with
          | .error error => some (fail error, device)
          | .ok (capability, input, nonce) => some (.accepted capability input, device.remember nonce)

end EspClawPlatform.Provisioning
