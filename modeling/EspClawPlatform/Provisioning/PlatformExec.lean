import EspClawPlatform.Lib.Sextet
import EspClawPlatform.Lib.Text
import EspClawPlatform.Json

namespace EspClawPlatform.Provisioning

/-- What the runtime computes for the signature: `JSON.stringify`, HMAC-SHA256
of an ASCII text under a key, and 32 bytes of HKDF-SHA256 of a key and an
`info` text under the salt of the scheme. -/
structure Runtime where
  stringify : Json → String
  hmacSha256 : List UInt8 → String → List UInt8
  hkdfSha256 : List UInt8 → String → List UInt8

def PLATFORM_EXEC_TARGETS : List String :=
  ["ota_update", "mqtt_configure", "network_configure", "vpn_configure", "vpn_connect", "vpn_disconnect",
    "wireguard_configure", "list_agents", "inspect_agent"]

def isPlatformExecTarget (value : String) : Bool := value ∈ PLATFORM_EXEC_TARGETS

def TOKEN_TTL_SECONDS : Int := 60

def SEGMENT_MAX_CHARS : Nat := 1024

def PAYLOAD_MAX_BYTES : Nat := 768

def ISSUED_AT_BACKDATE_SECONDS : Int := 25

def NONCE_BYTES : Nat := 16

def MIN_MASTER_KEY_BYTES : Nat := 32

def utf8 (s : String) : List UInt8 := s.toList.flatMap String.utf8EncodeChar

def base64Digit (n : Nat) : Char :=
  if n < 26 then Char.ofNat ('A'.toNat + n)
  else if n < 52 then Char.ofNat ('a'.toNat + (n - 26))
  else if n < 62 then Char.ofNat ('0'.toNat + (n - 52))
  else if n = 62 then '+'
  else '/'

/-- `buf.toString("base64")`. -/
def base64 : List UInt8 → List Char
  | [] => []
  | [a] => [base64Digit (a.toNat / 4), base64Digit (a.toNat % 4 * 16), '=', '=']
  | [a, b] =>
      [base64Digit (a.toNat / 4), base64Digit (a.toNat % 4 * 16 + b.toNat / 16),
        base64Digit (b.toNat % 16 * 4), '=']
  | a :: b :: c :: rest =>
      base64Digit (a.toNat / 4) :: base64Digit (a.toNat % 4 * 16 + b.toNat / 16) ::
        base64Digit (b.toNat % 16 * 4 + c.toNat / 64) :: base64Digit (c.toNat % 64) :: base64 rest

def toBase64Url (buf : List UInt8) : String :=
  String.ofList
    ((((base64 buf).map fun c => if c = '+' then '-' else if c = '/' then '_' else c).reverse.dropWhile
      (· = '=')).reverse)

/-- `/^[A-Za-z0-9_-]*$/` of one character. -/
def isBase64Url (c : Char) : Bool :=
  ('A' ≤ c && c ≤ 'Z') || ('a' ≤ c && c ≤ 'z') || ('0' ≤ c && c ≤ '9') || c = '_' || c = '-'

def base64Value (c : Char) : Nat :=
  if 'A' ≤ c && c ≤ 'Z' then c.toNat - 'A'.toNat
  else if 'a' ≤ c && c ≤ 'z' then c.toNat - 'a'.toNat + 26
  else if '0' ≤ c && c ≤ '9' then c.toNat - '0'.toNat + 52
  else if c = '+' then 62
  else 63

/-- `none` is the error "not base64url". -/
def fromBase64Url (text : String) : Option (List UInt8) :=
  if text.toList.all isBase64Url then
    some (unsextets (text.toList.map fun c => base64Value
      (if c = '-' then '+' else if c = '_' then '/' else c)))
  else none

inductive TokenErrorKind
  | invalidTarget | invalidInput | tooLarge
  deriving DecidableEq

structure PlatformTokenError where
  message : String
  kind : TokenErrorKind
  deriving DecidableEq

/-- What `issue` throws: a `PlatformTokenError`, the answer 503, or a plain error. -/
inductive IssueError
  | token (error : PlatformTokenError)
  | unavailable (message : String)
  | plain (message : String)
  deriving DecidableEq

def deriveDeviceSecret (runtime : Runtime) (masterKey : List UInt8) (deviceId : String) :
    Except IssueError (List UInt8) :=
  if masterKey.length < MIN_MASTER_KEY_BYTES then
    .error (.plain s!"master key must be at least {MIN_MASTER_KEY_BYTES} bytes")
  else if deviceId = "" then .error (.plain "deviceId is required")
  else .ok (runtime.hkdfSha256 masterKey deviceId)

structure SignInput where
  secret : List UInt8
  deviceId : String
  capability : String
  input : Record
  nowSeconds : Int
  nonce : String

def cannotBeTriggered (capability : String) : String :=
  s!"\"{capability}\" cannot be triggered through platform_exec"

def integer (n : Int) : Json := .num (.finite n)

def SignInput.payload (args : SignInput) : Json :=
  let issuedAt := args.nowSeconds - ISSUED_AT_BACKDATE_SECONDS
  .obj
    [("device_id", .str args.deviceId), ("capability", .str args.capability), ("input", .obj args.input.rows),
      ("issued_at", integer issuedAt), ("expires_at", integer (issuedAt + TOKEN_TTL_SECONDS)),
      ("nonce", .str args.nonce)]

def signPlatformToken (runtime : Runtime) (args : SignInput) : Except PlatformTokenError String :=
  if !isPlatformExecTarget args.capability then
    .error { message := cannotBeTriggered args.capability, kind := .invalidTarget }
  else
    let payloadJson := utf8 (runtime.stringify args.payload)
    if payloadJson.length > PAYLOAD_MAX_BYTES then
      .error
        { message := s!"input is too large for platform_exec ({payloadJson.length} bytes of token payload, the device accepts {PAYLOAD_MAX_BYTES})"
          kind := .tooLarge }
    else
      let payloadSegment := toBase64Url payloadJson
      if payloadSegment.length > SEGMENT_MAX_CHARS then
        .error
          { message := "input is too large for platform_exec (encoded payload exceeds the device limit)"
            kind := .tooLarge }
      else .ok (payloadSegment ++ "." ++ toBase64Url (runtime.hmacSha256 args.secret payloadSegment))

def isSecretKey (key : String) : Bool :=
  let lower := String.ofList (key.toList.map Char.toLower)
  ["pass", "secret", "token", "private", "apikey", "api_key", "api-key", "psk", "credential"].any
  (includes lower)

mutual

def redactSecrets : Json → Json
  | .arr items => .arr (redactItems items)
  | .obj members => .obj (redactMembers members)
  | value => value

def redactItems : List Json → List Json
  | [] => []
  | item :: items => redactSecrets item :: redactItems items

def redactMembers : List (String × Json) → List (String × Json)
  | [] => []
  | (key, value) :: members =>
      (key, if isSecretKey key then .str "[redacted]" else redactSecrets value) :: redactMembers members

end

theorem keys_redactMembers (members : List (String × Json)) :
    (redactMembers members).map Prod.fst = members.map Prod.fst := by
  induction members with
  | nil => rfl
  | cons member members ih =>
      obtain ⟨key, value⟩ := member
      simp only [redactMembers, List.map_cons, ih]

/-- `redactSecrets` of an input, which is an object of the same keys. -/
def redactInput (input : Record) : Record :=
  ⟨redactMembers input.rows, (keys_redactMembers input.rows).symm ▸ input.nodup⟩

theorem redactSecrets_input (input : Record) :
    redactSecrets (.obj input.rows) = .obj (redactInput input).rows := rfl

def isHexDigit (c : Char) : Bool :=
  ('0' ≤ c && c ≤ '9') || ('a' ≤ c && c ≤ 'f') || ('A' ≤ c && c ≤ 'F')

def acceptsUrl : Option Json → Bool
  | some (.str url) => startsWith url "https://" && utf16Length url ≤ 512
  | _ => false

def acceptsDigest : Option Json → Bool
  | some (.str sha) => sha.length = 64 && sha.toList.all isHexDigit
  | _ => false

def validatePrivilegedInput (capability : String) (input : Record) : Except PlatformTokenError Unit :=
  if capability ≠ "ota_update" then .ok ()
  else if !acceptsUrl (input.get "url") then
    .error { message := "ota_update needs an https:// url (at most 512 characters)", kind := .invalidInput }
  else if !acceptsDigest (input.get "sha256") then
    .error
      { message := "ota_update needs sha256: the 64-hex-character digest of the firmware image"
        kind := .invalidInput }
  else .ok ()

/-- `issue` of the token service, which has no key unless one is configured. -/
def issue (runtime : Runtime) (masterKey : Option (List UInt8)) (deviceId capability : String)
    (input : Record)
    (nowSeconds : Int) (nonce : String) : Except IssueError String :=
  match masterKey with
  | none => .error (.unavailable "Privileged operations are not configured (PLATFORM_MASTER_KEY is not set)")
  | some key => do
      let secret ← deriveDeviceSecret runtime key deviceId
      (signPlatformToken runtime
        { secret := secret, deviceId := deviceId, capability := capability, input := input,
          nowSeconds := nowSeconds,
          nonce := nonce }).mapError .token

end EspClawPlatform.Provisioning
