import EspClawPlatform.Lib.Ipv4
import EspClawPlatform.Json

namespace EspClawPlatform.EspClaw

structure Url where
  protocol : String
  username : String := ""
  password : String := ""
  hostname : String
  port : String := ""
  pathname : String := "/"
  search : String := ""
  hash : String := ""
  deriving DecidableEq

def Url.host (u : Url) : String := if u.port = "" then u.hostname else u.hostname ++ ":" ++ u.port

def Url.origin (u : Url) : String := u.protocol ++ "//" ++ u.host

def Url.href (u : Url) : String :=
  let credentials :=
    if u.username = "" && u.password = "" then ""
    else if u.password = "" then u.username ++ "@"
    else u.username ++ ":" ++ u.password ++ "@"
  u.protocol ++ "//" ++ credentials ++ u.host ++ u.pathname ++ u.search ++ u.hash

/-- What the runtime does with texts: `parse` is the constructor of `URL` with
one argument, `resolve` the one with a base. -/
structure Web where
  parse : String → Option Url
  resolve : String → Url → Option Url
  toLowerCase : String → String
  parseJson : String → Option Json

def ALLOWED_PORTS : List Nat := [80, 8080]

def CLOUD_METADATA_IPS : List String := ["100.100.100.200"]

def isSchemeChar (c : Char) : Bool := c.isAlphanum || c = '+' || c = '.' || c = '-'

def hasScheme (s : String) : Bool :=
  match s.toList with
  | [] => false
  | c :: cs => c.isAlpha && "://".toList.isPrefixOf (cs.dropWhile isSchemeChar)

def withScheme (trimmed : String) : String := if hasScheme trimmed then trimmed else "http://" ++ trimmed

def octet (s : String) : Option Nat := if s.toList.length ≤ 3 then numberOf s else none

def matchQuad (host : String) : Option (Nat × Nat × Nat × Nat) :=
  match split host '.' with
  | [a, b, c, d] => do return (← octet a, ← octet b, ← octet c, ← octet d)
  | _ => none

def isPrivateIPv4 (host : String) : Bool :=
  match matchQuad host with
  | none => false
  | some (a, b, c, d) =>
      if [a, b, c, d].any (255 < ·) then false
      else if host ∈ CLOUD_METADATA_IPS then false
      else
        a = 10 || (a = 172 && 16 ≤ b && b ≤ 31) || (a = 192 && b = 168) || (a = 100 && 64 ≤ b && b ≤ 127)

def Url.portNumber (u : Url) : Option Nat := if u.port = "" then some 80 else numberOf u.port

def hostNotAllowed : String :=
  "host must be a private/Tailscale IPv4 address or listed in LOCAL_API_ALLOWED_HOSTS"

/-- The URL, or the message of a `LocalTargetError`. -/
def assertSafeLocalTarget (web : Web) (baseUrl : String) (allowedHosts : List String) : Except String Url :=
  let trimmed := trim baseUrl
  if trimmed = "" then .error "baseUrl is empty"
  else
    match web.parse (withScheme trimmed) with
    | none => .error "baseUrl is not a valid URL"
    | some url =>
        if url.protocol ≠ "http:" then .error "only http:// device URLs are allowed"
        else if url.username ≠ "" || url.password ≠ "" then .error "credentials in the URL are not allowed"
        else if !url.portNumber.any (· ∈ ALLOWED_PORTS) then .error "port not allowed (use 80 or 8080)"
        else
          let host := web.toLowerCase url.hostname
          if isPrivateIPv4 host then .ok url
          else if host ∈ allowedHosts then .ok url
          else .error hostNotAllowed

end EspClawPlatform.EspClaw
