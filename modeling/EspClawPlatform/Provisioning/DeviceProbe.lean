import EspClawPlatform.Provisioning.Token

namespace EspClawPlatform.Provisioning

structure ProbeReply where
  ok : Bool
  result : Option String := none

structure CheckResult where
  name : String
  pass : Bool
  detail : String
  deriving DecidableEq

/-- The transport of the probe: a command by its name and input is answered, or the call rejects. -/
abbrev ProbeTransport (σ : Type) := σ → String → Json → Option (ProbeReply × σ)

structure ProbeOptions where
  deviceId : String
  masterKey : List UInt8

structure ProbeDraw where
  nowSeconds : Int
  nonce : String

structure ProbeDraws where
  good : ProbeDraw
  fresh : ProbeDraw
  wrongDevice : ProbeDraw
  notAllowed : ProbeDraw
  expired : ProbeDraw

def forgeToken (runtime : Runtime) (secret : List UInt8) (payload : Json) : String :=
  let segment := toBase64Url (utf8 (runtime.stringify payload))
  segment ++ "." ++ toBase64Url (runtime.hmacSha256 secret segment)

def forgedPayload (deviceId capability : String) (issuedAt : Int) (nonce : String) : Json :=
  .obj
    [("device_id", .str deviceId), ("capability", .str capability), ("input", .obj []),
      ("issued_at", integer issuedAt), ("expires_at", integer (issuedAt + TOKEN_TTL_SECONDS)), ("nonce", .str nonce)]

def tamperSignature (sig : String) : String :=
  String.ofList (sig.toList.take (sig.toList.length - 2)) ++
    if "AA".toList.isSuffixOf sig.toList then "BB" else "AA"

/-- There is no result when the token has no second part, of which a property would be read. -/
def tamper (token : String) : Option String :=
  match split token '.' with
  | seg :: sig :: _ => some (seg ++ "." ++ tamperSignature sig)
  | _ => none

/-- `/part/i.test(text)` for a part without special characters. -/
def matchesIgnoringCase (part text : String) : Bool :=
  includes (String.ofList (text.toList.map Char.toLower)) part

def refusedWith (r : ProbeReply) (pattern : String → Bool) : Bool := !r.ok && pattern (r.result.getD "")

def check (name : String) (pass : Bool) (r : ProbeReply) : CheckResult where
  name := name
  pass := pass
  detail := String.ofList ((r.result.getD "").toList.take 200)

def otherDeviceId (deviceId : String) : String :=
  if deviceId = "000000000001" then "000000000002" else "000000000001"

def tokenInput (token : String) : Json := .obj [("token", .str token)]

def probeChecks (plain ok replay tampered wd na ex : ProbeReply) : List CheckResult :=
  [check "1 plain path denies a root-only tool" (refusedWith plain (includes · "not exposed to the LLM")) plain,
   check "2 valid token, read-only target" ok.ok ok,
   check "3 replayed token is refused"
    (refusedWith replay fun text => matchesIgnoringCase "nonce already used" text || matchesIgnoringCase "replay" text)
    replay,
   check "4 tampered signature is refused"
    (refusedWith tampered (matchesIgnoringCase "invalid token signature")) tampered,
   check "5 token for another device is refused" (refusedWith wd (matchesIgnoringCase "different device")) wd,
   check "6 target outside the device allow-list is refused"
    (refusedWith na (matchesIgnoringCase "cannot be triggered through platform_exec")) na,
   check "7 expired token is refused" (refusedWith ex (matchesIgnoringCase "expired or not yet valid")) ex]

/-- There is no result when the probe throws: the transport rejects, or a token cannot be made. -/
def runDeviceProbe {σ : Type} (runtime : Runtime) (request : ProbeTransport σ) (opts : ProbeOptions)
    (draws : ProbeDraws) (s : σ) : Option (List CheckResult) := do
  let secret ← (deriveDeviceSecret runtime opts.masterKey opts.deviceId).toOption
  let sign := fun (deviceId : String) (draw : ProbeDraw) =>
    (signPlatformToken runtime
      { secret := secret, deviceId := deviceId, capability := "list_agents", input := .empty
        nowSeconds := draw.nowSeconds, nonce := draw.nonce }).toOption
  let viaToken := fun (s : σ) (token : String) => request s "platform_exec" (tokenInput token)
  let plain ← request s "ota_update" (.obj [("url", .str "https://example.invalid/x.bin")])
  let good ← sign opts.deviceId draws.good
  let ok ← viaToken plain.2 good
  let replay ← viaToken ok.2 good
  let fresh ← sign opts.deviceId draws.fresh
  let tampered ← (tamper fresh).bind (viaToken replay.2)
  let wrongDevice ← sign (otherDeviceId opts.deviceId) draws.wrongDevice
  let wd ← viaToken tampered.2 wrongDevice
  let na ← viaToken wd.2
    (forgeToken runtime secret
      (forgedPayload opts.deviceId "ssh_configure" (draws.notAllowed.nowSeconds - 25) draws.notAllowed.nonce))
  let ex ← viaToken na.2
    (forgeToken runtime secret
      (forgedPayload opts.deviceId "list_agents" (draws.expired.nowSeconds - 180) draws.expired.nonce))
  some (probeChecks plain.1 ok.1 replay.1 tampered.1 wd.1 na.1 ex.1)

/-- What the process exits with after a probe that did not throw. -/
def exitCode (results : List CheckResult) : Nat := if results.all (·.pass) then 0 else 1

def VerifyResult.reply : VerifyResult → ProbeReply
  | .accepted _ _ => { ok := true, result := some "\x7b\"agents\":[]\x7d" }
  | .refused error => { ok := false, result := some error }

/-- A device made of the firmware model, with what its clock will read, and the
plain path that denies its root-only tools. -/
def deviceTransport (runtime : Runtime) (parse : String → Option Json) : ProbeTransport (FirmwareModel × List Rat) :=
  fun s name input =>
    if name = "platform_exec" then
      match s.2 with
      | [] => none
      | t :: readings =>
          (s.1.verify runtime parse (stringField input "token") t).map fun r => (r.1.reply, (r.2, readings))
    else
      some ({ ok := false, result := some s!"Error: cap '{name}' is not exposed to the LLM (reason=root_agent_only)." }, s)

end EspClawPlatform.Provisioning
