import EspClawPlatform.Lib.Text

namespace EspClawPlatform.Mqtt

inductive Leaf
  | status | command | response
  deriving DecidableEq

def Leaf.text : Leaf → String
  | .status => "status"
  | .command => "command"
  | .response => "response"

/-- `value.replace(/\/+$/, "")`. -/
def trimTrailingSlashes (value : String) : String :=
  String.ofList ((value.toList.reverse.dropWhile (· = '/')).reverse)

def buildTopic (baseTopic deviceId : String) (leaf : Leaf) : Except String String :=
  if trim baseTopic = "" then .error "baseTopic is required"
  else if trim deviceId = "" then .error "deviceId is required"
  else .ok (trimTrailingSlashes baseTopic ++ "/" ++ deviceId ++ "/" ++ leaf.text)

structure ParsedTopic where
  baseTopic : String
  deviceId : String
  leaf : String
  deriving DecidableEq

def parseTopic (topic : String) : Option ParsedTopic :=
  let parts := (split topic '/').filter (· ≠ "")
  if parts.length < 3 then none
  else
    let leaf := parts.getD (parts.length - 1) ""
    let deviceId := parts.getD (parts.length - 2) ""
    let baseTopic := join (parts.take (parts.length - 2)) '/'
    if baseTopic = "" ∨ deviceId = "" ∨ leaf = "" then none
    else some { baseTopic := baseTopic, deviceId := deviceId, leaf := leaf }

example : parseTopic "espclaw/acme//d1/response" =
    some { baseTopic := "espclaw/acme", deviceId := "d1", leaf := "response" } := by decide

end EspClawPlatform.Mqtt
