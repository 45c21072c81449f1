import EspClawPlatform.Lib.Run
import EspClawPlatform.Bus.InProcessEventBus
import EspClawPlatform.Telemetry.TelemetryService

namespace EspClawPlatform.Telemetry

open Bus

def toPayloadSamples (samples : List ExtractedSample) : List EspClawPlatform.TelemetrySample :=
  samples.map fun s =>
    { metric := s.metric
      value :=
        match s.valueNumeric, s.valueBool with
        | some value, _ => .num (.finite value)
        | none, some value => .bool value
        | none, none => .null }

structure PollTarget where
  capability : String
  requiredGroup : String
  deriving DecidableEq

def POLL_TARGETS : List PollTarget :=
  [{ capability := "mqtt_status", requiredGroup := "cap_mqtt" },
   { capability := "vpn_status", requiredGroup := "cap_vpn" },
   { capability := "network_status", requiredGroup := "cap_netcfg" },
   { capability := "ota_status", requiredGroup := "cap_ota" }]

abbrev Pair := String × PollTarget

def pollPairs (online : List String) : List Pair :=
  online.flatMap fun device => POLL_TARGETS.map fun target => (device, target)

/-- The await a call of `pollOnce` stands at, with the pairs that are still to come. -/
inductive Frame
  | finding
  | asking (pair : Pair) (rest : List Pair)
  | dispatching (pair : Pair) (rest : List Pair)
  | recording (pair : Pair) (recordedAt : Nat) (result : Option String) (rest : List Pair)
  deriving DecidableEq

structure Cycle where
  online : Option (List String) := none
  answers : List (Pair × Bool) := []
  dispatched : List Pair := []
  deriving DecidableEq

/-- `frames` holds the calls of `pollOnce` in flight and `promises` what has
become of every call; `cycles` records what those that polled have done. -/
structure State where
  now : Nat := 0
  polling : Bool := false
  calls : Nat := 0
  frames : Table (Nat × Frame) := .empty
  promises : Table (Nat × PromiseState) := .empty
  cycles : Table (Nat × Cycle) := .empty
  telemetry : Table TelemetrySample := .empty
  events : List Published := []

inductive Action
  | tick (ms : Nat)
  | pollOnce
  | online (call : Nat) (devices : List String)
  | hasGroup (call : Nat) (answer : Bool)
  | response (call : Nat) (ok : Bool) (result : Option String)
  | recorded (call : Nat)
  | rejected (call : Nat) (value : Thrown)
  deriving DecidableEq

/-- The end of a call; the `finally` clears the flag. -/
def State.finish (s : State) (call : Nat) (promise : PromiseState) : State :=
  { s with
    polling := false
    frames := s.frames.erase call
    promises := s.promises.set call promise }

def State.next (s : State) (call : Nat) : List Pair → State
  | [] => s.finish call .fulfilled
  | pair :: rest => { s with frames := s.frames.set call (.asking pair rest) }

def State.record (s : State) (call : Nat) (f : Cycle → Cycle) : State :=
  { s with cycles := s.cycles.set call (f ((s.cycles.get call).getD {})) }

def updated (parse : String → Option Json) (pair : Pair) (count : Nat) (result : Option String) : List Published :=
  if 0 < count then
    [{ announce "module:telemetry" (.telemetryUpdated pair.2.capability count
        (toPayloadSamples (extractSamples parse result))) with deviceId := some pair.1 }]
  else []

/-- The awaited call rejects. The `catch` of `pollOne` reads the message of what
has been thrown, and what it throws itself leaves `pollOnce` too. -/
def Frame.rejected (s : State) (call : Nat) (value : Thrown) : Frame → State
  | .finding | .asking .. => s.finish call .rejected
  | .dispatching _ rest | .recording _ _ _ rest =>
      match value.message with
      | none => s.finish call .rejected
      | some _ => s.next call rest

def step (parse : String → Option Json) (s : State) : Action → Option State
  | .tick ms => some { s with now := s.now + ms }
  | .pollOnce =>
      some <|
        if s.polling then
          { s with promises := s.promises.set s.calls .fulfilled, calls := s.calls + 1 }
        else
          { s with
            polling := true
            frames := s.frames.set s.calls .finding
            promises := s.promises.set s.calls .pending
            cycles := s.cycles.set s.calls {}
            calls := s.calls + 1 }
  | .online call devices =>
      match s.frames.get call with
      | some .finding =>
          some ((s.record call fun c => { c with online := some devices }).next call (pollPairs devices))
      | _ => none
  | .hasGroup call answer =>
      match s.frames.get call with
      | some (.asking pair rest) =>
          let s := s.record call fun c => { c with answers := c.answers ++ [(pair, answer)] }
          some <|
            if answer then
              { s.record call fun c => { c with dispatched := c.dispatched ++ [pair] } with
                frames := s.frames.set call (.dispatching pair rest) }
            else s.next call rest
      | _ => none
  | .response call ok result =>
      match s.frames.get call with
      | some (.dispatching pair rest) =>
          some <|
            if ok then { s with frames := s.frames.set call (.recording pair s.now result rest) }
            else s.next call rest
      | _ => none
  | .recorded call =>
      match s.frames.get call with
      | some (.recording pair recordedAt result rest) =>
          (recordCapabilityResult parse s.telemetry pair.1 pair.2.capability recordedAt result).map
            fun stored =>
              { s with telemetry := stored.1, events := s.events ++ updated parse pair stored.2 result }.next call rest
      | _ => none
  | .rejected call value => (s.frames.get call).map (Frame.rejected s call value)

end EspClawPlatform.Telemetry
