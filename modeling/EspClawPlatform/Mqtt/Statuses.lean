import EspClawPlatform.Mqtt.MqttService

namespace EspClawPlatform.Mqtt

variable {config : Config} {s t : State}

def Config.status (config : Config) (topic payload : String) : Option (ParsedTopic × StatusEnvelope) := do
  let parsed ← parseTopic topic
  let json ← config.parse payload
  if parsed.leaf = "status" then (parseStatusEnvelope json).map fun status => (parsed, status) else none

theorem parseTopic_of_status {topic payload : String} {x : ParsedTopic × StatusEnvelope}
    (h : config.status topic payload = some x) : parseTopic topic = some x.1 ∧ x.1.leaf = Leaf.status.text := by
  obtain ⟨parsed, hp, h⟩ := Option.bind_eq_some_iff.mp h
  obtain ⟨json, -, h⟩ := Option.bind_eq_some_iff.mp h
  split at h
  · rename_i hleaf
    obtain ⟨status, -, rfl⟩ := Option.map_eq_some_iff.mp h
    exact ⟨hp, hleaf⟩
  · cases h

def presenceEvent (parsed : ParsedTopic) (status : StatusEnvelope) : Published :=
  { announce "gateway:mqtt" (.presenceReported parsed.baseTopic status.online) with
    deviceId := some parsed.deviceId }

def Config.reports (config : Config) : Action → Option Published
  | .message topic payload => (config.status topic payload).map fun x => presenceEvent x.1 x.2
  | _ => none

theorem events_handleStatus (parsed : ParsedTopic) (json : Json) :
    (s.handleStatus parsed.deviceId parsed.baseTopic json).events =
      s.events ++ ((parseStatusEnvelope json).map (presenceEvent parsed)).toList := by
  rw [State.handleStatus]
  cases parseStatusEnvelope json with
  | none => exact (List.append_nil _).symm
  | some status => rfl

theorem events_handleResponse (json : Json) : (s.handleResponse json).events = s.events := by
  rw [State.handleResponse]
  split
  · rfl
  · split <;> rfl

theorem events_handleMessage (topic payload : String) : (s.handleMessage config topic payload).events =
    s.events ++ (config.reports (.message topic payload)).toList := by
  rw [State.handleMessage, Config.reports, Config.status]
  cases parseTopic topic with
  | none => exact (List.append_nil _).symm
  | some parsed =>
      cases config.parse payload with
      | none => exact (List.append_nil _).symm
      | some json =>
          simp only [Option.bind_eq_bind, Option.bind_some]
          by_cases hstatus : parsed.leaf = "status"
          · rw [if_pos hstatus, if_pos hstatus, events_handleStatus, Option.map_map]
            rfl
          · rw [if_neg hstatus, if_neg hstatus]
            refine Eq.trans ?_ (List.append_nil _).symm
            split
            · exact events_handleResponse json
            · rfl

theorem events_sendCommand (deviceId name : String) (input : Record) (options : SendOptions) (fresh : String)
    (failure : Option String) :
    (s.sendCommand config deviceId name input options fresh failure).1.events = s.events := by
  rw [State.sendCommand]
  split
  · rfl
  · split
    · rfl
    · split
      · rfl
      · split <;> rfl

theorem events_step {a : Action} (h : step config s a = some t) :
    t.events = s.events ++ (config.reports a).toList := by
  cases a with
  | message topic payload =>
      simp only [step] at h
      split at h <;> cases h
      exact events_handleMessage topic payload
  | sendCommand =>
      cases h
      exact (events_sendCommand _ _ _ _ _ _).trans (List.append_nil _).symm
  | timer promise =>
      obtain ⟨c, -, h⟩ := Option.bind_eq_some_iff.mp h
      split at h <;> cases h
      exact (List.append_nil _).symm
  | tick | destroy =>
      cases h
      exact (List.append_nil _).symm
  | ended =>
      simp only [step] at h
      split at h <;> cases h
      exact (List.append_nil _).symm

end EspClawPlatform.Mqtt
