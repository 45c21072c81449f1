import EspClawPlatform.Devices.DevicesService
import EspClawPlatform.Mqtt.Levels
import EspClawPlatform.Mqtt.Statuses

namespace EspClawPlatform.Devices

open Mqtt (Answerable ParsedTopic buildTopic commandTopic parseTopic withLeaf)

variable {config : Mqtt.Config} {m : Mqtt.State} {t payload : String} {p : ParsedTopic}

theorem handleMessage_event {input : Published}
    (h : (m.handleMessage config t payload).events = m.events ++ [input])
    (hp : parseTopic t = some p) : p.leaf = Mqtt.Leaf.status.text ∧ input.deviceId = some p.deviceId ∧
      ∃ online, input.payload = .presenceReported p.baseTopic online := by
  rw [Mqtt.events_handleMessage, List.append_right_inj, Option.toList_eq_singleton_iff] at h
  obtain ⟨x, hx, rfl⟩ := Option.map_eq_some_iff.mp h
  obtain ⟨hp', hleaf⟩ := Mqtt.parseTopic_of_status hx
  obtain rfl := Option.some.inj (hp.symm.trans hp')
  exact ⟨hleaf, rfl, _, rfl⟩

theorem observe_createEvent {context : Option RequestContext} {eventId correlationId : String} {now : Nat}
    {input : Published} {online : Bool} {o : Observation} (hd : input.deviceId = some p.deviceId)
    (hpayload : input.payload = .presenceReported p.baseTopic online)
    (ho : observe (createEvent context eventId correlationId now input) = some o) :
    o.deviceId = p.deviceId ∧ o.baseTopic = p.baseTopic := by
  simp only [observe, createEvent, hd, hpayload] at ho
  split at ho <;> cases ho
  exact ⟨rfl, rfl⟩

/-- A device that is registered for its status is answered where the status came
from exactly when the topic is answerable. -/
theorem commands_go_back_iff {input : Published} (draw : Draw) {o : Observation}
    {devices : Table DeviceEntity} {row : DeviceEntity} (hp : parseTopic t = some p)
    (hsent : (m.handleMessage config t payload).events = m.events ++ [input])
    (ho : observe (createEvent draw.context draw.eventId draw.correlationId draw.now input) = some o)
    (hrow : (saveCreated devices o.deviceId o.baseTopic).find o.deviceId = some row) :
    (buildTopic p.baseTopic p.deviceId .status = .ok t ∧
      commandTopic config row.id (some row.baseTopic) = .ok (withLeaf t .command)) ↔ Answerable t := by
  obtain ⟨hleaf, hd, online, hpayload⟩ := handleMessage_event hsent hp
  obtain ⟨hid, hbase⟩ := observe_createEvent hd hpayload ho
  obtain rfl := Option.some.inj ((Table.find_save_self devices _).symm.trans hrow)
  simp only [hid, hbase]
  rw [Mqtt.buildTopic_parsed_iff hp hleaf, and_iff_left_iff_imp]
  exact Mqtt.commandTopic_parsed hp

def onlineConfig : Mqtt.Config where
  defaultBaseTopic := "espclaw"
  parse := fun _ => some (.obj [("online", .bool true)])

def statusEvent (baseTopic deviceId : String) : Published :=
  { announce "gateway:mqtt" (.presenceReported baseTopic true) with deviceId := some deviceId }

theorem tenant_topic_is_answered : buildTopic "espclaw/acme" "dev-1" .status = .ok "espclaw/acme/dev-1/status" ∧
    commandTopic onlineConfig "dev-1" (some "espclaw/acme") =
      .ok (withLeaf "espclaw/acme/dev-1/status" .command) := by
  have hp : parseTopic "espclaw/acme/dev-1/status" = some ⟨"espclaw/acme", "dev-1", "status"⟩ := by decide
  have hsent : ((Mqtt.init true).handleMessage onlineConfig "espclaw/acme/dev-1/status" "").events =
      (Mqtt.init true).events ++ [statusEvent "espclaw/acme" "dev-1"] := by decide
  have ho : observe (createEvent none "" "" 0 (statusEvent "espclaw/acme" "dev-1")) =
      some ⟨"dev-1", "espclaw/acme", true, 0⟩ := by decide
  have hrow := Table.find_save_self (Table.empty : Table DeviceEntity)
    { id := "dev-1", baseTopic := "espclaw/acme", online := false, lastSeenAt := none }
  exact (commands_go_back_iff {} hp hsent ho hrow).mpr (by decide)

theorem leading_slash_is_lost : ¬ ∀ (config : Mqtt.Config) (m : Mqtt.State) (t payload : String)
    (p : ParsedTopic) (input : Published) (draw : Draw) (o : Observation)
    (devices : Table DeviceEntity) (row : DeviceEntity),
    parseTopic t = some p → (m.handleMessage config t payload).events = m.events ++ [input] →
      observe (createEvent draw.context draw.eventId draw.correlationId draw.now input) = some o →
        (saveCreated devices o.deviceId o.baseTopic).find o.deviceId = some row →
          buildTopic p.baseTopic p.deviceId .status = .ok t ∧
            commandTopic config row.id (some row.baseTopic) = .ok (withLeaf t .command) := by
  intro h
  have hback := h onlineConfig (Mqtt.init true) "/espclaw/dev-1/status" "" ⟨"espclaw", "dev-1", "status"⟩
    (statusEvent "espclaw" "dev-1") {} ⟨"dev-1", "espclaw", true, 0⟩ .empty _ (by decide)
    (by decide) (by decide)
    (Table.find_save_self _ _)
  exact absurd hback.1 (by decide)

end EspClawPlatform.Devices
