import EspClawPlatform.Commands.Addressing
import EspClawPlatform.Devices.BaseTopic
import EspClawPlatform.Mqtt.Levels
import EspClawPlatform.Mqtt.Statuses

namespace EspClawPlatform.Backend

open Run
open Devices (Device DeviceEntity Draw Registered heard observe reportedBase)

/-- One process: the command path with its MQTT client, and the registry with the event bus. -/
structure State where
  commands : Commands.State
  registry : Devices.State

/-- `draw` is what `createEvent` draws for an event of the step. -/
inductive Action
  | commands (action : Commands.Action) (draw : Draw)
  | registry (action : Devices.Action)

/-- The rows of the devices, as far as the command path reads them. -/
def directory (devices : Table DeviceEntity) : Table Device := devices.image (·.toDevice) fun _ => rfl

def State.current (s : State) : Commands.State := { s.commands with devices := directory s.registry.devices }

def announced (s t : Commands.State) : List Published :=
  t.mqtt.events.drop s.mqtt.events.length ++ t.events.drop s.events.length

def publish (draw : Draw) (registry : Devices.State) (events : List Published) : Devices.State :=
  events.foldl (fun s input => s.publish draw input) registry

/-- What is not for the command path to do: only the registry writes the table,
and a restart is the end of the process. -/
def foreign : Commands.Action → Bool
  | .registry _ | .restart _ => true
  | _ => false

def observes : Devices.Action → Bool
  | .bus (.publish event) => (observe event).isSome
  | _ => false

def step (config : Mqtt.Config) (s : State) : Action → Option State
  | .commands action draw =>
      if foreign action then none
      else (Commands.step config s.current action).map fun commands =>
        { commands := commands, registry := publish draw s.registry (announced s.commands commands) }
  | .registry action =>
      if observes action then none
      else (Devices.step s.registry action).map fun registry => { s with registry := registry }

def boot (connected : Bool) (devices : Table DeviceEntity) : State where
  commands := Commands.init connected
  registry := .boot devices

def accepted (config : Mqtt.Config) (d : String) : Action → Option String
  | .commands (.mqtt (.message topic payload)) _ =>
      (config.status topic payload).bind fun x => if x.1.deviceId = d then some x.1.baseTopic else none
  | _ => none

variable {config : Mqtt.Config} {s t : State} {c c' : Commands.State} {d : String}

section Events

def report (config : Mqtt.Config) : Commands.Action → Option Published
  | .mqtt action => config.reports action
  | _ => none

inductive Own : Published → Prop
  | created (call : Commands.Call) (command : Commands.Command) : Own (Commands.createdEvent call command)
  | completed (command : Commands.Command) (ok : Bool) (durationMs : Nat) :
      Own (Commands.completedEvent command ok durationMs)

theorem client_events {a : Commands.Action} (h : Commands.step config c a = some c') :
    c'.mqtt.events = c.mqtt.events ++ (report config a).toList := by
  cases a with
  | mqtt action =>
      simp only [Commands.step, Commands.State.mqttStep] at h
      split at h
      · cases h
      · obtain ⟨mqtt, hm, rfl⟩ := Option.map_eq_some_iff.mp h
        exact Mqtt.events_step hm
  | resume =>
      refine Eq.trans ?_ (List.append_nil _).symm
      cases Commands.mqtt_move h with
      | same _ hm => rw [hm]
      | send hf ht =>
          rw [ht, Commands.mqtt_send]
          exact Mqtt.events_sendCommand _ _ _ _ _ _
  | restart =>
      cases h
      exact (List.append_nil _).symm
  | _ =>
      cases Commands.mqtt_move h with
      | same _ hm => rw [hm]; exact (List.append_nil _).symm

structure Speaks (c c' : Commands.State) : Prop where
  devices : c'.devices = c.devices
  events : ∃ es, c'.events = c.events ++ es ∧ ∀ e ∈ es, Own e

theorem speaks_same (hd : c'.devices = c.devices) (he : c'.events = c.events) : Speaks c c' :=
  ⟨hd, [], he.trans (List.append_nil _).symm, fun _ he => by cases he⟩

theorem speaks_moves {id : String} {f : Commands.Frame} (h : Commands.Moves c id f c') : Speaks c c' := by
  cases h with
  | sent | threw => exact ⟨rfl, _, rfl, fun e he => List.mem_singleton.mp he ▸ .created _ _⟩
  | returns => exact ⟨rfl, _, rfl, fun e he => List.mem_singleton.mp he ▸ .completed _ _ _⟩
  | answered | unknown | begins | stored | settled | closes | records | saves => exact speaks_same rfl rfl

theorem speaks_step {a : Commands.Action} (ha : foreign a = false) (h : Commands.step config c a = some c') :
    Speaks c c' := by
  cases a with
  | mqtt action =>
      simp only [Commands.step, Commands.State.mqttStep] at h
      split at h
      · cases h
      · obtain ⟨mqtt, -, rfl⟩ := Option.map_eq_some_iff.mp h
        exact speaks_same rfl rfl
  | dispatch id call =>
      simp only [Commands.step, Commands.State.dispatch] at h
      split at h <;> cases h
      exact speaks_same rfl rfl
  | commit id =>
      obtain ⟨f, -, h⟩ := Option.bind_eq_some_iff.mp h
      exact speaks_moves (Commands.moves_of_commit h)
  | refuse id message =>
      obtain ⟨f, -, h⟩ := Option.bind_eq_some_iff.mp h
      obtain ⟨-, rfl⟩ := Commands.refuse_eq h
      exact speaks_same rfl rfl
  | resume id =>
      obtain ⟨f, -, h⟩ := Option.bind_eq_some_iff.mp h
      exact speaks_moves (Commands.moves_of_resume h)
  | registry | restart => cases ha
  | sweep | sweepFails =>
      simp only [Commands.step] at h
      split at h <;> cases h
      exact speaks_same rfl rfl

theorem announced_step {a : Commands.Action} (ha : foreign a = false) (h : Commands.step config s.current a = some c) :
    ∃ es, announced s.commands c = (report config a).toList ++ es ∧ ∀ e ∈ es, Own e := by
  obtain ⟨es, hes, hown⟩ := (speaks_step ha h).events
  refine ⟨es, ?_, hown⟩
  rw [announced, client_events h, hes]
  exact congrArg₂ (· ++ ·) List.drop_left List.drop_left

theorem type_announced {a : Commands.Action} (ha : foreign a = false)
    (h : Commands.step config s.current a = some c) (e : Published) (he : e ∈ announced s.commands c) : e.type = e.payload.eventType := by
  obtain ⟨es, hes, hown⟩ := announced_step ha h
  rw [hes, List.mem_append, Option.mem_toList] at he
  rcases he with he | he
  · cases a with
    | mqtt action =>
        cases action with
        | message topic payload =>
            obtain ⟨x, -, rfl⟩ := Option.map_eq_some_iff.mp he
            rfl
        | _ => cases he
    | _ => cases he
  · cases hown e he with
    | created | completed => rfl

variable (d) in
theorem reportedBase_presence (draw : Draw) {p : Mqtt.ParsedTopic} (status : Mqtt.StatusEnvelope)
    (hp : p.deviceId ≠ "") :
    reportedBase d (createEvent draw.context draw.eventId draw.correlationId draw.now
      (Mqtt.presenceEvent p status)) = if p.deviceId = d then some p.baseTopic else none := by
  rw [reportedBase]
  simp [observe, createEvent, Mqtt.presenceEvent, announce, hp]

theorem reportedBase_own (draw : Draw) {e : Published} (h : Own e) :
    reportedBase d (createEvent draw.context draw.eventId draw.correlationId draw.now e) = none := by
  cases h with
  | created | completed => rfl

theorem heard_announced {a : Commands.Action} {draw : Draw} (ha : foreign a = false)
    (h : Commands.step config s.current a = some c) :
    (announced s.commands c).filterMap (fun e => reportedBase d
      (createEvent draw.context draw.eventId draw.correlationId draw.now e)) =
      (accepted config d (.commands a draw)).toList := by
  obtain ⟨es, hes, hown⟩ := announced_step ha h
  have hquiet : es.filterMap (fun e => reportedBase d
      (createEvent draw.context draw.eventId draw.correlationId draw.now e)) = [] :=
    List.filterMap_eq_nil_iff.mpr fun e he => reportedBase_own draw (hown e he)
  rw [hes, List.filterMap_append, hquiet, List.append_nil]
  cases a with
  | mqtt action =>
      cases action with
      | message topic payload =>
          rw [report, Mqtt.Config.reports, accepted]
          cases hstatus : config.status topic payload with
          | none => rfl
          | some x =>
              have hdevice := Mqtt.deviceId_of_parseTopic (Mqtt.parseTopic_of_status hstatus).1
              rw [Option.map_some, Option.bind_some, Option.toList_some, List.filterMap_cons,
                reportedBase_presence d draw x.2 hdevice]
              cases (if x.1.deviceId = d then some x.1.baseTopic else none) <;> rfl
      | _ => rfl
  | _ => rfl

end Events

section Runs

def publication (draw : Draw) (e : Published) : Devices.Action :=
  .bus (.publish (createEvent draw.context draw.eventId draw.correlationId draw.now e))

theorem step_publication (draw : Draw) (r : Devices.State) {e : Published} (h : e.type = e.payload.eventType) :
    Devices.step r (publication draw e) = some (r.publish draw e) := by
  have houtside : r.outside (.publish (createEvent draw.context draw.eventId draw.correlationId draw.now e)) = true :=
    decide_eq_true h
  rw [publication, Devices.step, if_pos houtside]
  rfl

theorem run_publication (draw : Draw) {events : List Published} (h : ∀ e ∈ events, e.type = e.payload.eventType)
    (r : Devices.State) :
    run Devices.step r (events.map (publication draw)) = some (publish draw r events) := by
  induction events generalizing r with
  | nil => rfl
  | cons e events ih =>
      refine run_cons.mpr ⟨r.publish draw e, step_publication draw r (h e List.mem_cons_self), ?_⟩
      exact ih (fun e' he => h e' (List.mem_cons_of_mem e he)) (r.publish draw e)

def seen (config : Mqtt.Config) (s : State) : Action → List Devices.Action
  | .commands action draw =>
      (Commands.step config s.current action).elim [] fun c => (announced s.commands c).map (publication draw)
  | .registry action => [action]

inductive Step (config : Mqtt.Config) (s : State) : Action → State → Prop
  | commands {action : Commands.Action} {draw : Draw} {c : Commands.State} (ha : foreign action = false)
      (h : Commands.step config s.current action = some c) :
      Step config s (.commands action draw)
        { commands := c, registry := publish draw s.registry (announced s.commands c) }
  | registry {action : Devices.Action} {r : Devices.State} (ha : observes action = false)
      (h : Devices.step s.registry action = some r) : Step config s (.registry action) { s with registry := r }

variable {a : Action}

theorem step_cases (h : step config s a = some t) : Step config s a t := by
  cases a with
  | commands action draw =>
      simp only [step] at h
      split at h
      · cases h
      · rename_i ha
        obtain ⟨c, hc, rfl⟩ := Option.map_eq_some_iff.mp h
        exact .commands (Bool.not_eq_true _ ▸ ha) hc
  | registry action =>
      simp only [step] at h
      split at h
      · cases h
      · rename_i ha
        obtain ⟨r, hr, rfl⟩ := Option.map_eq_some_iff.mp h
        exact .registry (Bool.not_eq_true _ ▸ ha) hr

theorem seen_step (h : step config s a = some t) : run Devices.step s.registry (seen config s a) = some t.registry := by
  cases step_cases h with
  | commands ha hc =>
      rw [seen, hc, Option.elim_some]
      exact run_publication _ (type_announced ha hc) s.registry
  | registry ha hr => exact run_singleton.mpr hr

theorem heard_seen (h : step config s a = some t) :
    (seen config s a).filterMap (heard d) = (accepted config d a).toList := by
  cases step_cases h with
  | commands ha hc =>
      rw [seen, hc, Option.elim_some, List.filterMap_map, ← heard_announced ha hc]
      rfl
  | @registry action r ha hr =>
      have hnone : heard d action = none := by
        cases action with
        | bus action =>
            cases action with
            | publish event =>
                have hobserve : observe event = none := by simpa [observes] using ha
                rw [heard, reportedBase, hobserve, Option.bind_none]
            | _ => rfl
        | _ => rfl
      rw [seen, List.filterMap_cons, hnone]
      rfl

/-- A run of the process is one of the registry, which hears what the gateway accepts. -/
theorem registry_run {as : List Action} (h : run (step config) s as = some t) :
    run Devices.step s.registry (trace (step config) (seen config) s as) = some t.registry ∧
      (trace (step config) (seen config) s as).filterMap (heard d) = as.filterMap (accepted config d) := by
  constructor
  · refine run_trace (P := fun _ => True) State.registry ?_ h trivial
    exact fun s a t _ hs => ⟨trivial, seen_step hs⟩
  · refine filterMap_trace ?_ h
    exact fun s a t hs => heard_seen hs

theorem registered_run {devices : Table DeviceEntity} {connected : Bool} {as : List Action} {base : String}
    (h : run (step config) (boot connected devices) as = some s) (hp : s.registry.Processed d)
    (hbase : Devices.registeredUnder devices d (as.filterMap (accepted config d)) = some base) :
    Registered s.registry d base := by
  obtain ⟨hrun, hheard⟩ := registry_run (d := d) h
  exact Devices.registered_of_processed hrun hp (hheard ▸ hbase)

theorem registered_step {base : String} (hr : Registered s.registry d base) (h : step config s a = some t) :
    Registered t.registry d base :=
  invariant (fun _ _ _ hr hs => Devices.registered_step hr hs) (seen_step h) hr

theorem outcomeInv_step (hi : Commands.OutcomeInv s.commands) (h : step config s a = some t) :
    Commands.OutcomeInv t.commands := by
  cases step_cases h with
  | commands ha hc =>
      have hread : Commands.step config s.commands (.registry (directory s.registry.devices)) = some s.current := rfl
      exact Commands.outcomeInv_step (Commands.outcomeInv_step hi hread) hc
  | registry => exact hi

theorem base_current {base : String} (hr : Registered s.registry d base) (row : Device)
    (hrow : s.current.devices.find d = some row) : row.baseTopic = base := by
  rw [State.current, directory, Table.find_image] at hrow
  obtain ⟨entity, hentity, rfl⟩ := Option.map_eq_some_iff.mp hrow
  exact Option.some.inj (hr.based.row entity hentity)

end Runs

end EspClawPlatform.Backend
