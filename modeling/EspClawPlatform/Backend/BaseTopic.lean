import EspClawPlatform.Backend.Process

namespace EspClawPlatform.Backend

open Run
open Devices (DeviceEntity Registered registeredUnder)

variable {config : Mqtt.Config} {s t : State} {d base last : String}

/-- Every message of a dispatch to the device that begins later on, before the
device reports anew, goes to its command topic under the base topic. -/
def Follows (config : Mqtt.Config) (d last : String) (s : State) : Prop :=
  ∀ bs t, run (step config) s bs = some t → bs.filterMap (accepted config d) = [] →
    ∀ id call draw, .commands (.dispatch id call) draw ∈ bs → call.deviceId = d →
      ∀ m ∈ t.commands.mqtt.wire, m.envelope.id = id → Mqtt.buildTopic last d .command = .ok m.topic

def Agrees (config : Mqtt.Config) (d base last : String) : Prop :=
  ∀ topic, Mqtt.commandTopic config d (some base) = .ok topic → Mqtt.buildTopic last d .command = .ok topic

section Follows

theorem outcomeInv_run {bs : List Action} (hi : Commands.OutcomeInv s.commands)
    (h : run (step config) s bs = some t) : Commands.OutcomeInv t.commands :=
  invariant (P := fun s : State => Commands.OutcomeInv s.commands) (fun _ _ _ hi hs => outcomeInv_step hi hs) h hi

theorem addressing_step {id : String} {a : Action} (hr : Registered s.registry d base)
    (ha : Commands.Addressing config d base id s.commands) (h : step config s a = some t) :
    Commands.Addressing config d base id t.commands := by
  cases step_cases h with
  | commands _ hc =>
      have hcurrent : Commands.Addressing config d base id s.current := ⟨ha.drawn, ha.frames, ha.wire⟩
      exact Commands.addressing_step hcurrent (base_current hr) hc
  | registry => exact ha

theorem follows_of_agrees (hr : Registered s.registry d base) (hi : Commands.OutcomeInv s.commands)
    (hagrees : Agrees config d base last) : Follows config d last s := by
  rintro bs t hrun - id call draw hmem hd m hm hid
  obtain ⟨pre, post, rfl⟩ := List.append_of_mem hmem
  obtain ⟨u, hpre, hrun⟩ := run_append.mp hrun
  obtain ⟨v, hstep, hpost⟩ := run_cons.mp hrun
  have hregistered : Registered u.registry d base :=
    invariant (P := fun s : State => Registered s.registry d base) (fun _ _ _ hr hs => registered_step hr hs) hpre hr
  have hbegun : Commands.Addressing config d base id v.commands := by
    have hcurrent : Commands.OutcomeInv u.current :=
      have hread : Commands.step config u.commands (.registry (directory u.registry.devices)) = some u.current := rfl
      Commands.outcomeInv_step (outcomeInv_run hi hpre) hread
    cases step_cases hstep with
    | commands _ hc => exact Commands.addressing_dispatch hcurrent hd hc
  have hdone : Registered t.registry d base ∧ Commands.Addressing config d base id t.commands := by
    refine invariant (P := fun s : State => Registered s.registry d base ∧
      Commands.Addressing config d base id s.commands) ?_ hpost ⟨registered_step hregistered hstep, hbegun⟩
    exact fun s a t hs h => ⟨registered_step hs.1 h, addressing_step hs.1 hs.2 h⟩
  exact hagrees m.topic (hdone.2.wire m hm hid)

theorem offline_run {bs : List Action} (hoff : s.commands.mqtt.connected = false)
    (h : run (step config) s bs = some t) :
    t.commands.mqtt.connected = false ∧ t.commands.mqtt.wire = s.commands.mqtt.wire := by
  refine invariant (P := fun t : State => t.commands.mqtt.connected = false ∧
    t.commands.mqtt.wire = s.commands.mqtt.wire) ?_ h ⟨hoff, rfl⟩
  rintro u a v ⟨hoff, hwire⟩ h
  cases step_cases h with
  | @commands action draw c ha hc =>
      have hstays : action.restarts = false := by
        cases action with
        | restart => cases ha
        | _ => rfl
      obtain ⟨hoff', hwire'⟩ := Commands.offline_step hc hstays hoff
      exact ⟨hoff', hwire'.trans hwire⟩
  | registry => exact ⟨hoff, hwire⟩

theorem follows_of_offline (hi : Commands.OutcomeInv s.commands) (hoff : s.commands.mqtt.connected = false) :
    Follows config d last s := by
  rintro bs t hrun - id call draw hmem hd m hm hid
  obtain ⟨pre, post, rfl⟩ := List.append_of_mem hmem
  obtain ⟨u, hpre, hrest⟩ := run_append.mp hrun
  obtain ⟨v, hstep, -⟩ := run_cons.mp hrest
  have hnew : id ∉ u.commands.drawn := by
    cases step_cases hstep with
    | commands _ hc =>
        simp only [Commands.step, Commands.State.dispatch] at hc
        split at hc
        · cases hc
        · assumption
  have hnone := ((outcomeInv_run hi hpre).fresh id hnew).2
  rw [Commands.State.published, (offline_run hoff hpre).2, List.any_eq_false] at hnone
  rw [(offline_run hoff hrun).2] at hm
  exact absurd (decide_eq_true hid) (hnone m hm)

end Follows

section Sends

theorem run_commands {c : Commands.State} (draw : Devices.Draw) {as : List Commands.Action}
    (h : run (Commands.step config) s.current as = some c) (ha : ∀ a ∈ as, foreign a = false) :
    ∃ t, run (step config) s (as.map (.commands · draw)) = some t ∧ t.current = c := by
  induction as generalizing s with
  | nil => cases h; exact ⟨s, rfl, rfl⟩
  | cons a as ih =>
      obtain ⟨v, hv, hrun⟩ := run_cons.mp h
      have hown := ha a List.mem_cons_self
      let u : State := { commands := v, registry := publish draw s.registry (announced s.commands v) }
      have hu : step config s (.commands a draw) = some u := by
        rw [step, hown, hv]
        rfl
      have hcurrent : u.current = v := by
        have hdevices : v.devices = directory s.registry.devices := (speaks_step hown hv).devices
        change { v with devices := directory (publish draw s.registry (announced s.commands v)).devices } = v
        rw [publish, Devices.devices_publish, ← hdevices]
      obtain ⟨t, ht, hc⟩ := ih (hcurrent ▸ hrun) fun b hb => ha b (List.mem_cons_of_mem a hb)
      exact ⟨t, run_cons.mpr ⟨u, hu, ht⟩, hc⟩

theorem agrees_of_follows (hr : Registered s.registry d base) (hconnected : s.commands.mqtt.connected = true)
    (h : Follows config d last s) : Agrees config d base last := by
  intro topic htopic
  obtain ⟨id, hid⟩ := exists_fresh (s.commands.drawn ++ s.commands.mqtt.pending.rows.map Prod.fst)
  rw [List.mem_append, not_or] at hid
  obtain ⟨row, hrow⟩ := Option.isSome_iff_exists.mp hr.row
  have hfind : s.current.devices.find d = some row.toDevice := by
    rw [State.current, directory, Table.find_image, hrow]
    rfl
  have hbase := base_current hr _ hfind
  have hfree : s.commands.mqtt.pending.get id = none := by
    cases hget : s.commands.mqtt.pending.get id with
    | none => rfl
    | some promise => exact absurd (List.mem_map_of_mem (Table.get_eq_some.mp hget)) hid.2
  let call : Commands.Call := { deviceId := d, input := { name := "get_system_info" } }
  have hsends : ∃ c, run (Commands.step config) s.current (Commands.sending id call) = some c ∧
      ∃ m ∈ c.mqtt.wire, m.envelope.id = id ∧ m.topic = topic :=
    Commands.sending_publishes hid.1 hfind hconnected hfree (hbase.symm ▸ htopic) rfl
  obtain ⟨c, hrun, m, hm, hmid, rfl⟩ := hsends
  have hown : ∀ a ∈ Commands.sending id call, foreign a = false := by simp [Commands.sending, foreign]
  obtain ⟨t, ht, rfl⟩ := run_commands {} hrun hown
  exact h _ t ht rfl id call {} List.mem_cons_self rfl m hm hmid

end Sends

section Processed

variable {devices : Table DeviceEntity} {connected : Bool} {as : List Action}

/-- The commands follow the last of the processed reports exactly when the base
topic that the device was first registered under still leads to its command
topic: the row keeps that one. -/
theorem commands_follow_iff (h : run (step config) (boot connected devices) as = some s)
    (hp : s.registry.Processed d) (hlast : (as.filterMap (accepted config d)).getLast? = some last) :
    Follows config d last s ↔ (s.commands.mqtt.connected = true →
      ∀ base ∈ registeredUnder devices d (as.filterMap (accepted config d)), Agrees config d base last) := by
  have hi : Commands.OutcomeInv s.commands := outcomeInv_run (Commands.outcomeInv_init connected) h
  obtain ⟨base, hbase⟩ : ∃ base, registeredUnder devices d (as.filterMap (accepted config d)) = some base := by
    cases hreports : as.filterMap (accepted config d) with
    | nil =>
        rw [hreports] at hlast
        cases hlast
    | cons first rest =>
        rw [registeredUnder]
        cases (devices.find d).map (·.baseTopic) with
        | none => exact ⟨first, rfl⟩
        | some base => exact ⟨base, rfl⟩
  have hr := registered_run h hp hbase
  constructor
  · rintro hfollows hconnected base' hbase'
    obtain rfl := Option.some.inj (hbase.symm.trans hbase')
    exact agrees_of_follows hr hconnected hfollows
  · intro hagrees
    cases hconnected : s.commands.mqtt.connected with
    | true => exact follows_of_agrees hr hi (hagrees hconnected base hbase)
    | false => exact follows_of_offline hi hconnected

def online : String := "\x7b\"online\":true\x7d"

def listening : Mqtt.Config where
  defaultBaseTopic := "espclaw"
  parse := fun payload => if payload = online then some (.obj [("online", .bool true)]) else none

def status (topic : String) : Action := .commands (.mqtt (.message topic online)) {}

def firstHandled : List Action :=
  [.bus (.start 0), .bus (.invoke 0 0), .commit 0 0, .resume 0 0 {}, .commit 0 0, .resume 0 0 {}, .commit 0 0,
    .resume 0 0 {}, .commit 0 0, .resume 0 0 {}, .settle 0 0, .bus (.finish 0), .bus (.cleanup 0)].map .registry

def laterHandled (link : Nat) : List Action :=
  [.bus (.start link), .bus (.invoke link 0), .commit link 0, .resume link 0 {}, .commit link 0, .resume link 0 {},
    .commit link 0, .resume link 0 {}, .settle link 0, .bus (.finish link), .bus (.cleanup link)].map .registry

def moved : List Action :=
  [status "espclaw/d1/status"] ++ firstHandled ++ [status "espclaw/acme/d1/status"] ++ laterHandled 3

theorem command_goes_to_the_first_base_topic : ¬ ∀ (config : Mqtt.Config) (connected : Bool)
    (devices : Table DeviceEntity) (as : List Action) (s : State) (d last : String),
    run (step config) (boot connected devices) as = some s → s.registry.Processed d →
      (as.filterMap (accepted config d)).getLast? = some last → Follows config d last s := by
  intro h
  have hfollows := h listening true .empty moved _ "d1" "espclaw/acme" rfl (by decide +kernel) (by decide +kernel)
  have htopic := hfollows ((Commands.sending "c1" { deviceId := "d1", input := { name := "restart" } }).map
    (.commands · {})) _ rfl (by decide +kernel) "c1" _ {} List.mem_cons_self rfl
    { topic := "espclaw/d1/command", envelope := { id := "c1", name := "restart", input := .empty } }
    (by decide +kernel) rfl
  revert htopic
  decide +kernel

def stayed : List Action :=
  [status "espclaw/acme/d1/status"] ++ firstHandled ++ [status "espclaw/acme/d1/status"] ++ laterHandled 3

theorem command_goes_to_the_only_base_topic : ∃ s, run (step listening) (boot true .empty) stayed = some s ∧
    Follows listening "d1" "espclaw/acme" s := by
  refine ⟨_, rfl, (@commands_follow_iff listening _ "d1" "espclaw/acme" .empty true stayed rfl (by decide +kernel)
    (by decide +kernel)).mpr ?_⟩
  rintro - base hbase topic htopic
  have hfirst : registeredUnder .empty "d1" (stayed.filterMap (accepted listening "d1")) = some "espclaw/acme" := by
    decide +kernel
  obtain rfl := Option.some.inj (hfirst.symm.trans hbase)
  exact htopic

end Processed

end EspClawPlatform.Backend
