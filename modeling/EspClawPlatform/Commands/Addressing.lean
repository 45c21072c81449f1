import EspClawPlatform.Commands.CrossTalk
import EspClawPlatform.Commands.Outcomes

namespace EspClawPlatform.Commands

open Run
open Devices (Device)

variable {config : Mqtt.Config} {s t : State} {id d base : String}

/-- The call of a dispatch that is still to send its message, with the row it has read. -/
def Frame.target : Frame → Option (Call × Option Device)
  | .finding call => some (call, none)
  | .found call device => some (call, device)
  | .creating call device _ _ | .created call device _ _ => some (call, some device)
  | _ => none

def Frame.Addresses (d base : String) (f : Frame) : Prop :=
  ∀ call device, f.target = some (call, device) →
    call.deviceId = d ∧ ∀ row, device = some row → row.baseTopic = base

structure Addressing (config : Mqtt.Config) (d base id : String) (s : State) : Prop where
  drawn : id ∈ s.drawn
  frames : ∀ f, s.frames.get id = some f → f.Addresses d base
  wire : ∀ m ∈ s.mqtt.wire, m.envelope.id = id → Mqtt.commandTopic config d (some base) = .ok m.topic

theorem target_moves {f : Frame} (h : Moves s id f t) :
    t.frames = s.frames.erase id ∨ ∃ g, t.frames = s.frames.set id g ∧ ∀ call device,
      g.target = some (call, device) → ∃ device', f.target = some (call, device') ∧
        (device = device' ∨ device = s.devices.find call.deviceId) := by
  cases h with
  | unknown | returns => exact .inl rfl
  | @answered call =>
      refine .inr ⟨_, rfl, fun call' device' h => ?_⟩
      cases h
      exact ⟨none, rfl, .inr rfl⟩
  | begins | stored =>
      refine .inr ⟨_, rfl, fun call' device' h => ?_⟩
      cases h
      exact ⟨_, rfl, .inl rfl⟩
  | sent | threw | settled | closes | records | saves => exact .inr ⟨_, rfl, fun _ _ h => by cases h⟩

theorem target_step {a : Action} {g : Frame} {call : Call} {device : Option Device}
    (h : step config s a = some t) (hg : t.frames.get id = some g) (htarget : g.target = some (call, device)) :
    a = .dispatch id call ∧ id ∉ s.drawn ∧ device = none ∨
      ∃ f device', s.frames.get id = some f ∧ f.target = some (call, device') ∧
        (device = device' ∨ device = s.devices.find call.deviceId) := by
  have hsame (hf : s.frames.get id = some g) : ∃ f device', s.frames.get id = some f ∧
      f.target = some (call, device') ∧ (device = device' ∨ device = s.devices.find call.deviceId) :=
    ⟨g, device, hf, htarget, .inl rfl⟩
  cases step_shape h with
  | around _ _ hf => exact .inr (hsame (hf ▸ hg))
  | @dispatch j call' _ hnew h =>
      subst h
      rw [State.goto, Table.get_set] at hg
      split at hg
      · rename_i hj
        subst hj
        cases hg
        cases htarget
        exact .inl ⟨rfl, hnew, rfl⟩
      · exact .inr (hsame hg)
  | @moves _ j f _ _ hf h =>
      rcases target_moves h with herase | ⟨g', hset, hreads⟩
      · rw [herase, Table.get_erase] at hg
        split at hg
        · cases hg
        · exact .inr (hsame hg)
      · rw [hset, Table.get_set] at hg
        split at hg
        · rename_i hj
          subst hj
          cases hg
          obtain ⟨device', htarget', hdevice⟩ := hreads call device htarget
          exact .inr ⟨f, device', hf, htarget', hdevice⟩
        · exact .inr (hsame hg)
  | @refused j _ f _ _ _ h =>
      subst h
      rw [State.finish, Table.get_erase] at hg
      split at hg
      · cases hg
      · exact .inr (hsame hg)
  | sweep h => subst h; exact .inr (hsame hg)
  | restart h => subst h; cases hg

theorem wire_sent (config : Mqtt.Config) (s : State) (id : String) (call : Call) (device : Device) :
    (s.sent config id call device).1.wire = s.mqtt.wire ∨
      ∃ m : Mqtt.Message, (s.sent config id call device).1.wire = s.mqtt.wire ++ [m] ∧
        m.envelope = { id := id, name := call.input.name, input := call.input.input.getD .empty } ∧
        Mqtt.commandTopic config call.deviceId (some device.baseTopic) = .ok m.topic := by
  rw [State.sent, Mqtt.State.sendCommand]
  split
  · exact .inl rfl
  · split
    · exact .inl rfl
    · split
      · exact .inl rfl
      · rename_i topic htopic
        split
        · exact .inl rfl
        · exact .inr ⟨_, rfl, rfl, htopic⟩

theorem wire_addressing {a : Action} (ha : Addressing config d base id s) (h : step config s a = some t)
    (m : Mqtt.Message) (hm : m ∈ t.mqtt.wire) (hid : m.envelope.id = id) :
    Mqtt.commandTopic config d (some base) = .ok m.topic := by
  cases mqtt_move h with
  | same _ hmqtt => exact ha.wire m (hmqtt ▸ hm) hid
  | own hown hmqtt => exact ha.wire m (Mqtt.wire_step hmqtt hown ▸ hm) hid
  | @send j call device command n hf ht =>
      subst ht
      rw [mqtt_send] at hm
      rcases wire_sent config s j call device with hwire | ⟨m', hwire, henvelope, htopic⟩
      · exact ha.wire m (hwire ▸ hm) hid
      · rw [hwire, List.mem_append, List.mem_singleton] at hm
        rcases hm with hm | rfl
        · exact ha.wire m hm hid
        · obtain rfl : j = id := (congrArg Mqtt.CommandEnvelope.id henvelope).symm.trans hid
          obtain ⟨hd, hbase⟩ := ha.frames _ hf call (some device) rfl
          rwa [← hd, ← hbase device rfl]
  | restart ht => subst ht; exact ha.wire m hm hid

theorem drawn_step {a : Action} (h : step config s a = some t) (hd : id ∈ s.drawn) : id ∈ t.drawn := by
  cases step_shape h with
  | around _ hleaves => exact (hleaves id).drawn.mpr hd
  | dispatch _ h => subst h; exact List.mem_cons_of_mem _ hd
  | moves _ _ hm => exact (drawn_moves hm).mpr hd
  | refused _ _ h | sweep h | restart h => subst h; exact hd

theorem frames_addressing {a : Action} (ha : Addressing config d base id s)
    (hrow : ∀ row, s.devices.find d = some row → row.baseTopic = base) (h : step config s a = some t) (g : Frame)
    (hg : t.frames.get id = some g) : g.Addresses d base := by
  intro call device htarget
  rcases target_step h hg htarget with ⟨-, hnew, -⟩ | ⟨f, device', hf, htarget', hdevice⟩
  · exact absurd ha.drawn hnew
  · obtain ⟨rfl, hread⟩ := ha.frames f hf call device' htarget'
    rcases hdevice with rfl | rfl
    · exact ⟨rfl, hread⟩
    · exact ⟨rfl, hrow⟩

theorem addressing_step {a : Action} (ha : Addressing config d base id s)
    (hrow : ∀ row, s.devices.find d = some row → row.baseTopic = base) (h : step config s a = some t) :
    Addressing config d base id t where
  drawn := drawn_step h ha.drawn
  frames := frames_addressing ha hrow h
  wire := wire_addressing ha h

section Offline

theorem connected_step {a : Mqtt.Action} {m m' : Mqtt.State} (h : Mqtt.step config m a = some m')
    (hoff : m.connected = false) (ha : ¬ a.sends) : m'.connected = false := by
  cases a with
  | sendCommand => exact absurd rfl ha
  | message =>
      rw [Mqtt.step, hoff] at h
      cases h
  | timer =>
      obtain ⟨c, -, -, -, rfl⟩ := Mqtt.fire_eq h
      exact hoff
  | tick | destroy => cases h; exact hoff
  | ended =>
      simp only [Mqtt.step] at h
      split at h <;> cases h
      rfl

theorem offline_step {a : Action} (h : step config s a = some t) (ha : a.restarts = false)
    (hoff : s.mqtt.connected = false) : t.mqtt.connected = false ∧ t.mqtt.wire = s.mqtt.wire := by
  cases mqtt_move h with
  | same _ hm => exact ⟨hm ▸ hoff, congrArg Mqtt.State.wire hm⟩
  | own hown hm => exact ⟨connected_step hm hoff hown, Mqtt.wire_step hm hown⟩
  | send hf ht =>
      rw [ht, mqtt_send, State.sent, Mqtt.State.sendCommand, hoff]
      exact ⟨hoff, rfl⟩
  | restart => cases ha

end Offline

theorem addressing_dispatch {call : Call} (hi : OutcomeInv s) (hd : call.deviceId = d)
    (h : step config s (.dispatch id call) = some t) : Addressing config d base id t := by
  simp only [step, State.dispatch] at h
  split at h <;> cases h
  rename_i hnew
  refine ⟨List.mem_cons_self, fun f hf => ?_, fun m hm hid => ?_⟩
  · obtain rfl := Option.some.inj ((Table.get_set_self _ _ _).symm.trans hf)
    intro call' device htarget
    cases htarget
    exact ⟨hd, fun _ hrow => by cases hrow⟩
  · have hnone := (hi.fresh id hnew).2
    rw [State.published, List.any_eq_false] at hnone
    exact absurd (decide_eq_true hid) (hnone m hm)

section Sending

variable {f : Frame}

theorem commit_goto (config : Mqtt.Config) (s : State) :
    step config (s.goto id f) (.commit id) = (s.goto id f).commit id f := by
  rw [step, frame_goto, Option.bind_some]

theorem resume_goto (config : Mqtt.Config) (s : State) :
    step config (s.goto id f) (.resume id) = (s.goto id f).resume config id f := by
  rw [step, frame_goto, Option.bind_some]

def sending (id : String) (call : Call) : List Action :=
  [.dispatch id call, .commit id, .resume id, .commit id, .resume id]

theorem sending_publishes {call : Call} {device : Device} {topic : String} (hd : id ∉ s.drawn)
    (hrow : s.devices.find call.deviceId = some device) (hconnected : s.mqtt.connected = true)
    (hfree : s.mqtt.pending.get id = none)
    (htopic : Mqtt.commandTopic config call.deviceId (some device.baseTopic) = .ok topic)
    (hfailure : call.failure = none) : ∃ t, run (step config) s (sending id call) = some t ∧
      ∃ m ∈ t.mqtt.wire, m.envelope.id = id ∧ m.topic = topic := by
  let s₁ := { s with drawn := id :: s.drawn }.goto id (.finding call)
  have h₁ : step config s (.dispatch id call) = some s₁ := by rw [step, State.dispatch, if_neg hd]
  let s₂ := s₁.goto id (.found call (some device))
  have h₂ : step config s₁ (.commit id) = some s₂ := by
    rw [commit_goto, State.commit]
    change some (s₁.goto id (.found call (s.devices.find call.deviceId))) = _
    rw [hrow]
  let s₃ := s₂.goto id (.creating call device (call.command id) s₂.now)
  have h₃ : step config s₂ (.resume id) = some s₃ := resume_goto config s₁
  let stored := { call.command id with createdAt := s₃.now }
  let s₄ := { s₃ with commands := s₃.commands.save stored }.goto id (.created call device stored s₂.now)
  have h₄ : step config s₃ (.commit id) = some s₄ := commit_goto config s₂
  have h₅ : step config s₄ (.resume id) = some (s₄.send config id call device stored s₂.now) :=
    resume_goto config { s₃ with commands := s₃.commands.save stored }
  let message : Mqtt.Message :=
    { topic := topic
      envelope := { id := id, name := call.input.name, input := call.input.input.getD .empty } }
  refine ⟨_, run_cons.mpr ⟨s₁, h₁, run_cons.mpr ⟨s₂, h₂, run_cons.mpr ⟨s₃, h₃, run_cons.mpr ⟨s₄, h₄,
    run_singleton.mpr h₅⟩⟩⟩⟩, message, ?_, rfl, rfl⟩
  rw [mqtt_send, show s₄.sent config id call device = s.sent config id call device from rfl, State.sent,
    Mqtt.State.sendCommand, hconnected]
  simp only [Option.getD_some, hfree, htopic, hfailure]
  exact List.mem_append_right _ (List.mem_singleton_self _)

end Sending

end EspClawPlatform.Commands
