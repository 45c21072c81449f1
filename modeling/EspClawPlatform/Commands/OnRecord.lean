import EspClawPlatform.Commands.Addressing

namespace EspClawPlatform.Commands

open Run
open Devices (Device)

variable {config : Mqtt.Config} {s t : State} {id : String} {call : Call}

def Command.asked (c : Command) : Command := { c with status := .pending, createdAt := 0, resolvedAt := none }

theorem asked_sweep (now : Nat) (c : Command) : (c.sweep now).asked = c.asked := by
  rw [Command.sweep]
  split <;> rfl

def Frame.Asks (id : String) (call : Call) : Frame → Prop
  | .finding call' | .found call' _ => call' = call
  | .creating call' _ c _ | .created call' _ c _ => call' = call ∧ c.asked = call.command id
  | .sending c _ _ | .closing c _ _ | .closed c _ _ | .recording c _ _ _ | .recorded c _ _ _ =>
      c.asked = call.command id

structure OnRecord (id : String) (call : Call) (s : State) : Prop where
  drawn : id ∈ s.drawn
  frame : ∀ f, s.frames.get id = some f → f.Asks id call
  row : ∀ c, s.commands.find id = some c → c.asked = call.command id
  wire : ∀ m ∈ s.mqtt.wire, m.envelope.id = id →
    m.envelope = { id := id, name := call.input.name, input := call.input.input.getD .empty } ∧
      (s.commands.find id).isSome

theorem asks_moves {f : Frame} (hf : f.Asks id call) (h : Moves s id f t) :
    (∀ g, t.frames.get id = some g → g.Asks id call) ∧
      (t.commands = s.commands ∨ ∃ c, c.asked = call.command id ∧ t.commands = s.commands.save c) := by
  have hgoto {u : State} {g : Frame} (hg : g.Asks id call) :
      ∀ g', (u.goto id g).frames.get id = some g' → g'.Asks id call := by
    intro g' hg'
    rw [frame_goto] at hg'
    exact Option.some.inj hg' ▸ hg
  have hfinish {u : State} {outcome : Except String DispatchOutcome} :
      ∀ g', (u.finish id outcome).frames.get id = some g' → g'.Asks id call := by
    intro g' hg'
    rw [frame_finish] at hg'
    cases hg'
  cases h with
  | answered => exact ⟨hgoto hf, .inl rfl⟩
  | unknown => exact ⟨hfinish, .inl rfl⟩
  | begins => exact ⟨hgoto ⟨hf, congrArg (fun call => (Call.command call id).asked) hf⟩, .inl rfl⟩
  | @stored _ _ c _ => exact ⟨hgoto hf, .inr ⟨{ c with createdAt := s.now }, hf.2, rfl⟩⟩
  | sent => exact ⟨hgoto hf.2, .inl rfl⟩
  | threw => exact ⟨hgoto hf.2, .inl rfl⟩
  | settled => exact ⟨hgoto hf, .inl rfl⟩
  | closes => exact ⟨hgoto hf, .inr ⟨_, hf, rfl⟩⟩
  | records => exact ⟨hgoto hf, .inl rfl⟩
  | saves => exact ⟨hgoto hf, .inl rfl⟩
  | returns => exact ⟨hfinish, .inl rfl⟩

theorem row_step {a : Action} (hl : Linked s) (ho : OnRecord id call s) (h : step config s a = some t) :
    (∀ c, t.commands.find id = some c → c.asked = call.command id) ∧
      ((s.commands.find id).isSome → (t.commands.find id).isSome) := by
  have hsame (hc : t.commands.find id = s.commands.find id) :
      (∀ c, t.commands.find id = some c → c.asked = call.command id) ∧
        ((s.commands.find id).isSome → (t.commands.find id).isSome) := by
    rw [hc]
    exact ⟨ho.row, fun h => h⟩
  cases step_shape h with
  | around _ hleaves => exact hsame (hleaves id).row
  | dispatch _ h => subst h; exact hsame rfl
  | @moves _ j f _ _ hf h =>
      by_cases hj : id = j
      · subst hj
        rcases (asks_moves (ho.frame f hf) h).2 with hc | ⟨c, hasked, hc⟩
        · exact hsame (congrArg (fun commands => commands.find id) hc)
        · have hid : c.id = id := congrArg Command.id hasked
          have hfind : t.commands.find id = some c := by
            rw [hc, ← hid]
            exact Table.find_save_self _ _
          rw [hfind]
          exact ⟨fun c' hc' => Option.some.inj hc' ▸ hasked, fun _ => rfl⟩
      · exact hsame (leaves_moves (hl.named j f hf) h hj).row
  | refused _ _ h => subst h; exact hsame rfl
  | sweep h =>
      subst h
      have hfind : s.sweep.commands.find id = (s.commands.find id).map (Command.sweep s.now) :=
        Table.find_modify _ _ (Command.id_sweep s.now) _
      rw [hfind]
      refine ⟨fun c hc => ?_, fun h => by rwa [Option.isSome_map]⟩
      obtain ⟨c, hfind, rfl⟩ := Option.map_eq_some_iff.mp hc
      rw [asked_sweep]
      exact ho.row c hfind
  | restart h => subst h; exact hsame rfl

theorem wire_step {a : Action} (hc : CompletionInv s) (h : step config s a = some t) :
    t.mqtt.wire = s.mqtt.wire ∨ ∃ (m : Mqtt.Message) (j : String) (call : Call) (device : Device) (c : Command)
      (n : Nat), t.mqtt.wire = s.mqtt.wire ++ [m] ∧ s.frames.get j = some (.created call device c n) ∧
        m.envelope = { id := j, name := call.input.name, input := call.input.input.getD .empty } ∧
          Mqtt.commandTopic config call.deviceId (some device.baseTopic) = .ok m.topic ∧
          (t.commands.find j).isSome := by
  cases mqtt_move h with
  | same _ hm => exact .inl (congrArg Mqtt.State.wire hm)
  | own hown hm => exact .inl (Mqtt.wire_step hm hown)
  | @send j call device c n hf ht =>
      subst ht
      rcases wire_sent config s j call device with hw | ⟨m, hw, hm, htopic⟩
      · exact .inl (by rw [mqtt_send, hw])
      · refine .inr ⟨m, j, call, device, c, n, by rw [mqtt_send, hw], hf, hm, htopic, ?_⟩
        have hstage := hc.stage j
        rw [hf] at hstage
        obtain ⟨b, hb⟩ : ∃ b, s.view j = ⟨some b, none, []⟩ := hstage
        have hrow : (s.send config j call device c n).commands = s.commands := by
          rw [State.send]
          split <;> rfl
        rw [hrow, show s.commands.find j = some b from congrArg View.row hb]
        rfl
  | restart ht => subst ht; exact .inl rfl

theorem onRecord_step {a : Action} (hc : CompletionInv s) (ho : OnRecord id call s)
    (h : step config s a = some t) : OnRecord id call t where
  drawn := drawn_step h ho.drawn
  frame := by
    intro g hg
    cases step_shape h with
    | around _ _ hf => exact ho.frame g (hf ▸ hg)
    | @dispatch j _ _ hnew h =>
        subst h
        have hj : id ≠ j := fun he => hnew (he ▸ ho.drawn)
        exact ho.frame g ((Table.get_set_of_ne _ _ hj).symm.trans hg)
    | @moves _ j f _ _ hf h =>
        by_cases hj : id = j
        · subst hj
          exact (asks_moves (ho.frame f hf) h).1 g hg
        · exact ho.frame g ((leaves_moves (hc.linked.named j f hf) h hj).frame ▸ hg)
    | @refused j _ f _ hf _ h =>
        subst h
        rw [State.finish, Table.get_erase] at hg
        split at hg
        · cases hg
        · exact ho.frame g hg
    | sweep h => subst h; exact ho.frame g hg
    | restart h => subst h; cases hg
  row := (row_step hc.linked ho h).1
  wire := by
    intro m hm hid
    rcases wire_step hc h with hw | ⟨m', j, call', device, c, n, hw, hf, hm', -, hsome⟩
    · rw [hw] at hm
      obtain ⟨henv, hrow⟩ := ho.wire m hm hid
      exact ⟨henv, (row_step hc.linked ho h).2 hrow⟩
    · rw [hw] at hm
      rcases List.mem_append.mp hm with hm | hm
      · obtain ⟨henv, hrow⟩ := ho.wire m hm hid
        exact ⟨henv, (row_step hc.linked ho h).2 hrow⟩
      · obtain rfl := List.mem_singleton.mp hm
        obtain rfl : j = id := (congrArg Mqtt.CommandEnvelope.id hm').symm.trans hid
        obtain ⟨rfl, -⟩ := ho.frame _ hf
        exact ⟨hm', hsome⟩

theorem onRecord_dispatch (hc : CompletionInv s) (hi : OutcomeInv s)
    (h : step config s (.dispatch id call) = some t) : OnRecord id call t := by
  simp only [step, State.dispatch] at h
  split at h <;> cases h
  rename_i hnew
  refine ⟨List.mem_cons_self, fun f hf => ?_, fun c hrow => ?_, fun m hm hid => ?_⟩
  · rw [frame_goto] at hf
    exact Option.some.inj hf ▸ rfl
  · have hnone := congrArg View.row (hc.fresh id hnew)
    cases hnone.symm.trans hrow
  · have hnone := (hi.fresh id hnew).2
    rw [State.published, List.any_eq_false] at hnone
    exact absurd (decide_eq_true hid) (hnone m hm)

def Listed (as : List Action) (id : String) (device : Device) : Prop :=
  ∃ devices, .registry devices ∈ as ∧ devices.find id = some device

/-- The message went to the command topic of a device that the registry had under the id. -/
def SentTo (config : Mqtt.Config) (as : List Action) (m : Mqtt.Message) (id : String) : Prop :=
  ∃ device, Listed as id device ∧ Mqtt.commandTopic config id (some device.baseTopic) = .ok m.topic

structure WireInv (config : Mqtt.Config) (as : List Action) (s : State) : Prop where
  completion : CompletionInv s
  outcomes : OutcomeInv s
  record : ∀ id ∈ s.drawn, ∃ call, .dispatch id call ∈ as ∧ OnRecord id call s
  drawn : ∀ m ∈ s.mqtt.wire, m.envelope.id ∈ s.drawn
  once : (s.mqtt.wire.map fun m => m.envelope.id).Nodup
  devices : ∀ id device, s.devices.find id = some device → Listed as id device
  reads : ∀ id f call device, s.frames.get id = some f → f.target = some (call, some device) →
    Listed as call.deviceId device
  sent : ∀ m ∈ s.mqtt.wire, ∀ row, s.commands.find m.envelope.id = some row →
    SentTo config as m row.deviceId

theorem wireInv_init (connected : Bool) : WireInv config [] (init connected) where
  completion := completionInv_init connected
  outcomes := outcomeInv_init connected
  record := fun _ h => by cases h
  drawn := fun _ h => by cases h
  once := List.nodup_nil
  devices := fun _ _ h => by cases h
  reads := fun _ _ _ _ h => by cases h
  sent := fun _ h => by cases h

theorem drawn_eq {a : Action} (h : step config s a = some t) :
    t.drawn = s.drawn ∨ ∃ id call, a = .dispatch id call ∧ t.drawn = id :: s.drawn := by
  cases a with
  | dispatch id call =>
      simp only [step, State.dispatch] at h
      split at h <;> cases h
      exact .inr ⟨id, call, rfl, rfl⟩
  | mqtt action =>
      simp only [step, State.mqttStep] at h
      split at h
      · cases h
      · obtain ⟨mqtt, -, rfl⟩ := Option.map_eq_some_iff.mp h
        exact .inl rfl
  | registry | restart => cases h; exact .inl rfl
  | commit id =>
      obtain ⟨f, -, h⟩ := Option.bind_eq_some_iff.mp h
      cases f <;> cases h <;> exact .inl rfl
  | refuse id =>
      obtain ⟨f, -, h⟩ := Option.bind_eq_some_iff.mp h
      cases f <;> cases h <;> exact .inl rfl
  | resume id =>
      obtain ⟨f, -, h⟩ := Option.bind_eq_some_iff.mp h
      cases f with
      | found call device => cases device <;> cases h <;> exact .inl rfl
      | created =>
          cases h
          rw [State.send]
          split <;> exact .inl rfl
      | sending =>
          obtain ⟨p, -, h⟩ := Option.bind_eq_some_iff.mp h
          split at h <;> cases h <;> exact .inl rfl
      | closed | recorded => cases h; exact .inl rfl
      | _ => cases h
  | sweep | sweepFails =>
      simp only [step] at h
      split at h <;> cases h
      exact .inl rfl

theorem Listed.later {as : List Action} {device : Device} (h : Listed as id device) (bs : List Action) :
    Listed (as ++ bs) id device := by
  obtain ⟨devices, hmem, hfind⟩ := h
  exact ⟨devices, List.mem_append_left bs hmem, hfind⟩

theorem devices_step {a : Action} (h : step config s a = some t) :
    t.devices = s.devices ∨ ∃ devices, a = .registry devices ∧ t.devices = devices := by
  cases a with
  | registry devices => cases h; exact .inr ⟨devices, rfl, rfl⟩
  | mqtt action =>
      simp only [step, State.mqttStep] at h
      split at h
      · cases h
      · obtain ⟨mqtt, -, rfl⟩ := Option.map_eq_some_iff.mp h
        exact .inl rfl
  | dispatch id call =>
      simp only [step, State.dispatch] at h
      split at h <;> cases h
      exact .inl rfl
  | commit id =>
      obtain ⟨f, -, h⟩ := Option.bind_eq_some_iff.mp h
      cases moves_of_commit h <;> exact .inl rfl
  | refuse id =>
      obtain ⟨f, -, h⟩ := Option.bind_eq_some_iff.mp h
      obtain ⟨-, rfl⟩ := refuse_eq h
      exact .inl rfl
  | resume id =>
      obtain ⟨f, -, h⟩ := Option.bind_eq_some_iff.mp h
      cases moves_of_resume h <;> exact .inl rfl
  | sweep | sweepFails =>
      simp only [step] at h
      split at h <;> cases h
      exact .inl rfl
  | restart => cases h; exact .inl rfl

theorem sentTo_step {as : List Action} {a : Action} (hw : WireInv config as s) (h : step config s a = some t)
    {m : Mqtt.Message} (hm : m ∈ t.mqtt.wire) {row : Command} (hrow : t.commands.find m.envelope.id = some row) :
    SentTo config (as ++ [a]) m row.deviceId := by
  have hold (hm : m ∈ s.mqtt.wire) : SentTo config (as ++ [a]) m row.deviceId := by
    obtain ⟨call, -, ho⟩ := hw.record _ (hw.drawn m hm)
    obtain ⟨-, hsome⟩ := ho.wire m hm rfl
    obtain ⟨before, hbefore⟩ := Option.isSome_iff_exists.mp hsome
    obtain ⟨device, hlisted, htopic⟩ := hw.sent m hm before hbefore
    have hsame : before.deviceId = row.deviceId :=
      (congrArg Command.deviceId (ho.row before hbefore)).trans
        (congrArg Command.deviceId ((row_step hw.completion.linked ho h).1 row hrow)).symm
    exact ⟨device, hsame ▸ hlisted.later [a], hsame ▸ htopic⟩
  rcases wire_step hw.completion h with he | ⟨m', j, call, device, c, n, he, hf, henvelope, htopic, -⟩
  · exact hold (he ▸ hm)
  · rw [he] at hm
    rcases List.mem_append.mp hm with hm | hm
    · exact hold hm
    · obtain rfl := List.mem_singleton.mp hm
      have hid : m.envelope.id = j := congrArg Mqtt.CommandEnvelope.id henvelope
      obtain ⟨call', -, ho⟩ := hw.record j (hw.completion.linked.drawn j _ hf)
      obtain ⟨rfl, -⟩ := ho.frame _ hf
      have hasked : row.asked = call.command j := (row_step hw.completion.linked ho h).1 row (hid ▸ hrow)
      have hdevice : row.deviceId = call.deviceId := congrArg Command.deviceId hasked
      exact ⟨device, hdevice ▸ (hw.reads j _ call device hf rfl).later [a], hdevice ▸ htopic⟩

theorem wireInv_step {as : List Action} {a : Action} (hw : WireInv config as s) (h : step config s a = some t) :
    WireInv config (as ++ [a]) t where
  completion := completionInv_step hw.completion h
  outcomes := outcomeInv_step hw.outcomes h
  record := by
    intro id hid
    by_cases hold : id ∈ s.drawn
    · obtain ⟨call, hmem, ho⟩ := hw.record id hold
      exact ⟨call, List.mem_append_left _ hmem, onRecord_step hw.completion ho h⟩
    · rcases drawn_eq h with hd | ⟨j, call, rfl, hd⟩
      · exact absurd (hd ▸ hid) hold
      · rw [hd, List.mem_cons, or_iff_left hold] at hid
        subst hid
        exact ⟨call, List.mem_append_right _ (List.mem_singleton_self _),
          onRecord_dispatch hw.completion hw.outcomes h⟩
  drawn := by
    intro m hm
    rcases wire_step hw.completion h with he | ⟨m', j, call, device, c, n, he, hf, hm', -, -⟩
    · exact drawn_step h (hw.drawn m (he ▸ hm))
    · rw [he] at hm
      rcases List.mem_append.mp hm with hm | hm
      · exact drawn_step h (hw.drawn m hm)
      · obtain rfl := List.mem_singleton.mp hm
        rw [hm']
        exact drawn_step h (hw.completion.linked.drawn j _ hf)
  once := by
    rcases wire_step hw.completion h with he | ⟨m', j, call, device, c, n, he, hf, hm', -, -⟩
    · rw [he]
      exact hw.once
    · rw [he, List.map_append, List.nodup_append]
      refine ⟨hw.once, List.nodup_singleton _, fun x hx y hy => ?_⟩
      obtain ⟨m, hm, rfl⟩ := List.mem_map.mp hx
      obtain rfl := List.mem_singleton.mp hy
      intro heq
      have hnone := hw.outcomes.unsent j _ hf rfl
      rw [State.published, List.any_eq_false] at hnone
      exact hnone m hm (decide_eq_true (heq.trans (congrArg Mqtt.CommandEnvelope.id hm')))
  devices := by
    intro id device hfind
    rcases devices_step h with hd | ⟨devices, rfl, rfl⟩
    · exact (hw.devices id device (hd ▸ hfind)).later [a]
    · exact ⟨t.devices, List.mem_append_right _ (List.mem_singleton_self _), hfind⟩
  reads := by
    intro id g call device hg htarget
    rcases target_step h hg htarget with ⟨-, -, hnone⟩ | ⟨f, device', hf, htarget', hdevice⟩
    · cases hnone
    · rcases hdevice with rfl | hfind
      · exact (hw.reads id f call device hf htarget').later [a]
      · exact (hw.devices call.deviceId device hfind.symm).later [a]
  sent := fun _ hm _ hrow => sentTo_step hw h hm hrow

theorem wireInv_run {connected : Bool} {as : List Action} (h : run (step config) (init connected) as = some s) :
    WireInv config as s := by
  have hlog := log_along (f := some) (I := fun as s => WireInv config as s) (fun as s a t hw hs => wireInv_step hw hs) h
    (wireInv_init connected)
  rwa [List.nil_append, List.filterMap_some] at hlog

end EspClawPlatform.Commands
