import EspClawPlatform.Mqtt.MqttService

namespace EspClawPlatform.Mqtt

open Run

variable {config : Config} {s t : State}

/-- Promises are numbered in order, and an id in flight leads to a promise of
that id that still waits. -/
structure PendingInv (s : State) : Prop where
  fresh : ∀ p c, s.commands.find p = some c → p < s.sent
  waits : ∀ id p, s.pending.get id = some p → ∃ c m, s.commands.find p = some c ∧ c.id = id ∧
    c.message = some m ∧ m.envelope.id = id ∧ c.state = .pending

inductive Shape (config : Config) (s : State) : Action → State → Prop
  | still {a : Action} {t : State} (hc : t.commands = s.commands) (hp : t.pending = s.pending)
      (hs : t.sent = s.sent) : Shape config s a t
  | rejected {a : Action} {t : State} {c : Command} (hn : c.promise = s.sent)
      (hr : ∃ message, c.state = .rejected message)
      (hc : t.commands = s.commands.save c) (hp : t.pending = s.pending) (hs : t.sent = s.sent + 1)
      (hu : c.armed = false) : Shape config s a t
  | sent {a : Action} {t : State} {deviceId : String} {timeoutMs : Nat} {m : Message}
      (hfree : s.pending.get m.envelope.id = none) (ht : t = s.await deviceId timeoutMs m) :
      Shape config s a t
  | response {topic payload : String} {t : State} {parsed : ParsedTopic} {json : Json}
      {r : ResponseEnvelope} {p : Nat}
      (htopic : parseTopic topic = some parsed) (hleaf : parsed.leaf = "response")
      (hjson : config.parse payload = some json) (hr : parseResponseEnvelope json = some r)
      (hw : s.pending.get r.id = some p) (hp : t.pending = s.pending.erase r.id) (hs : t.sent = s.sent)
      (hc : t.commands = (s.commands.find p).elim s.commands fun c => s.commands.save
        (c.settle (.resolved r))) :
      Shape config s (.message topic payload) t
  | timer {c : Command} {t : State} (hf : s.commands.find c.promise = some c)
      (hp : t.pending = s.pending.erase c.id)
      (hs : t.sent = s.sent) (hc : t.commands = s.commands.save (c.settle (.rejected (timedOut c))))
      (ha : c.armed = true) : Shape config s (.timer c.promise) t
  | destroy {t : State} (hp : t.pending = .empty) (hs : t.sent = s.sent) (hc : t.commands = s.clearTimers) :
      Shape config s .destroy t

theorem sendCommand_shape {deviceId name : String} {input : Record} {options : SendOptions} {fresh : String}
    {failure : Option String} : Shape config s (.sendCommand deviceId name input options fresh failure)
      (s.sendCommand config deviceId name input options fresh failure).1 := by
  rw [State.sendCommand]
  split
  · exact .rejected rfl ⟨_, rfl⟩ rfl rfl rfl rfl
  · split
    · exact .rejected rfl ⟨_, rfl⟩ rfl rfl rfl rfl
    · rename_i hfree
      split
      · exact .still rfl rfl rfl
      · split
        · exact .rejected rfl ⟨_, rfl⟩ rfl rfl rfl rfl
        · exact .sent (Option.not_isSome_iff_eq_none.mp hfree) rfl

theorem handleResponse_shape {topic payload : String} {parsed : ParsedTopic} {json : Json}
    (htopic : parseTopic topic = some parsed) (hleaf : parsed.leaf = "response")
    (hjson : config.parse payload = some json) :
    Shape config s (.message topic payload) (s.handleResponse json) := by
  rw [State.handleResponse]
  split
  · exact .still rfl rfl rfl
  · rename_i r hr
    split
    · exact .still rfl rfl rfl
    · rename_i p hw
      exact .response htopic hleaf hjson hr hw rfl rfl rfl

theorem handleMessage_shape (topic payload : String) :
    Shape config s (.message topic payload) (s.handleMessage config topic payload) := by
  rw [State.handleMessage]
  split
  · exact .still rfl rfl rfl
  · rename_i parsed htopic
    split
    · exact .still rfl rfl rfl
    · rename_i json hjson
      split
      · rw [State.handleStatus]
        split <;> exact .still rfl rfl rfl
      · split
        · rename_i hleaf
          exact handleResponse_shape htopic hleaf hjson
        · exact .still rfl rfl rfl

theorem step_shape {a : Action} (h : step config s a = some t) : Shape config s a t := by
  cases a with
  | tick ms => cases h; exact .still rfl rfl rfl
  | sendCommand deviceId name input options fresh failure => cases h; exact sendCommand_shape
  | message topic payload =>
      simp only [step] at h
      split at h <;> cases h
      exact handleMessage_shape topic payload
  | timer p =>
      obtain ⟨c, hc, hfire⟩ := Option.bind_eq_some_iff.mp h
      obtain rfl := Table.key_of_find hc
      split at hfire <;> cases hfire
      rename_i ha
      exact .timer hc rfl rfl rfl ha
  | destroy => cases h; exact .destroy rfl rfl rfl
  | ended =>
      simp only [step] at h
      split at h <;> cases h
      exact .still rfl rfl rfl

theorem find_clearTimers {promises : List Nat} {commands : Table Command} {p : Nat} {c : Command}
    (h : (promises.foldl (fun commands promise => (commands.find promise).elim commands fun c =>
      commands.save { c with armed := false }) commands).find p = some c) :
    ∃ armed, commands.find p = some { c with armed := armed } := by
  induction promises generalizing commands with
  | nil => exact ⟨c.armed, h⟩
  | cons promise promises ih =>
      obtain ⟨armed, ha⟩ := ih h
      cases hf : commands.find promise with
      | none => exact ⟨armed, by simpa [hf] using ha⟩
      | some b =>
          simp only [hf, Option.elim_some, Table.find_save] at ha
          split at ha
          · rename_i hp
            refine ⟨b.armed, ?_⟩
            have hb : p = promise := hp.trans (show b.promise = promise from Table.key_of_find hf)
            rw [hb, hf]
            cases b
            cases c
            simp_all
          · exact ⟨armed, ha⟩

theorem pendingInv_init (connected : Bool) : PendingInv (init connected) where
  fresh := fun _ _ h => by cases h
  waits := fun _ _ h => by cases h

theorem pendingInv_rejected {c : Command} (hi : PendingInv s) (hn : c.promise = s.sent)
    (hc : t.commands = s.commands.save c) (hp : t.pending = s.pending) (hs : t.sent = s.sent + 1) :
    PendingInv t where
  fresh := by
    intro p b hb
    rw [hc, Table.find_save] at hb
    rw [hs]
    split at hb
    · rename_i hpc
      rw [hpc, key_command, hn]
      exact Nat.lt_succ_self _
    · exact Nat.lt_succ_of_lt (hi.fresh p b hb)
  waits := by
    intro id p hw
    rw [hp] at hw
    obtain ⟨b, m, hb, hrest⟩ := hi.waits id p hw
    refine ⟨b, m, ?_, hrest⟩
    rw [hc, Table.find_save_of_ne, hb]
    rw [key_command, hn]
    exact Nat.ne_of_lt (hi.fresh p b hb)

theorem pendingInv_await {deviceId : String} {timeoutMs : Nat} {m : Message} (hi : PendingInv s) :
    PendingInv (s.await deviceId timeoutMs m) where
  fresh := by
    intro p b hb
    simp only [State.await, Table.find_save, key_command] at hb ⊢
    split at hb
    · rename_i hp
      exact Nat.lt_succ_of_le (Nat.le_of_eq hp)
    · exact Nat.lt_succ_of_lt (hi.fresh p b hb)
  waits := by
    intro id p hw
    simp only [State.await, Table.get_set] at hw
    split at hw
    · rename_i hid
      obtain rfl := Option.some.inj hw
      exact ⟨_, m, Table.find_save_self s.commands _, hid.symm, rfl, hid.symm, rfl⟩
    · obtain ⟨b, m', hb, hrest⟩ := hi.waits id p hw
      refine ⟨b, m', ?_, hrest⟩
      rw [State.await, Table.find_save_of_ne, hb]
      exact Nat.ne_of_lt (hi.fresh p b hb)

theorem pendingInv_settle {c : Command} {state : PromiseState} (hi : PendingInv s)
    (hf : s.commands.find c.promise = some c) (hp : t.pending = s.pending.erase c.id)
    (hs : t.sent = s.sent) (hc : t.commands = s.commands.save (c.settle state)) : PendingInv t where
  fresh := by
    intro p b hb
    rw [hc, Table.find_save] at hb
    rw [hs]
    split at hb
    · rename_i hpc
      exact hpc ▸ hi.fresh c.promise c hf
    · exact hi.fresh p b hb
  waits := by
    intro id p hw
    rw [hp, Table.get_erase] at hw
    split at hw
    · cases hw
    · rename_i hid
      obtain ⟨b, m, hb, hbid, hrest⟩ := hi.waits id p hw
      refine ⟨b, m, ?_, hbid, hrest⟩
      rw [hc, Table.find_save_of_ne, hb]
      rintro rfl
      obtain rfl : c = b := Option.some.inj (hf.symm.trans hb)
      exact hid hbid.symm

theorem pendingInv_step {a : Action} (hi : PendingInv s) (h : step config s a = some t) : PendingInv t := by
  cases step_shape h with
  | still hc hp hs => exact ⟨by rw [hc, hs]; exact hi.fresh, by rw [hc, hp]; exact hi.waits⟩
  | rejected hn hr hc hp hs => exact pendingInv_rejected hi hn hc hp hs
  | sent hfree ht => exact ht ▸ pendingInv_await hi
  | response htopic hleaf hjson hr hw hp hs hc =>
      obtain ⟨c, m, hf, hid, -⟩ := hi.waits _ _ hw
      rw [hf] at hc
      obtain rfl := Table.key_of_find hf
      exact pendingInv_settle hi hf (hid ▸ hp) hs hc
  | timer hf hp hs hc => exact pendingInv_settle hi hf hp hs hc
  | destroy hp hs hc =>
      refine ⟨?_, ?_⟩
      · intro p c hf
        rw [hc] at hf
        obtain ⟨armed, hf⟩ := find_clearTimers hf
        exact hs ▸ hi.fresh p _ hf
      · intro id p hw
        rw [hp] at hw
        cases hw

theorem wire_step {a : Action} (h : step config s a = some t) (ha : ¬ a.sends) : t.wire = s.wire := by
  cases a with
  | sendCommand deviceId name input options fresh failure => exact absurd rfl ha
  | tick ms => cases h; rfl
  | destroy => cases h; rfl
  | ended =>
      simp only [step] at h
      split at h <;> cases h
      rfl
  | timer p =>
      obtain ⟨c, hc, hfire⟩ := Option.bind_eq_some_iff.mp h
      split at hfire <;> cases hfire
      rfl
  | message topic payload =>
      simp only [step] at h
      split at h <;> cases h
      simp only [State.handleMessage, State.handleStatus, State.handleResponse]
      repeat' split
      all_goals rfl

theorem wire_sendCommand {deviceId name id : String} {input : Record} {options : SendOptions}
    {fresh : String} {failure : Option String} (hid : options.id = some id) :
    (s.sendCommand config deviceId name input options fresh failure).1.wire = s.wire ∨
      ∃ m : Message, m.envelope.id = id ∧
        (s.sendCommand config deviceId name input options fresh failure).1.wire = s.wire ++ [m] := by
  rw [State.sendCommand]
  split
  · exact .inl rfl
  · split
    · exact .inl rfl
    · split
      · exact .inl rfl
      · split
        · exact .inl rfl
        · exact .inr ⟨_, by simp [hid], rfl⟩

end EspClawPlatform.Mqtt
