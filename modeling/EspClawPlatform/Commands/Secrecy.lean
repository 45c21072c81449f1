import EspClawPlatform.Commands.CommandsService

namespace EspClawPlatform.Mqtt

def Message.conceal (m : Message) : Message := { m with envelope := { m.envelope with input := .empty } }

def Command.conceal (c : Command) : Command := { c with message := c.message.map Message.conceal }

theorem key_conceal (c : Command) : Keyed.key c.conceal = Keyed.key c := rfl

def State.conceal (s : State) : State :=
  { s with commands := s.commands.modify Command.conceal key_conceal, wire := s.wire.map Message.conceal }

variable {config : Config} (s : State)

theorem returnRejected_conceal (id deviceId : String) (timeoutMs : Nat) (message : String) :
    s.conceal.returnRejected id deviceId timeoutMs message =
      (s.returnRejected id deviceId timeoutMs message).conceal := by
  simp only [State.returnRejected, State.conceal, Table.modify_save]
  rfl

theorem await_conceal (deviceId : String) (timeoutMs : Nat) (message : Message) :
    s.conceal.await deviceId timeoutMs message.conceal = (s.await deviceId timeoutMs message).conceal := by
  simp only [State.await, State.conceal, Table.modify_save, List.map_append]
  rfl

theorem sendCommand_conceal (deviceId name : String) (input : Record) (options : SendOptions)
    (fresh : String) (failure : Option String) :
    s.conceal.sendCommand config deviceId name .empty options fresh failure =
      Prod.map State.conceal id (s.sendCommand config deviceId name input options fresh failure) := by
  simp only [State.sendCommand]
  change (if !s.connected then _ else if (s.pending.get _).isSome then _ else _) = _
  split
  · rw [returnRejected_conceal]
    rfl
  · split
    · rw [returnRejected_conceal]
      rfl
    · cases commandTopic config deviceId options.baseTopic with
      | error message => rfl
      | ok topic =>
          cases failure with
          | some message => exact congrArg (·, Except.ok s.sent) (returnRejected_conceal ..)
          | none => exact congrArg (·, Except.ok s.sent) (await_conceal s deviceId _ ⟨topic, _, name, input⟩)

theorem save_conceal {f : Command → Command} (hf : ∀ c, f c.conceal = (f c).conceal)
    (commands : Table Command) (promise : Nat) :
    ((commands.modify Command.conceal key_conceal).find promise).elim
    (commands.modify Command.conceal key_conceal)
      (fun c => (commands.modify Command.conceal key_conceal).save (f c)) =
    ((commands.find promise).elim commands fun c => commands.save
      (f c)).modify Command.conceal key_conceal := by
  rw [Table.find_modify]
  cases commands.find promise with
  | none => rfl
  | some c => simp only [Option.map_some, Option.elim_some, hf, Table.modify_save]

theorem handleResponse_conceal (json : Json) :
    s.conceal.handleResponse json = (s.handleResponse json).conceal := by
  simp only [State.handleResponse]
  cases parseResponseEnvelope json with
  | none => rfl
  | some response =>
      simp only [State.conceal]
      cases s.pending.get response.id with
      | none => rfl
      | some promise =>
          simp only
          rw [save_conceal (fun c => (rfl : c.conceal.settle (.resolved response) = (c.settle _).conceal))]

theorem handleMessage_conceal (topic payload : String) :
    s.conceal.handleMessage config topic payload = (s.handleMessage config topic payload).conceal := by
  simp only [State.handleMessage]
  cases parseTopic topic with
  | none => rfl
  | some parsed =>
      simp only
      cases config.parse payload with
      | none => rfl
      | some json =>
          simp only
          split
          · rw [State.handleStatus, State.handleStatus]
            cases parseStatusEnvelope json <;> rfl
          · split
            · exact handleResponse_conceal s json
            · rfl

theorem clearTimers_conceal : s.conceal.clearTimers = s.clearTimers.modify Command.conceal key_conceal := by
  suffices h : ∀ (promises : List Nat) (commands : Table Command),
      promises.foldl
        (fun commands promise => (commands.find promise).elim commands fun c => commands.save
          { c with armed := false })
        (commands.modify Command.conceal key_conceal) =
      (promises.foldl
        (fun commands promise => (commands.find promise).elim commands fun c => commands.save
          { c with armed := false })
        commands).modify Command.conceal key_conceal from h _ _
  intro promises
  induction promises with
  | nil => exact fun _ => rfl
  | cons promise promises ih =>
      intro commands
      rw [List.foldl_cons, List.foldl_cons, ← ih, save_conceal]
      exact fun _ => rfl

theorem fire_conceal (promise : Nat) : s.conceal.fire promise = (s.fire promise).map State.conceal := by
  simp only [State.fire, State.conceal, Table.find_modify]
  cases s.commands.find promise with
  | none => rfl
  | some c =>
      simp only [Option.map_some, Option.bind_eq_bind, Option.bind_some]
      change (if c.armed then _ else _) = _
      split
      · simp only [State.conceal, Table.modify_save, Option.map_some]
        rfl
      · rfl

theorem step_conceal {a : Action} (h : a.sends = false) :
    step config s.conceal a = (step config s a).map State.conceal := by
  cases a with
  | tick ms => rfl
  | sendCommand => cases h
  | message topic payload =>
      simp only [step, handleMessage_conceal]
      change (if s.connected then _ else _) = _
      split <;> rfl
  | timer promise => exact fire_conceal s promise
  | destroy =>
      simp only [step, Option.map_some, State.onModuleDestroy, clearTimers_conceal]
      rfl
  | ended =>
      simp only [step]
      change (if s.closing then _ else _) = _
      split <;> rfl

end EspClawPlatform.Mqtt

namespace EspClawPlatform.Commands

open Devices (Device)
open Mqtt (ResponseEnvelope)

/-- A call without the input that it sends, of which it keeps what is to be recorded. -/
def Call.conceal (call : Call) : Call :=
  { call with
    input :=
      { call.input with
        input := none
        record := some
          { name := call.name
            input := (call.input.record.map (·.input)).getD (call.input.input.getD .empty) } } }

def Frame.conceal : Frame → Frame
  | .finding call => .finding call.conceal
  | .found call device => .found call.conceal device
  | .creating call device command startedAtMs => .creating call.conceal device command startedAtMs
  | .created call device command startedAtMs => .created call.conceal device command startedAtMs
  | f => f

def State.conceal (s : State) : State :=
  { s with mqtt := s.mqtt.conceal, frames := s.frames.mapValues Frame.conceal }

def Action.conceal : Action → Action
  | .dispatch id call => .dispatch id call.conceal
  | a => a

variable {config : Mqtt.Config} (s : State) (id : String)

theorem goto_conceal (f : Frame) : (s.goto id f).conceal = s.conceal.goto id f.conceal := by
  simp only [State.goto, State.conceal, Table.mapValues_set]

theorem finish_conceal (outcome : Except String DispatchOutcome) :
    (s.finish id outcome).conceal = s.conceal.finish id outcome := by
  simp only [State.finish, State.conceal, Table.mapValues_erase]

theorem resolveOutcome_conceal (command : Command) (response : ResponseEnvelope) (startedAtMs : Nat) :
    (s.resolveOutcome id command response startedAtMs).conceal =
      s.conceal.resolveOutcome id command response startedAtMs :=
  goto_conceal ..

theorem dispatch_conceal (call : Call) :
    s.conceal.dispatch id call.conceal = (s.dispatch id call).map State.conceal := by
  rw [State.dispatch, State.dispatch]
  change (if id ∈ s.drawn then _ else _) = _
  split
  · rfl
  · rw [Option.map_some, goto_conceal]
    rfl

theorem commit_conceal (f : Frame) : s.conceal.commit id f.conceal = (s.commit id f).map State.conceal := by
  cases f with
  | finding | creating | closing | recording =>
      simp only [State.commit, Frame.conceal, Option.map_some, goto_conceal]
      rfl
  | _ => rfl

theorem refuse_conceal (message : String) (f : Frame) :
    s.conceal.refuse id message f.conceal = (s.refuse id message f).map State.conceal := by
  cases f with
  | finding | creating | closing | recording =>
      simp only [State.refuse, Frame.conceal, Option.map_some, finish_conceal]
  | _ => rfl

theorem send_conceal (call : Call) (device : Device) (command : Command) (startedAtMs : Nat) :
    s.conceal.send config id call.conceal device command startedAtMs =
      (s.send config id call device command startedAtMs).conceal := by
  have hsent : s.conceal.mqtt.sendCommand config call.conceal.deviceId call.conceal.input.name
      (call.conceal.input.input.getD .empty)
      { baseTopic := some device.baseTopic, timeoutMs := some call.conceal.timeoutMs, id := some id } ""
      call.conceal.failure = _ :=
    Mqtt.sendCommand_conceal s.mqtt call.deviceId call.input.name (call.input.input.getD .empty)
      { baseTopic := some device.baseTopic, timeoutMs := some call.timeoutMs, id := some id } "" call.failure
  simp only [State.send, hsent]
  cases s.mqtt.sendCommand config call.deviceId call.input.name (call.input.input.getD .empty)
    { baseTopic := some device.baseTopic, timeoutMs := some call.timeoutMs,
      id := some id } "" call.failure with
  | mk mqtt returned =>
      cases returned with
      | ok promise =>
          simp only [Prod.map, id_eq]
          rw [goto_conceal]
          rfl
      | error message =>
          simp only [Prod.map, id_eq]
          rw [resolveOutcome_conceal]
          rfl

theorem resume_conceal (f : Frame) :
    s.conceal.resume config id f.conceal = (s.resume config id f).map State.conceal := by
  cases f with
  | found call device =>
      cases device with
      | none =>
          simp only [State.resume, Frame.conceal, Option.map_some, finish_conceal]
          rfl
      | some device =>
          simp only [State.resume, Frame.conceal, Option.map_some, goto_conceal]
          rfl
  | created call device command startedAtMs =>
      exact congrArg some (send_conceal s id call device command startedAtMs)
  | sending command promise startedAtMs =>
      simp only [State.resume, Frame.conceal, State.conceal, Mqtt.State.conceal, Table.find_modify]
      cases s.mqtt.commands.find promise with
      | none => rfl
      | some p =>
          simp only [Option.map_some, Option.bind_eq_bind, Option.bind_some]
          rw [show p.conceal.state = p.state from rfl]
          cases p.state with
          | pending => rfl
          | resolved response =>
              exact congrArg some (resolveOutcome_conceal s id command response startedAtMs).symm
          | rejected message => exact congrArg some (resolveOutcome_conceal s id command _ startedAtMs).symm
  | closed command response startedAtMs =>
      simp only [State.resume, Frame.conceal, Option.map_some, goto_conceal]
      rfl
  | recorded command response result startedAtMs =>
      simp only [State.resume, Frame.conceal, Option.map_some, finish_conceal]
      rfl
  | _ => rfl

/-- The service does the same whatever input its dispatches send, if they record the same. -/
theorem step_conceal (a : Action) : step config s.conceal a.conceal = (step config s a).map State.conceal := by
  have hframe {act act' : Frame → Option State} (id : String)
      (h : ∀ f, act' f.conceal = (act f).map State.conceal) :
      (s.conceal.frames.get id).bind act' = ((s.frames.get id).bind act).map State.conceal := by
    rw [State.conceal, Table.get_mapValues]
    cases s.frames.get id with
    | none => rfl
    | some f => exact h f
  cases a with
  | mqtt action =>
      simp only [Action.conceal, step, State.mqttStep]
      split
      · rfl
      · rename_i hsends
        change (Mqtt.step config s.mqtt.conceal action).map _ = _
        rw [Mqtt.step_conceal s.mqtt (by simpa using hsends), Option.map_map, Option.map_map]
        rfl
  | registry devices => rfl
  | dispatch id call => exact dispatch_conceal s id call
  | commit id => exact hframe id (commit_conceal s id)
  | refuse id message => exact hframe id (refuse_conceal s id message)
  | resume id => exact hframe id (resume_conceal s id)
  | sweep =>
      simp only [Action.conceal, step]
      change (if s.sweeping then _ else _) = _
      split <;> rfl
  | sweepFails =>
      simp only [Action.conceal, step]
      change (if s.sweeping then _ else _) = _
      split <;> rfl
  | restart connected => rfl

end EspClawPlatform.Commands
