import EspClawPlatform.Commands.CrossTalk

namespace EspClawPlatform.Commands

open Run
open Devices (Device)
open Mqtt (ResponseEnvelope TimerInv)

inductive Obstacle
  | noClient | inFlight | baseTopic | deviceId
  | library (message : String)
  deriving DecidableEq

def Obstacle.text (id : String) : Obstacle → String
  | .noClient => Mqtt.notConnected
  | .inFlight => s!"Command id {id} is already in flight"
  | .baseTopic => "baseTopic is required"
  | .deviceId => "deviceId is required"
  | .library message => message

def obstacle (config : Mqtt.Config) (m : Mqtt.State) (id : String) (call : Call) (device : Device) :
    Option Obstacle :=
  let base := if device.baseTopic = "" then config.defaultBaseTopic else device.baseTopic
  if !m.connected then some .noClient
  else if (m.pending.get id).isSome then some .inFlight
  else if trim base = "" then some .baseTopic
  else if trim call.deviceId = "" then some .deviceId
  else call.failure.map .library

inductive Cause
  | unsent (obstacle : Obstacle)
  | answered (response : ResponseEnvelope)
  | timer
  deriving DecidableEq

/-- The status that is to be recorded. Of an answer that is not ok nothing is
asked, and no cause but such an answer allows a rejection. -/
def Cause.Allows : Cause → CommandStatus → Prop
  | .unsent _, status => status = .failed
  | .answered response, status => response.ok = true → status = .succeeded
  | .timer, status => status = .timedOut

def exposed : String := "is not exposed to the LLM"

/-- The text of the obstacle says neither that the device has denied the command nor that it has timed out. -/
def Obstacle.Plain (id : String) : Obstacle → Prop
  | .inFlight => includes id exposed = false ∧ includes id "timed out" = false
  | .library message => matchesDenial message = false ∧ includes message "timed out" = false
  | _ => True

def Cause.Plain (id : String) (call : Call) : Cause → Prop
  | .unsent obstacle => obstacle.Plain id
  | .answered _ => True
  | .timer => includes id exposed = false ∧ includes call.deviceId exposed = false

def Cause.response (id : String) (call : Call) : Cause → ResponseEnvelope
  | .unsent obstacle => errorResponse id (obstacle.text id)
  | .answered response => response
  | .timer => errorResponse id s!"Command {id} to device {call.deviceId} timed out after {call.timeoutMs}ms"

section Texts

variable {id : String} {call : Call}

theorem includes_milliseconds (n : Nat) : includes (toString n ++ "ms") exposed = false := by
  rw [includes, decide_eq_false_iff_not]
  intro h
  have hspace : ' ' ∈ (toString n ++ "ms").toList := h.subset (by decide +kernel)
  rw [String.toList_append, List.mem_append] at hspace
  rcases hspace with hspace | hspace
  · have htext : (toString n).toList = Nat.toDigits 10 n := Nat.toList_repr
    rw [htext] at hspace
    have hdigit := Nat.isDigit_of_mem_toDigits (by decide) (by decide) hspace
    cases hdigit
  · revert hspace
    decide +kernel

theorem startsWith_append {x start : String} (h : ¬ start.toList <+: x.toList ∧ ¬ x.toList <+: start.toList)
    (y : String) : startsWith (x ++ y) start = false := by
  rw [startsWith, ← Bool.not_eq_true, List.isPrefixOf_iff_prefix, String.toList_append]
  intro hstart
  exact (List.prefix_or_prefix_of_prefix hstart (List.prefix_append x.toList y.toList)).elim h.1 h.2

/-- What the platform says of a command can only meet the unanchored part of the pattern. -/
theorem denial_command (rest : String) : matchesDenial ("Command " ++ rest) = includes rest exposed := by
  have hdenied : startsWith ("Command " ++ rest) "Denied agent cap call" = false :=
    startsWith_append (by decide +kernel) rest
  have herror : startsWith ("Command " ++ rest) "Error: " = false := startsWith_append (by decide +kernel) rest
  have hskip : includes ("Command " ++ rest) exposed = includes rest exposed :=
    includes_skip (by decide +kernel) rest
  rw [matchesDenial, hdenied, dropPrefix, herror, ← hskip]
  simp [exposed]

theorem timer_text (id deviceId : String) (n : Nat) :
    s!"Command {id} to device {deviceId} timed out after {n}ms" =
      "Command " ++ (id ++ (" to device " ++ (deviceId ++ (" timed out after " ++ (toString n ++ "ms"))))) := by
  simp only [String.append_assoc]
  rfl

theorem denial_timer (id deviceId : String) (n : Nat) :
    matchesDenial s!"Command {id} to device {deviceId} timed out after {n}ms" =
      (includes id exposed || includes deviceId exposed) := by
  rw [timer_text, denial_command, includes_apart (by decide +kernel), includes_skip (by decide +kernel),
    includes_apart (by decide +kernel), includes_skip (by decide +kernel), includes_milliseconds, Bool.or_false]

theorem includes_timer (id deviceId : String) (n : Nat) :
    includes s!"Command {id} to device {deviceId} timed out after {n}ms" "timed out" = true := by
  have hsplit : s!"Command {id} to device {deviceId} timed out after {n}ms" =
      ("Command " ++ id ++ " to device " ++ deviceId ++ " ") ++ ("timed out" ++ (" after " ++ toString n ++ "ms")) := by
    rw [timer_text, show " timed out after " = " " ++ ("timed out" ++ " after ") from rfl]
    simp only [String.append_assoc]
  rw [hsplit]
  exact includes_append _ _ _

theorem inFlight_text (id : String) : Obstacle.inFlight.text id =
    "Command " ++ ("id " ++ (id ++ (" is already in flight" ++ ""))) := by
  rw [String.append_empty, ← String.append_assoc]
  exact String.append_assoc

theorem denial_inFlight (id : String) : matchesDenial (Obstacle.inFlight.text id) = includes id exposed := by
  have htail : includes (" is already in flight" ++ "") exposed = false := by decide +kernel
  rw [inFlight_text, denial_command, includes_skip (by decide +kernel), includes_apart (by decide +kernel), htail,
    Bool.or_false]

theorem timedOut_inFlight (id : String) :
    includes (Obstacle.inFlight.text id) "timed out" = includes id "timed out" := by
  have htail : includes (" is already in flight" ++ "") "timed out" = false := by decide +kernel
  rw [inFlight_text, includes_skip (by decide +kernel), includes_skip (by decide +kernel),
    includes_apart (by decide +kernel), htail, Bool.or_false]

theorem classify_error (id message : String) : classify (errorResponse id message) =
    if matchesDenial message then .rejected else if includes message "timed out" then .timedOut else .failed := rfl

theorem failed_iff {message : String} : classify (errorResponse id message) = .failed ↔
    matchesDenial message = false ∧ includes message "timed out" = false := by
  rw [classify_error]
  cases matchesDenial message with
  | true => simp
  | false => cases includes message "timed out" <;> simp

theorem allows_iff (cause : Cause) : cause.Allows (classify (cause.response id call)) ↔ cause.Plain id call := by
  cases cause with
  | unsent obstacle =>
      show classify (errorResponse id _) = .failed ↔ obstacle.Plain id
      rw [failed_iff]
      cases obstacle with
      | noClient | baseTopic | deviceId =>
          simp only [Obstacle.text]
          exact iff_of_true (by decide +kernel) trivial
      | inFlight => rw [denial_inFlight, timedOut_inFlight]; exact Iff.rfl
      | library => exact Iff.rfl
  | answered response =>
      apply iff_of_true _ trivial
      intro hok
      exact if_pos hok
  | timer =>
      show classify (errorResponse id _) = .timedOut ↔
        includes id exposed = false ∧ includes call.deviceId exposed = false
      rw [classify_error, denial_timer, includes_timer, ← Bool.or_eq_false_iff]
      cases includes id exposed || includes call.deviceId exposed <;> simp

end Texts

section Sends

variable {config : Mqtt.Config} {s t u : State} {id : String} {call : Call} {device : Device} {command : Command}
  {n : Nat}

theorem commandTopic_some (config : Mqtt.Config) (deviceId base : String) :
    Mqtt.commandTopic config deviceId (some base) =
      Mqtt.buildTopic (if base = "" then config.defaultBaseTopic else base) deviceId .command := by
  rw [Mqtt.commandTopic]
  split <;> rfl

inductive Sent (m : Mqtt.State) (id : String) (call : Call) :
    Option Obstacle → Mqtt.State × Except String Nat → Prop
  | published {message : Mqtt.Message} (h : message.envelope.id = id) :
      Sent m id call none (m.await call.deviceId call.timeoutMs message, .ok m.sent)
  | rejected (o : Obstacle) :
      Sent m id call (some o) (m.returnRejected id call.deviceId call.timeoutMs (o.text id), .ok m.sent)
  | threw (o : Obstacle) : Sent m id call (some o) (m, .error (o.text id))

theorem sent_cases (config : Mqtt.Config) (s : State) (id : String) (call : Call) (device : Device) :
    Sent s.mqtt id call (obstacle config s.mqtt id call device) (s.sent config id call device) := by
  rw [obstacle, State.sent, Mqtt.State.sendCommand, commandTopic_some, Mqtt.buildTopic]
  simp only [Option.getD_some]
  split
  · exact .rejected .noClient
  · split
    · exact .rejected .inFlight
    · generalize (if device.baseTopic = "" then config.defaultBaseTopic else device.baseTopic) = base
      by_cases hbase : trim base = ""
      · simp only [if_pos hbase]
        exact .threw .baseTopic
      · by_cases hid : trim call.deviceId = ""
        · simp only [if_neg hbase, if_pos hid]
          exact .threw .deviceId
        · simp only [if_neg hbase, if_neg hid]
          cases call.failure with
          | none => exact .published rfl
          | some message => exact .rejected (.library message)

theorem send_error {message : String} (h : (s.sent config id call device).2 = .error message) :
    s.send config id call device command n =
      { s with
        mqtt := (s.sent config id call device).1
        events := s.events ++ [createdEvent call command] }.resolveOutcome id command
        (errorResponse id message) n := by
  rw [State.sent] at h
  simp only [State.send, h]
  rfl

structure Promised (s : State) (id : String) (call : Call) (c : Mqtt.Command) : Prop where
  id : c.id = id
  promise : c.promise = s.mqtt.sent
  deviceId : c.deviceId = call.deviceId
  timeoutMs : c.timeoutMs = call.timeoutMs

variable (config) in
theorem follows_sent (hc : CompletionInv s)
    (hframe : s.frames.get id = some (.created call device command n)) :
    ∃ c, Promised s id call c ∧ Follows (s.send config id call device command n) c
      ((obstacle config s.mqtt id call device).map fun o => errorResponse id (o.text id)) := by
  have hd : id ∈ s.drawn := hc.linked.drawn _ _ hframe
  have hstage := hc.stage id
  rw [hframe] at hstage
  obtain ⟨_, hview⟩ := hstage
  have hnone : s.results.find id = none := congrArg View.result hview
  have hgoto {t : State} {f : Frame} {c : Mqtt.Command} {answer : Option ResponseEnvelope} (hid : c.id = id)
      (hr : t.results = s.results) (hdrawn : t.drawn = s.drawn) (hf : f.Follows t.mqtt c answer) :
      Follows (t.goto id f) c answer := by
    subst hid
    refine ⟨hdrawn ▸ hd, fun g hg => ?_, fun r hr' => ?_⟩
    · rw [frame_goto] at hg
      exact Option.some.inj hg ▸ hf
    · cases hnone.symm.trans (hr ▸ hr')
  have hcases := sent_cases config s id call device
  generalize hsent : s.sent config id call device = r at hcases
  generalize obstacle config s.mqtt id call device = o at hcases
  cases hcases with
  | @published message hm =>
      rw [send_ok (congrArg Prod.snd hsent), hsent]
      let c : Mqtt.Command :=
        { promise := s.mqtt.sent, id := message.envelope.id, deviceId := call.deviceId,
          timeoutMs := call.timeoutMs, message := some message, state := .pending, armed := true }
      have hfind : (s.mqtt.commands.save c).find c.promise = some c := Table.find_save_self _ c
      exact ⟨c, ⟨hm, rfl, rfl, rfl⟩, hgoto hm rfl rfl ⟨rfl, c, hfind, rfl, rfl, trivial, fun _ _ => rfl⟩⟩
  | rejected o =>
      rw [send_ok (congrArg Prod.snd hsent), hsent]
      let c : Mqtt.Command :=
        { promise := s.mqtt.sent, id := id, deviceId := call.deviceId, timeoutMs := call.timeoutMs,
          state := .rejected (o.text id) }
      have hfind : (s.mqtt.commands.save c).find c.promise = some c := Table.find_save_self _ c
      exact ⟨c, ⟨rfl, rfl, rfl, rfl⟩, hgoto rfl rfl rfl ⟨rfl, c, hfind, rfl, rfl, rfl, nofun⟩⟩
  | threw o =>
      rw [send_error (congrArg Prod.snd hsent), hsent]
      let c : Mqtt.Command :=
        { promise := s.mqtt.sent, id := id, deviceId := call.deviceId, timeoutMs := call.timeoutMs,
          state := .pending }
      exact ⟨c, ⟨rfl, rfl, rfl, rfl⟩, hgoto rfl rfl rfl rfl⟩

def settles (config : Mqtt.Config) (id : String) (promise : Nat) : Action → Option Cause
  | .mqtt (.message topic payload) => ((config.response topic payload).filter fun r => r.id = id).map .answered
  | .mqtt (.timer p) => if p = promise then some .timer else none
  | _ => none

/-- What ends the wait of a dispatch that sends its message in `s`, given what is done after that. -/
def cause (config : Mqtt.Config) (s : State) (id : String) (call : Call) (device : Device) (post : List Action) :
    Option Cause :=
  ((obstacle config s.mqtt id call device).map .unsent).or (post.findSome? (settles config id s.mqtt.sent))

theorem answers_settles {c : Mqtt.Command} (hc : Promised s id call c) (a : Action) :
    answers config c a = (settles config id s.mqtt.sent a).map (Cause.response id call) := by
  cases a with
  | mqtt action =>
      cases action with
      | message topic payload =>
          rw [answers, settles, hc.id]
          cases (config.response topic payload).filter fun r => r.id = id <;> rfl
      | timer p =>
          rw [answers, settles, hc.promise]
          split
          · rw [Mqtt.timedOut, hc.id, hc.deviceId, hc.timeoutMs]
            rfl
          · rfl
      | _ => rfl
  | _ => rfl

theorem findSome_settles {c : Mqtt.Command} (hc : Promised s id call c) (post : List Action) :
    post.findSome? (answers config c) =
      (post.findSome? (settles config id s.mqtt.sent)).map (Cause.response id call) := by
  induction post with
  | nil => rfl
  | cons a post ih =>
      rw [List.findSome?_cons, List.findSome?_cons, answers_settles hc]
      cases settles config id s.mqtt.sent a with
      | none => exact ih
      | some cause => rfl

theorem follows_cause {connected : Bool} {pre post : List Action}
    (hpre : run (step config) (init connected) pre = some s)
    (hframe : s.frames.get id = some (.created call device command n))
    (hpost : run (step config) (s.send config id call device command n) post = some u) :
    ∃ c, c.id = id ∧ Follows u c ((cause config s id call device post).map (Cause.response id call)) := by
  obtain ⟨hi, hcompletion⟩ := client_inv hpre
  obtain ⟨c, hc, hfollows⟩ := follows_sent config hcompletion hframe
  have hsend : step config s (.resume id) = some (s.send config id call device command n) := by
    rw [step, hframe]
    rfl
  refine ⟨c, hc.id, ?_⟩
  have hrun := follows_run (timerInv_step hi hsend) (linked_step hcompletion.linked hsend) hfollows hpost
  rw [findSome_settles hc] at hrun
  rw [cause, Option.map_or, Option.map_map]
  exact hrun

end Sends

section Recorded

variable {config : Mqtt.Config} {s t u : State} {id : String} {call : Call} {device : Device} {command row : Command}
  {n : Nat} {status : CommandStatus}

def Frame.stored : Frame → List CommandStatus
  | .closing command _ _ => [command.status]
  | _ => []

def recorded (id : String) (s : State) : Action → List CommandStatus
  | .commit j => if j = id then (s.frames.get id).elim [] Frame.stored else []
  | _ => []

theorem recorded_eq {a : Action} (h : status ∈ recorded id s a) : a = .commit id ∧
    ∃ command response n, s.frames.get id = some (.closing command response n) ∧ command.status = status := by
  cases a with
  | commit j =>
      rw [recorded] at h
      split at h
      · rename_i hj
        cases hf : s.frames.get id with
        | none => rw [hf] at h; cases h
        | some f =>
            rw [hf] at h
            cases f with
            | closing command response n =>
                obtain rfl := List.mem_singleton.mp h
                exact ⟨hj ▸ rfl, command, response, n, rfl, rfl⟩
            | _ => cases h
      · cases h
  | _ => cases h

def Frame.Classified : Frame → Prop
  | .closing command response _ => command.status = classify response
  | _ => True

theorem classified_moves {f g : Frame} (h : Moves s id f t) (hg : t.frames.get id = some g) : g.Classified := by
  have hgoto {u : State} {f' : Frame} (hg : (u.goto id f').frames.get id = some g) (hf : f'.Classified) :
      g.Classified := by
    rw [frame_goto] at hg
    exact Option.some.inj hg ▸ hf
  cases h with
  | answered | begins | stored | sent | closes | records | saves => exact hgoto hg trivial
  | threw => rw [State.resolveOutcome] at hg; exact hgoto hg rfl
  | settled => rw [State.resolveOutcome] at hg; exact hgoto hg rfl
  | unknown | returns => cases (frame_finish _ _ _).symm.trans hg

theorem classified_step {a : Action} (hl : Linked s) (hi : ∀ id f, s.frames.get id = some f → f.Classified)
    (h : step config s a = some t) : ∀ id f, t.frames.get id = some f → f.Classified := by
  intro id g hg
  cases step_shape h with
  | around _ _ hf => exact hi id g (hf ▸ hg)
  | @dispatch j call _ _ h =>
      subst h
      rw [State.goto, Table.get_set] at hg
      split at hg
      · cases hg; trivial
      · exact hi id g hg
  | @moves _ j f _ _ hf h =>
      by_cases hj : id = j
      · subst hj
        exact classified_moves h hg
      · rw [(leaves_moves (hl.named j f hf) h hj).frame] at hg
        exact hi id g hg
  | @refused j _ f _ _ _ h =>
      subst h
      rw [State.finish, Table.get_erase] at hg
      split at hg
      · cases hg
      · exact hi id g hg
  | sweep h => subst h; exact hi id g hg
  | restart h => subst h; cases hg

def Frame.closes : Frame → Bool
  | .closed .. | .recording .. | .recorded .. => true
  | _ => false

structure Stands (s : State) (id : String) (row : Command) : Prop where
  found : s.commands.find id = some row
  closed : row.status ≠ .pending
  past : ∀ f, s.frames.get id = some f → f.closes = true

theorem stands_leaves (h : Leaves id s t) (hs : Stands s id row) : Stands t id row where
  found := h.row.trans hs.found
  closed := hs.closed
  past := fun f hf => hs.past f (h.frame.symm.trans hf)

theorem stands_moves {f : Frame} (hs : Stands s id row) (hf : s.frames.get id = some f) (h : Moves s id f t) :
    Stands t id row := by
  have hpast := hs.past f hf
  have hgoto {u : State} {g : Frame} (hfound : u.commands.find id = some row) (hg : g.closes = true) :
      Stands (u.goto id g) id row := by
    refine ⟨hfound, hs.closed, fun g' hg' => ?_⟩
    rw [frame_goto] at hg'
    exact Option.some.inj hg' ▸ hg
  cases h with
  | records | saves => exact hgoto hs.found rfl
  | returns =>
      refine ⟨hs.found, hs.closed, fun g hg => ?_⟩
      cases (frame_finish _ _ _).symm.trans hg
  | _ => cases hpast

theorem stands_step {a : Action} (hi : CompletionInv s) (hs : Stands s id row) (h : step config s a = some t) :
    Stands t id row := by
  cases step_shape h with
  | around _ hl => exact stands_leaves (hl id) hs
  | @dispatch j call _ hnew h =>
      subst h
      by_cases hj : id = j
      · subst hj
        cases (congrArg View.row (hi.fresh id hnew)).symm.trans hs.found
      · exact ⟨hs.found, hs.closed, fun f hf => hs.past f ((Table.get_set_of_ne _ _ hj).symm.trans hf)⟩
  | @moves _ j f _ _ hf h =>
      by_cases hj : id = j
      · subst hj
        exact stands_moves hs hf h
      · exact stands_leaves (leaves_moves (hi.linked.named j f hf) h hj) hs
  | @refused j _ f _ _ _ h =>
      subst h
      refine ⟨hs.found, hs.closed, fun g hg => hs.past g ?_⟩
      rw [State.finish, Table.get_erase] at hg
      split at hg
      · cases hg
      · exact hg
  | sweep h =>
      subst h
      have hrow : s.sweep.commands.find id = some (row.sweep s.now) :=
        (Table.find_modify _ _ (Command.id_sweep s.now) id).trans (congrArg _ hs.found)
      rw [Command.sweep, if_neg hs.closed] at hrow
      exact ⟨hrow, hs.closed, hs.past⟩
  | restart h => subst h; exact ⟨hs.found, hs.closed, fun f hf => by cases hf⟩

theorem cause_append {cause : Cause} {post : List Action}
    (h : Commands.cause config s id call device post = some cause) (later : List Action) :
    Commands.cause config s id call device (post ++ later) = some cause := by
  rw [Commands.cause, List.findSome?_append, ← Option.or_assoc]
  rw [Commands.cause] at h
  rw [h, Option.some_or]

/-- What a dispatch stores as the status of its command, which then stays in its
row, is as the cause of its end asks for exactly when the texts that go into
its error are plain. -/
theorem recorded_status_iff {connected : Bool} {pre post : List Action}
    (hpre : run (step config) (init connected) pre = some s)
    (hframe : s.frames.get id = some (.created call device command n))
    (hsend : step config s (.resume id) = some t) (hpost : run (step config) t post = some u)
    (hstored : status ∈ trace (step config) (recorded id) t post) :
    (∃ row, u.commands.find id = some row ∧ row.status = status) ∧
      ∃ cause, Commands.cause config s id call device post = some cause ∧
        (cause.Allows status ↔ cause.Plain id call) := by
  obtain ⟨before, a, later, v, w, rfl, hv, hw, hu, hmem⟩ := mem_trace hpost hstored
  obtain ⟨rfl, closing, response, n', hclosing, rfl⟩ := recorded_eq hmem
  have hinv : CompletionInv v ∧ ∀ id f, v.frames.get id = some f → f.Classified := by
    have hrun : run (step config) (init connected) (pre ++ .resume id :: before) = some v :=
      run_append.mpr ⟨s, hpre, run_cons.mpr ⟨t, hsend, hv⟩⟩
    refine invariant (P := fun s => CompletionInv s ∧ ∀ id f, s.frames.get id = some f → f.Classified)
      (fun _ _ _ hi hs => ?_) hrun ⟨completionInv_init connected, fun _ _ hf => by cases hf⟩
    exact ⟨completionInv_step hi.1 hs, classified_step hi.1.linked hi.2 hs⟩
  have hstatus : closing.status = classify response := hinv.2 id _ hclosing
  constructor
  · have hclosed : Stands w id closing := by
      have hid : closing.id = id := hinv.1.linked.named id _ hclosing
      have hstage := hinv.1.stage id
      rw [hclosing] at hstage
      rw [step, hclosing] at hw
      obtain rfl := Option.some.inj hw
      have hsaved : (v.commands.save closing).find id = some closing := hid ▸ Table.find_save_self _ closing
      refine ⟨hsaved, hstage.1, fun f hf => ?_⟩
      rw [frame_goto] at hf
      exact Option.some.inj hf ▸ rfl
    have hstands := invariant (P := fun s => CompletionInv s ∧ Stands s id closing)
      (fun _ _ _ hi hs => ⟨completionInv_step hi.1 hs, stands_step hi.1 hi.2 hs⟩) hu
      ⟨completionInv_step hinv.1 hw, hclosed⟩
    exact ⟨closing, hstands.2.found, rfl⟩
  · rw [step, hframe] at hsend
    obtain rfl := Option.some.inj hsend
    obtain ⟨c, rfl, hfollows⟩ := follows_cause hpre hframe hv
    obtain ⟨cause, hcause, hresponse⟩ := Option.map_eq_some_iff.mp (hfollows.frame _ hclosing)
    refine ⟨cause, cause_append hcause _, ?_⟩
    rw [hstatus, ← hresponse]
    exact allows_iff cause

end Recorded

def getSystemInfo (deviceId : String) : Call := { deviceId := deviceId, input := { name := "get_system_info" } }

def dispatchTo (deviceId : String) : List Action :=
  [.registry (Table.empty.save { id := deviceId, baseTopic := "espclaw" }), .dispatch "c1" (getSystemInfo deviceId),
    .commit "c1", .resume "c1", .commit "c1"]

def timesOut : List Action := [.mqtt (.timer 0), .resume "c1", .commit "c1"]

/-- A device can have for its id what a device says when it denies a command. -/
theorem timeout_recorded_as_rejection : ¬ ∀ (config : Mqtt.Config) (connected : Bool) (pre post : List Action)
    (s t u : State) (topic id : String) (call : Call) (device : Device) (command : Command) (n : Nat)
    (status : CommandStatus), run (step config) (init connected) pre = some s →
    s.frames.get id = some (.created call device command n) →
    (Mqtt.parseTopic topic).map (·.deviceId) = some call.deviceId → step config s (.resume id) = some t →
    run (step config) t post = some u → status ∈ trace (step config) (recorded id) t post →
      ∃ cause, Commands.cause config s id call device post = some cause ∧ cause.Allows status := by
  intro h
  obtain ⟨u, hu⟩ := Option.isSome_iff_exists.mp (show (run (step Mqtt.answering) (init true)
    (dispatchTo exposed ++ .resume "c1" :: timesOut)).isSome by decide +kernel)
  obtain ⟨s, hs, hrest⟩ := run_append.mp hu
  obtain ⟨t, ht, hpost⟩ := run_cons.mp hrest
  have hsent : ∀ s ∈ run (step Mqtt.answering) (init true) (dispatchTo exposed),
      s.frames.get "c1" = some (.created (getSystemInfo exposed) { id := exposed, baseTopic := "espclaw" }
        ((getSystemInfo exposed).command "c1") 0) ∧
      cause Mqtt.answering s "c1" (getSystemInfo exposed) { id := exposed, baseTopic := "espclaw" } timesOut =
        some .timer := by decide +kernel
  have hstored : ∀ t ∈ run (step Mqtt.answering) (init true) (dispatchTo exposed ++ [.resume "c1"]),
      .rejected ∈ trace (step Mqtt.answering) (recorded "c1") t timesOut := by decide +kernel
  have hrejected := hstored t (run_append.mpr ⟨s, hs, run_singleton.mpr ht⟩)
  have htopic : (Mqtt.parseTopic "espclaw/is not exposed to the LLM/status").map (·.deviceId) = some exposed := by
    decide +kernel
  obtain ⟨cause, hcause, hallows⟩ := h Mqtt.answering true _ _ s t u _ "c1" _ _ _ 0 .rejected hs (hsent s hs).1
    htopic ht hpost hrejected
  obtain rfl := Option.some.inj ((hsent s hs).2.symm.trans hcause)
  cases hallows

theorem timeout_is_recorded : ∃ s t u, run (step Mqtt.answering) (init true) (dispatchTo "dev-1") = some s ∧
    step Mqtt.answering s (.resume "c1") = some t ∧ run (step Mqtt.answering) t timesOut = some u ∧
      ∃ row, u.commands.find "c1" = some row ∧ row.status = .timedOut := by
  obtain ⟨u, hu⟩ := Option.isSome_iff_exists.mp (show (run (step Mqtt.answering) (init true)
    (dispatchTo "dev-1" ++ .resume "c1" :: timesOut)).isSome by decide +kernel)
  obtain ⟨s, hs, hrest⟩ := run_append.mp hu
  obtain ⟨t, ht, hpost⟩ := run_cons.mp hrest
  have hsent : ∀ s ∈ run (step Mqtt.answering) (init true) (dispatchTo "dev-1"),
      s.frames.get "c1" = some (.created (getSystemInfo "dev-1") { id := "dev-1", baseTopic := "espclaw" }
        ((getSystemInfo "dev-1").command "c1") 0) := by decide +kernel
  have hstored : ∀ t ∈ run (step Mqtt.answering) (init true) (dispatchTo "dev-1" ++ [.resume "c1"]),
      .timedOut ∈ trace (step Mqtt.answering) (recorded "c1") t timesOut := by decide +kernel
  have htimedOut := hstored t (run_append.mpr ⟨s, hs, run_singleton.mpr ht⟩)
  exact ⟨s, t, u, hs, ht, hpost, (recorded_status_iff hs (hsent s hs) ht hpost htimedOut).1⟩

end EspClawPlatform.Commands
