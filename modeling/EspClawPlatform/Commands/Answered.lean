import EspClawPlatform.Commands.Causes
import EspClawPlatform.Commands.OnRecord

namespace EspClawPlatform.Commands

open Run
open Devices (Device)
open Mqtt (ResponseEnvelope TimerInv)

variable {config : Mqtt.Config} {s t : State} {as : List Action} {id : String}

def Heard (config : Mqtt.Config) (as : List Action) (response : ResponseEnvelope) : Prop :=
  ∃ pre post call topic payload, as = pre ++ .mqtt (.message topic payload) :: post ∧
    .dispatch response.id call ∈ pre ∧ config.response topic payload = some response

theorem Heard.later {response : ResponseEnvelope} (h : Heard config as response) (bs : List Action) :
    Heard config (as ++ bs) response := by
  obtain ⟨pre, post, call, topic, payload, rfl, hcall, hr⟩ := h
  refine ⟨pre, post ++ bs, call, topic, payload, ?_, hcall, hr⟩
  rw [List.append_assoc, List.cons_append]

section Promises

variable {m m' : Mqtt.State} {action : Mqtt.Action} {p : Nat} {d : Mqtt.Command}

inductive Fate (config : Mqtt.Config) (action : Mqtt.Action) :
    Option Mqtt.Command → Option Mqtt.Command → Prop
  | absent : Fate config action none none
  | kept {b c : Mqtt.Command} (hid : c.id = b.id) (hstate : c.state = b.state) : Fate config action (some b) (some c)
  | rejected {b c : Mqtt.Command} {message : String} (hid : c.id = b.id) (hstate : c.state = .rejected message) :
      Fate config action (some b) (some c)
  | resolved {b c : Mqtt.Command} {topic payload : String} {r : ResponseEnvelope} (ha : action = .message topic payload)
      (hr : config.response topic payload = some r) (hid : c.id = b.id) (hmine : r.id = b.id)
      (hstate : c.state = .resolved r) : Fate config action (some b) (some c)

theorem fate_same (h : m'.commands.find p = m.commands.find p) :
    Fate config action (m.commands.find p) (m'.commands.find p) := by
  rw [h]
  cases m.commands.find p with
  | none => exact .absent
  | some b => exact .kept rfl rfl

theorem fate_settle {state : Mqtt.PromiseState} (hd : m.commands.find d.promise = some d)
    (hc : m'.commands = m.commands.save (d.settle state))
    (hnew : d.state = .pending → Fate config action (some d) (some (d.settle state))) :
    Fate config action (m.commands.find p) (m'.commands.find p) := by
  have hfind := Mqtt.find_settle hc p
  split at hfind
  · rename_i hp
    rw [hfind, hp, hd]
    by_cases hpending : d.state = .pending
    · exact hnew hpending
    · exact .kept rfl (if_neg hpending)
  · exact fate_same hfind

theorem fate_own (hi : TimerInv m) (ha : ¬ action.sends) (h : Mqtt.step config m action = some m') (p : Nat) :
    Fate config action (m.commands.find p) (m'.commands.find p) := by
  cases action with
  | tick => cases h; exact fate_same rfl
  | sendCommand => exact absurd rfl ha
  | message topic payload =>
      simp only [Mqtt.step] at h
      split at h <;> cases h
      cases hr : config.response topic payload with
      | none => exact fate_same (by rw [(Mqtt.handleMessage_other hr).1])
      | some r =>
          rw [Mqtt.handleMessage_response hr]
          cases hw : m.pending.get r.id with
          | none => exact fate_same (by rw [Mqtt.answer_unknown hw])
          | some q =>
              obtain ⟨d, _, hd, hid, -⟩ := hi.pending.waits _ _ hw
              obtain rfl := Table.key_of_find hd
              rw [Mqtt.answer_known hw hd]
              apply fate_settle hd rfl
              intro hpending
              exact .resolved rfl hr rfl hid.symm (if_pos hpending)
  | timer q =>
      obtain ⟨d, rfl, hd, -, rfl⟩ := Mqtt.fire_eq h
      apply fate_settle hd rfl
      intro hpending
      exact .rejected rfl (if_pos hpending)
  | destroy =>
      cases h
      rw [Mqtt.State.onModuleDestroy, Mqtt.State.clearTimers, Mqtt.find_disarm]
      cases m.commands.find p with
      | none => exact .absent
      | some b =>
          rw [Option.map_some]
          split
          · exact .kept rfl rfl
          · exact .kept rfl rfl
  | ended =>
      simp only [Mqtt.step] at h
      split at h <;> cases h
      exact fate_same rfl

/-- A promise is of a command that was dispatched, and resolves with the
response to it that a message has brought. -/
def Resolves (config : Mqtt.Config) (as : List Action) (m : Mqtt.State) : Prop :=
  ∀ p c, m.commands.find p = some c → (∃ call, .dispatch c.id call ∈ as) ∧
    ∀ r, c.state = .resolved r → r.id = c.id ∧ Heard config as r

theorem Resolves.later (hr : Resolves config as m) (bs : List Action) : Resolves config (as ++ bs) m := by
  intro p c hf
  obtain ⟨⟨call, hcall⟩, hresolved⟩ := hr p c hf
  refine ⟨⟨call, List.mem_append_left bs hcall⟩, fun r hstate => ?_⟩
  exact ⟨(hresolved r hstate).1, (hresolved r hstate).2.later bs⟩

theorem resolves_own (hi : TimerInv m) (hr : Resolves config as m) (ha : ¬ action.sends)
    (h : Mqtt.step config m action = some m') : Resolves config (as ++ [.mqtt action]) m' := by
  intro p c hf
  have hfate := fate_own hi ha h p
  rw [hf] at hfate
  generalize hb : m.commands.find p = found at hfate
  cases hfate with
  | @kept b _ hid hstate =>
      obtain ⟨hcall, hresolved⟩ := hr.later [.mqtt action] p b hb
      rw [hid, hstate]
      exact ⟨hcall, hresolved⟩
  | @rejected b _ _ hid hstate =>
      rw [hid]
      refine ⟨(hr.later [.mqtt action] p b hb).1, fun r hr => ?_⟩
      cases hstate.symm.trans hr
  | @resolved b _ topic payload r ha hresponse hid hmine hstate =>
      subst ha
      obtain ⟨call, hcall⟩ := (hr p b hb).1
      rw [hid]
      refine ⟨(hr.later [.mqtt (.message topic payload)] p b hb).1, fun r' hr' => ?_⟩
      cases hstate.symm.trans hr'
      exact ⟨hmine, as, [], call, topic, payload, rfl, hmine ▸ hcall, hresponse⟩

end Promises

section Sending

variable {call : Call} {device : Device} {p : Nat} {b : Mqtt.Command}

theorem promise_sent (hi : TimerInv s.mqtt) (hf : s.mqtt.commands.find p = some b) :
    (s.sent config id call device).1.commands.find p = some b := by
  have hne : p ≠ s.mqtt.sent := Nat.ne_of_lt (hi.pending.fresh p b hf)
  have hcases := sent_cases config s id call device
  generalize s.sent config id call device = sent at hcases
  generalize obstacle config s.mqtt id call device = o at hcases
  cases hcases with
  | published => exact (Table.find_save_of_ne _ hne).trans hf
  | rejected => exact (Table.find_save_of_ne _ hne).trans hf
  | threw => exact hf

theorem resolves_sent (hr : Resolves config as s.mqtt) (hcall : ∃ call, .dispatch id call ∈ as) :
    Resolves config as (s.sent config id call device).1 := by
  have hcases := sent_cases config s id call device
  generalize s.sent config id call device = sent at hcases
  generalize obstacle config s.mqtt id call device = o at hcases
  intro p c hf
  cases hcases with
  | published hid =>
      rw [Mqtt.State.await, Table.find_save] at hf
      split at hf
      · obtain rfl := Option.some.inj hf
        exact ⟨hid ▸ hcall, fun r hstate => (by cases hstate)⟩
      · exact hr p c hf
  | rejected =>
      rw [Mqtt.State.returnRejected, Table.find_save] at hf
      split at hf
      · obtain rfl := Option.some.inj hf
        exact ⟨hcall, fun r hstate => (by cases hstate)⟩
      · exact hr p c hf
  | threw => exact hr p c hf

end Sending

theorem promise_kept {a : Action} {p : Nat} {b : Mqtt.Command} (hi : TimerInv s.mqtt)
    (h : step config s a = some t) (ha : ¬ a.restarts) (hf : s.mqtt.commands.find p = some b) :
    ∃ c, t.mqtt.commands.find p = some c ∧ c.id = b.id := by
  cases mqtt_move h with
  | same _ hm => exact ⟨b, hm ▸ hf, rfl⟩
  | own hown hm =>
      have hfate := fate_own hi hown hm p
      rw [hf] at hfate
      generalize t.mqtt.commands.find p = found at hfate
      cases hfate with
      | kept hid => exact ⟨_, rfl, hid⟩
      | rejected hid => exact ⟨_, rfl, hid⟩
      | resolved _ _ hid => exact ⟨_, rfl, hid⟩
  | send _ ht =>
      subst ht
      exact ⟨b, mqtt_send ▸ promise_sent hi hf, rfl⟩
  | restart => exact absurd rfl ha

theorem now_sendCommand (config : Mqtt.Config) (m : Mqtt.State) (deviceId name : String) (input : Record)
    (options : Mqtt.SendOptions) (fresh : String) (failure : Option String) :
    (m.sendCommand config deviceId name input options fresh failure).1.now = m.now := by
  rw [Mqtt.State.sendCommand]
  repeat' split
  all_goals rfl

theorem now_handleMessage (config : Mqtt.Config) (m : Mqtt.State) (topic payload : String) :
    (m.handleMessage config topic payload).now = m.now := by
  rw [Mqtt.State.handleMessage]
  split
  · rfl
  · split
    · rfl
    · split
      · rw [Mqtt.State.handleStatus]
        split <;> rfl
      · split
        · rw [Mqtt.State.handleResponse]
          repeat' split
          all_goals rfl
        · rfl

def Action.ticks : Action → Nat
  | .mqtt (.tick ms) => ms
  | _ => 0

theorem now_client {m m' : Mqtt.State} {action : Mqtt.Action} (h : Mqtt.step config m action = some m') :
    m'.now = m.now + (Action.mqtt action).ticks := by
  cases action with
  | tick ms => cases h; rfl
  | sendCommand => cases h; exact now_sendCommand ..
  | message topic payload =>
      simp only [Mqtt.step] at h
      split at h <;> cases h
      exact now_handleMessage ..
  | timer p =>
      obtain ⟨c, -, -, -, rfl⟩ := Mqtt.fire_eq h
      rfl
  | destroy => cases h; rfl
  | ended =>
      simp only [Mqtt.step] at h
      split at h <;> cases h
      rfl

theorem now_step {a : Action} (h : step config s a = some t) : t.now = s.now + a.ticks := by
  by_cases ha : ∃ action, a = .mqtt action
  · obtain ⟨action, rfl⟩ := ha
    simp only [step, State.mqttStep] at h
    split at h
    · cases h
    · obtain ⟨mqtt, hm, rfl⟩ := Option.map_eq_some_iff.mp h
      exact now_client hm
  · have hzero : a.ticks = 0 := by
      cases a with
      | mqtt action => exact absurd ⟨action, rfl⟩ ha
      | _ => rfl
    rw [hzero, Nat.add_zero]
    cases mqtt_move h with
    | same _ hm => exact congrArg Mqtt.State.now hm
    | own => exact absurd ⟨_, rfl⟩ ha
    | send _ ht =>
        subst ht
        exact (congrArg Mqtt.State.now mqtt_send).trans (now_sendCommand ..)
    | restart ht => subst ht; rfl

theorem le_now {a : Action} (h : step config s a = some t) : s.now ≤ t.now := by
  rw [now_step h]
  exact Nat.le_add_right _ _

structure Concluded (config : Mqtt.Config) (as : List Action) (now : Nat) (c : Command)
    (response : ResponseEnvelope) : Prop where
  status : c.status = classify response
  time : ∃ n, c.resolvedAt = some n ∧ n ≤ now
  heard : response.ok = true → response.id = c.id ∧ Heard config as response

/-- A command has succeeded exactly when its result is ok, and then a message
has brought that result for it. -/
structure Answered (config : Mqtt.Config) (as : List Action) (now : Nat) (c : Command) (r : CommandResult) :
    Prop where
  same : r.commandId = c.id
  succeeded : c.status = .succeeded ↔ r.ok = true
  times : ∃ n, c.resolvedAt = some n ∧ n ≤ r.receivedAt ∧ r.receivedAt ≤ now
  heard : r.ok = true → ∃ response, response.id = c.id ∧ response.ok = true ∧ response.result = r.result ∧
    Heard config as response

def Frame.Truthful (config : Mqtt.Config) (as : List Action) (s : State) (id : String) : Frame → Prop
  | .sending _ promise _ => ∃ b, s.mqtt.commands.find promise = some b ∧ b.id = id
  | .closing c response _ | .closed c response _ => Concluded config as s.now c response
  | .recording c _ r _ | .recorded c _ r _ => Answered config as s.now c r
  | _ => True

theorem classify_succeeded (response : ResponseEnvelope) : classify response = .succeeded ↔ response.ok = true := by
  constructor
  · intro h
    by_contra hok
    simp only [classify, if_neg hok] at h
    split at h
    · cases h
    · split at h <;> cases h
  · exact fun hok => if_pos hok

section Truthful

variable {now now' : Nat} {c : Command} {r : CommandResult} {response : ResponseEnvelope} {f g : Frame}

theorem Concluded.later (h : Concluded config as now c response) (hnow : now ≤ now') (bs : List Action) :
    Concluded config (as ++ bs) now' c response where
  status := h.status
  time := by
    obtain ⟨n, hn, hle⟩ := h.time
    exact ⟨n, hn, Nat.le_trans hle hnow⟩
  heard := by
    intro hok
    obtain ⟨hid, hheard⟩ := h.heard hok
    exact ⟨hid, hheard.later bs⟩

theorem Answered.later (h : Answered config as now c r) (hnow : now ≤ now') (bs : List Action) :
    Answered config (as ++ bs) now' c r where
  same := h.same
  succeeded := h.succeeded
  times := by
    obtain ⟨n, hn, hr, hle⟩ := h.times
    exact ⟨n, hn, hr, Nat.le_trans hle hnow⟩
  heard := by
    intro hok
    obtain ⟨response, hid, hrok, hresult, hheard⟩ := h.heard hok
    exact ⟨response, hid, hrok, hresult, hheard.later bs⟩

theorem Concluded.result (h : Concluded config as s.now c response) :
    Answered config as s.now c (s.result c response) where
  same := rfl
  succeeded := by
    rw [h.status]
    exact classify_succeeded response
  times := by
    obtain ⟨n, hn, hle⟩ := h.time
    exact ⟨n, hn, hle, Nat.le_refl _⟩
  heard := by
    intro hok
    obtain ⟨hid, hheard⟩ := h.heard hok
    exact ⟨response, hid, hok, rfl, hheard⟩

theorem concluded_error {message : String} : Concluded config as s.now
    { c with status := classify (errorResponse id message), resolvedAt := some s.now } (errorResponse id message) where
  status := rfl
  time := ⟨s.now, rfl, Nat.le_refl _⟩
  heard := fun hok => (by cases hok)

theorem Frame.Truthful.later (h : f.Truthful config as s id) (bs : List Action) :
    f.Truthful config (as ++ bs) s id := by
  cases f with
  | closing | closed => exact Concluded.later h (Nat.le_refl _) bs
  | recording | recorded => exact Answered.later h (Nat.le_refl _) bs
  | _ => exact h

theorem truthful_kept {a : Action} (hi : TimerInv s.mqtt) (hf : f.Truthful config as s id)
    (h : step config s a = some t) (ha : ¬ a.restarts) : f.Truthful config (as ++ [a]) t id := by
  have hnow := le_now h
  cases f with
  | sending c promise n =>
      obtain ⟨b, hb, hid⟩ := hf
      obtain ⟨b', hb', hkept⟩ := promise_kept hi h ha hb
      exact ⟨b', hb', hkept.trans hid⟩
  | closing | closed => exact Concluded.later hf hnow [a]
  | recording | recorded => exact Answered.later hf hnow [a]
  | _ => trivial

theorem truthful_commit (hf : f.Truthful config as s id) (h : s.commit id f = some t)
    (hg : t.frames.get id = some g) : g.Truthful config as t id := by
  have hgoto {u : State} {f' : Frame} (hg : (u.goto id f').frames.get id = some g) : f' = g :=
    Option.some.inj ((frame_goto u id f').symm.trans hg)
  cases f with
  | finding => cases h; exact hgoto hg ▸ trivial
  | creating => cases h; exact hgoto hg ▸ trivial
  | closing => cases h; exact hgoto hg ▸ hf
  | recording => cases h; exact hgoto hg ▸ hf
  | _ => cases h

theorem truthful_resume (hr : Resolves config as s.mqtt) (hn : f.Named id) (hf : f.Truthful config as s id)
    (h : s.resume config id f = some t) (hg : t.frames.get id = some g) : g.Truthful config as t id := by
  have hgoto {u : State} {f' : Frame} (hg : (u.goto id f').frames.get id = some g) : f' = g :=
    Option.some.inj ((frame_goto u id f').symm.trans hg)
  have hfinish {u : State} {outcome : Except String DispatchOutcome}
      (hg : (u.finish id outcome).frames.get id = some g) : False := by
    cases (frame_finish u id outcome).symm.trans hg
  cases f with
  | found call device =>
      cases device with
      | none => cases h; exact (hfinish hg).elim
      | some device => cases h; exact hgoto hg ▸ trivial
  | created call device c n =>
      have ht : s.send config id call device c n = t := Option.some.inj h
      have hcases := sent_cases config s id call device
      generalize hsent : s.sent config id call device = sent at hcases
      generalize obstacle config s.mqtt id call device = o at hcases
      cases hcases with
      | @published message hid =>
          rw [send_ok (congrArg Prod.snd hsent), hsent] at ht
          subst ht
          exact hgoto hg ▸ ⟨_, Table.find_save_self _ _, hid⟩
      | rejected o =>
          rw [send_ok (congrArg Prod.snd hsent), hsent] at ht
          subst ht
          exact hgoto hg ▸ ⟨_, Table.find_save_self _ _, rfl⟩
      | threw o =>
          rw [send_error (congrArg Prod.snd hsent), hsent] at ht
          subst ht
          exact hgoto hg ▸ concluded_error
  | sending c promise n =>
      obtain ⟨b, hb, hid⟩ := hf
      obtain ⟨p, hp, h⟩ := Option.bind_eq_some_iff.mp h
      obtain rfl := Option.some.inj (hb.symm.trans hp)
      split at h
      · cases h
      · rename_i response hstate
        cases h
        obtain ⟨hrid, hheard⟩ := (hr promise b hb).2 response hstate
        have hcid : c.id = id := hn
        refine hgoto hg ▸ ⟨rfl, ⟨s.now, rfl, Nat.le_refl _⟩, fun _ => ⟨?_, hheard⟩⟩
        exact hrid.trans (hid.trans hcid.symm)
      · cases h
        exact hgoto hg ▸ concluded_error
  | closed c response n =>
      cases h
      exact hgoto hg ▸ Concluded.result hf
  | recorded => cases h; exact (hfinish hg).elim
  | _ => cases h

end Truthful

structure Stored (s : State) (o : DispatchOutcome) : Prop where
  row : s.commands.find o.command.id = some o.command
  result : s.results.find o.command.id = some o.result

structure AnswerInv (config : Mqtt.Config) (as : List Action) (s : State) : Prop where
  wire : WireInv config as s
  timers : TimerInv s.mqtt
  resolves : Resolves config as s.mqtt
  frames : ∀ id f, s.frames.get id = some f → f.Truthful config as s id
  outcomes : ∀ id o, s.outcomes.get id = some (.ok o) → Stored s o ∧ Answered config as s.now o.command o.result

theorem answerInv_init (config : Mqtt.Config) (connected : Bool) : AnswerInv config [] (init connected) where
  wire := wireInv_init connected
  timers := Mqtt.timerInv_empty rfl rfl
  resolves := fun _ _ h => (by cases h)
  frames := fun _ _ h => (by cases h)
  outcomes := fun _ _ h => (by cases h)

theorem resolves_step {a : Action} (hi : AnswerInv config as s) (h : step config s a = some t) :
    Resolves config (as ++ [a]) t.mqtt := by
  cases mqtt_move h with
  | same _ hm => rw [hm]; exact hi.resolves.later [a]
  | own ha hm => exact resolves_own hi.timers hi.resolves ha hm
  | @send id call device command n hf ht =>
      subst ht
      rw [mqtt_send]
      obtain ⟨asked, hasked, -⟩ := hi.wire.record id (hi.wire.completion.linked.drawn id _ hf)
      exact (resolves_sent hi.resolves ⟨asked, hasked⟩).later [.resume id]
  | restart ht => subst ht; exact fun _ _ hf => (by cases hf)

theorem truthful_step {a : Action} {g : Frame} (hi : AnswerInv config as s) (h : step config s a = some t)
    (hg : t.frames.get id = some g) : g.Truthful config (as ++ [a]) t id := by
  have hstep := h
  have hlinked := hi.wire.completion.linked
  have hkept (ha : ¬ a.restarts) (hframe : t.frames.get id = s.frames.get id) :
      g.Truthful config (as ++ [a]) t id :=
    truthful_kept hi.timers (hi.frames id g (hframe ▸ hg)) hstep ha
  cases a with
  | mqtt action =>
      simp only [step, State.mqttStep] at h
      split at h
      · cases h
      · obtain ⟨mqtt, -, rfl⟩ := Option.map_eq_some_iff.mp h
        exact hkept Bool.false_ne_true rfl
  | registry => cases h; exact hkept Bool.false_ne_true rfl
  | dispatch j call =>
      simp only [step, State.dispatch] at h
      split at h <;> cases h
      by_cases hj : id = j
      · subst hj
        obtain rfl := Option.some.inj ((frame_goto _ _ _).symm.trans hg)
        trivial
      · exact hkept Bool.false_ne_true (Table.get_set_of_ne _ _ hj)
  | commit j =>
      obtain ⟨f, hf, h⟩ := Option.bind_eq_some_iff.mp h
      by_cases hj : id = j
      · subst hj
        exact (truthful_commit (hi.frames id f hf) h hg).later _
      · exact hkept Bool.false_ne_true (leaves_moves (hlinked.named j f hf) (moves_of_commit h) hj).frame
  | resume j =>
      obtain ⟨f, hf, h⟩ := Option.bind_eq_some_iff.mp h
      by_cases hj : id = j
      · subst hj
        exact (truthful_resume hi.resolves (hlinked.named id f hf) (hi.frames id f hf) h hg).later _
      · exact hkept Bool.false_ne_true (leaves_moves (hlinked.named j f hf) (moves_of_resume h) hj).frame
  | refuse j message =>
      obtain ⟨f, hf, h⟩ := Option.bind_eq_some_iff.mp h
      obtain ⟨-, rfl⟩ := refuse_eq h
      by_cases hj : id = j
      · subst hj
        cases (frame_finish _ _ _).symm.trans hg
      · refine hkept Bool.false_ne_true ?_
        rw [State.finish, Table.get_erase, if_neg hj]
  | sweep | sweepFails =>
      simp only [step] at h
      split at h <;> cases h
      exact hkept Bool.false_ne_true rfl
  | restart => cases h; cases hg

theorem outcome_cases {a : Action} {o : DispatchOutcome} (hi : AnswerInv config as s)
    (h : step config s a = some t) (ho : t.outcomes.get id = some (.ok o)) :
    s.outcomes.get id = some (.ok o) ∨ ∃ response n, s.frames.get id = some (.recorded o.command response o.result n) ∧
      t.commands = s.commands ∧ t.results = s.results := by
  cases step_shape h with
  | around _ hl => exact .inl ((hl id).outcome.symm.trans ho)
  | dispatch _ ht => subst ht; exact .inl ho
  | @moves _ j f _ _ hf hm =>
      by_cases hj : id = j
      · subst hj
        have hnone := hi.wire.outcomes.waits id f hf
        cases hm with
        | unknown => cases (Table.get_set_self _ _ _).symm.trans ho
        | returns =>
            cases (Table.get_set_self _ _ _).symm.trans ho
            exact .inr ⟨_, _, hf, rfl, rfl⟩
        | _ => cases hnone.symm.trans ho
      · exact .inl ((leaves_moves (hi.wire.completion.linked.named j f hf) hm hj).outcome.symm.trans ho)
  | @refused j message f _ hf _ ht =>
      subst ht
      by_cases hj : id = j
      · subst hj
        cases (Table.get_set_self _ _ _).symm.trans ho
      · exact .inl ((Table.get_set_of_ne _ _ hj).symm.trans ho)
  | sweep ht => subst ht; exact .inl ho
  | restart ht => subst ht; exact .inl ho

theorem closed_of_settled {v : View} {c : Command} {r : CommandResult} (h : Settled v) (hrow : v.row = some c)
    (hresult : v.result = some r) : c.status ≠ .pending := by
  cases h with
  | unknown => cases hrow
  | abandoned => cases hresult
  | complete hc => exact Option.some.inj hrow ▸ hc
  | incomplete hc => exact Option.some.inj hrow ▸ hc

theorem result_kept {a : Action} {r : CommandResult} (hi : CompletionInv s) (h : step config s a = some t)
    (hover : s.frames.get id = none) (hr : s.results.find id = some r) : t.results.find id = some r := by
  cases step_shape h with
  | around _ hl => exact (hl id).result.trans hr
  | dispatch _ ht => subst ht; exact hr
  | @moves _ j f _ _ hf hm =>
      have hj : id ≠ j := by
        rintro rfl
        cases hover.symm.trans hf
      exact (leaves_moves (hi.linked.named j f hf) hm hj).result.trans hr
  | refused _ _ ht => subst ht; exact hr
  | sweep ht => subst ht; exact hr
  | restart ht => subst ht; exact hr

theorem stored_step {a : Action} {o : DispatchOutcome} (hi : AnswerInv config as s)
    (h : step config s a = some t) (ho : t.outcomes.get id = some (.ok o)) :
    Stored t o ∧ Answered config (as ++ [a]) t.now o.command o.result := by
  have hnow := le_now h
  rcases outcome_cases hi h ho with hold | ⟨response, n, hf, hcommands, hresults⟩
  · obtain ⟨hstored, hanswered⟩ := hi.outcomes id o hold
    have hid : o.command.id = id := hi.wire.outcomes.named id o hold
    have hover : s.frames.get id = none := by
      rw [Option.eq_none_iff_forall_not_mem]
      intro f hf
      cases (hi.wire.outcomes.waits id f hf).symm.trans hold
    subst hid
    have hsettled := hi.wire.completion.stage o.command.id
    rw [hover] at hsettled
    have hstands : Stands s o.command.id o.command := by
      refine ⟨hstored.row, closed_of_settled hsettled hstored.row hstored.result, fun f hf => ?_⟩
      cases hover.symm.trans hf
    exact ⟨⟨(stands_step hi.wire.completion hstands h).found, result_kept hi.wire.completion h hover hstored.result⟩,
      hanswered.later hnow [a]⟩
  · have hid : o.command.id = id := (hi.wire.completion.linked.named id _ hf).1
    have hstage := hi.wire.completion.stage id
    rw [hf] at hstage
    subst hid
    refine ⟨⟨?_, ?_⟩, Answered.later (hi.frames _ _ hf) hnow [a]⟩
    · rw [hcommands]
      exact congrArg View.row hstage.2
    · rw [hresults]
      exact congrArg View.result hstage.2

theorem answerInv_step {a : Action} (hi : AnswerInv config as s) (h : step config s a = some t) :
    AnswerInv config (as ++ [a]) t where
  wire := wireInv_step hi.wire h
  timers := timerInv_step hi.timers h
  resolves := resolves_step hi h
  frames := fun _ _ hg => truthful_step hi h hg
  outcomes := fun _ _ ho => stored_step hi h ho

theorem answerInv_run {connected : Bool} (h : run (step config) (init connected) as = some s) :
    AnswerInv config as s := by
  have hlog := log_along (f := some) (I := fun as s => AnswerInv config as s)
    (fun as s a t hi hs => answerInv_step hi hs) h (answerInv_init config connected)
  rwa [List.nil_append, List.filterMap_some] at hlog

theorem drawn_run (h : run (step config) s as = some t) (hid : id ∈ s.drawn) : id ∈ t.drawn :=
  invariant (P := fun s => id ∈ s.drawn) (fun _ _ _ hd hs => drawn_step hs hd) h hid

theorem drawn_of_dispatch {call : Call} (h : run (step config) s as = some t) (hmem : .dispatch id call ∈ as) :
    id ∈ t.drawn := by
  obtain ⟨before, after, rfl⟩ := List.append_of_mem hmem
  obtain ⟨u, -, hrest⟩ := run_append.mp h
  obtain ⟨v, hv, hafter⟩ := run_cons.mp hrest
  apply drawn_run hafter
  simp only [step, State.dispatch] at hv
  split at hv <;> cases hv
  exact List.mem_cons_self

end EspClawPlatform.Commands
