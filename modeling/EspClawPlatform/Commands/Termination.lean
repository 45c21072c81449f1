import EspClawPlatform.Lib.Work
import EspClawPlatform.Commands.Answered
import EspClawPlatform.Commands.Tracing

namespace EspClawPlatform.Commands

open Run
open Devices (Device)
open Mqtt (TimerInv)

variable {config : Mqtt.Config} {s t : State} {id : String} {f g : Frame}

/-- The database answers, a dispatch goes on, or a timer of the client fires. -/
def Action.own : Action → Bool
  | .commit _ | .refuse .. | .resume _ | .mqtt (.timer _) => true
  | _ => false

/-- No message comes any more, and no query fails. -/
def Action.driven : Action → Bool
  | .refuse .. => false
  | a => a.own

def Frame.rank : Frame → Nat
  | .finding _ => 10
  | .found .. => 9
  | .creating .. => 8
  | .created .. => 7
  | .sending .. => 5
  | .closing .. => 4
  | .closed .. => 3
  | .recording .. => 2
  | .recorded .. => 1

def Frame.sends : Frame → Bool
  | .created .. => true
  | _ => false

def State.rank (s : State) : Nat := s.frames.total fun row => row.2.rank

def given (_ : State) (a : Action) : List Nat := (a.dispatches.map fun _ => 10).toList

section Work

theorem rank_goto {n : Nat} (hf : s.frames.get id = some f) (hless : g.rank + n < f.rank)
    (ht : t.frames = s.frames.set id g) : t.rank + n < s.rank := by
  have hrank := Table.total_set hf Frame.rank g
  rw [← ht] at hrank
  rw [State.rank, State.rank]
  omega

theorem rank_finish (hf : s.frames.get id = some f) (ht : t.frames = s.frames.erase id) : t.rank < s.rank := by
  have hrank := Table.total_erase_of_get hf Frame.rank
  rw [← ht] at hrank
  have hpos : 0 < f.rank := by cases f <;> exact Nat.succ_pos _
  rw [State.rank, State.rank]
  omega

theorem rank_moves (hf : s.frames.get id = some f) (h : Moves s id f t) : t.rank + f.sends.toNat < s.rank := by
  cases h with
  | answered | begins | stored | sent | threw | settled | closes | records | saves =>
      exact rank_goto hf (by simp [Frame.rank, Frame.sends]) rfl
  | unknown | returns => exact rank_finish hf rfl

section Timers

variable {m m' : Mqtt.State} {action : Mqtt.Action}

def fires : Mqtt.Action → Bool
  | .timer _ => true
  | _ => false

def timers (m : Mqtt.State) : Nat := m.pending.total fun _ => 1

theorem timers_erase {key : String} (hp : m'.pending = m.pending.erase key) :
    timers m' + ((m.pending.get key).isSome).toNat = timers m := by
  have herase := Table.total_erase m.pending (fun _ => 1) key
  rw [timers, hp, Table.get]
  cases hrow : m.pending.find key with
  | none | some => rwa [hrow] at herase

theorem timers_own (hi : TimerInv m) (ha : ¬ action.sends) (h : Mqtt.step config m action = some m') :
    timers m' + (fires action).toNat ≤ timers m := by
  cases action with
  | tick => cases h; exact Nat.le_refl _
  | sendCommand => exact absurd rfl ha
  | message topic payload =>
      simp only [Mqtt.step] at h
      split at h <;> cases h
      cases hr : config.response topic payload with
      | none =>
          rw [timers, (Mqtt.handleMessage_other hr).2]
          exact Nat.le_refl _
      | some r =>
          rw [Mqtt.handleMessage_response hr]
          cases hw : m.pending.get r.id with
          | none => rw [Mqtt.answer_unknown hw]; exact Nat.le_refl _
          | some p =>
              have herase : timers (m.answer r) + ((m.pending.get r.id).isSome).toNat = timers m :=
                timers_erase (by rw [Mqtt.State.answer, hw])
              exact Nat.le_of_add_right_le (Nat.le_of_eq herase)
  | timer p =>
      obtain ⟨c, rfl, hc, harmed, rfl⟩ := Mqtt.fire_eq h
      have hone : ((m.pending.get c.id).isSome).toNat = 1 := by
        rw [hi.own _ c hc harmed]
        rfl
      rw [fires, Bool.toNat_true, ← hone]
      exact Nat.le_of_eq (timers_erase rfl)
  | destroy => cases h; exact Nat.zero_le _
  | ended =>
      simp only [Mqtt.step] at h
      split at h <;> cases h
      exact Nat.le_refl _

theorem timers_sent (config : Mqtt.Config) (s : State) (id : String) (call : Call) (device : Device) :
    timers (s.sent config id call device).1 ≤ timers s.mqtt + 1 := by
  have hshape := Mqtt.step_shape (sent_step config s id call device)
  generalize (s.sent config id call device).1 = m at hshape
  cases hshape with
  | still _ hp => rw [timers, hp]; exact Nat.le_succ _
  | rejected _ _ _ hp => rw [timers, hp]; exact Nat.le_succ _
  | @sent _ _ _ _ message _ ht =>
      subst ht
      have hsave := Table.total_save s.mqtt.pending (fun _ => 1) (message.envelope.id, s.mqtt.sent)
      exact Nat.le_of_add_right_le (Nat.le_of_eq hsave)

end Timers

def State.work (s : State) : Nat := s.rank + timers s.mqtt

theorem work_step {a : Action} (hi : TimerInv s.mqtt) (h : step config s a = some t) :
    t.work + a.own.toNat ≤ s.work + (given s a).sum := by
  have hstep := h
  cases a with
  | mqtt action =>
      simp only [step, State.mqttStep] at h
      split at h
      · cases h
      · rename_i hown
        obtain ⟨mqtt, hm, rfl⟩ := Option.map_eq_some_iff.mp h
        have htimers := timers_own hi hown hm
        have hfires : (Action.mqtt action).own = fires action := by cases action <;> rfl
        have hsame : ({ s with mqtt := mqtt } : State).rank = s.rank := rfl
        have hgiven : (given s (.mqtt action)).sum = 0 := rfl
        simp only [State.work, hfires, hsame, hgiven]
        omega
  | dispatch id call =>
      simp only [step, State.dispatch] at h
      split at h <;> cases h
      have hsave := Table.total_save s.frames (fun row => row.2.rank) (id, .finding call)
      have hrank : ({ s with drawn := id :: s.drawn }.goto id (.finding call)).rank ≤ s.rank + 10 :=
        Nat.le_of_add_right_le (Nat.le_of_eq hsave)
      have hgiven : (given s (.dispatch id call)).sum = 10 := rfl
      have hsame : timers ({ s with drawn := id :: s.drawn }.goto id (.finding call)).mqtt = timers s.mqtt := rfl
      simp only [State.work, hgiven, hsame, Action.own, Bool.toNat_false]
      omega
  | commit id =>
      obtain ⟨f, hf, h⟩ := Option.bind_eq_some_iff.mp h
      have hrank := rank_moves hf (moves_of_commit h)
      cases mqtt_move hstep with
      | same _ hm =>
          simp only [State.work, hm, Action.own, Bool.toNat_true]
          omega
  | refuse id message =>
      obtain ⟨f, hf, h⟩ := Option.bind_eq_some_iff.mp h
      obtain ⟨-, rfl⟩ := refuse_eq h
      have hrank : (s.finish id (.error message)).rank < s.rank := rank_finish hf rfl
      have hsame : timers (s.finish id (.error message)).mqtt = timers s.mqtt := rfl
      simp only [State.work, hsame, Action.own, Bool.toNat_true]
      omega
  | resume id =>
      obtain ⟨f, hf, h⟩ := Option.bind_eq_some_iff.mp h
      have hrank := rank_moves hf (moves_of_resume h)
      cases mqtt_move hstep with
      | same _ hm =>
          simp only [State.work, hm, Action.own, Bool.toNat_true]
          omega
      | @send _ call device command n hf' ht =>
          obtain rfl := Option.some.inj (hf.symm.trans hf')
          have hmqtt : t.mqtt = (s.sent config id call device).1 := ht ▸ mqtt_send
          have htimers := timers_sent config s id call device
          rw [← hmqtt] at htimers
          simp only [Frame.sends, Bool.toNat_true] at hrank
          simp only [State.work, Action.own, Bool.toNat_true]
          omega
  | registry => cases h; exact Nat.le_refl _
  | sweep | sweepFails =>
      simp only [step] at h
      split at h <;> cases h
      exact Nat.le_refl _
  | restart => cases h; exact Nat.zero_le _

theorem sum_given {as : List Action} (h : run (step config) s as = some t) :
    (trace (step config) given s as).sum = 10 * (as.filterMap Action.dispatches).length := by
  induction as generalizing s with
  | nil => rfl
  | cons a as ih =>
      obtain ⟨u, hu, hrest⟩ := run_cons.mp h
      rw [trace_cons hu, List.sum_append_nat, ih hrest, given, List.filterMap_cons]
      cases a.dispatches with
      | none => exact Nat.zero_add _
      | some call =>
          simp only [Option.map_some, Option.toList_some, List.sum_cons, List.sum_nil, List.length_cons]
          omega

end Work

section Idle

/-- The dispatch waits for a promise whose timer was cleared when the client was torn down. -/
def Frame.Abandoned (s : State) : Frame → Prop
  | .sending _ promise _ => ∃ c, s.mqtt.commands.find promise = some c ∧ c.state = .pending ∧ c.armed = false
  | _ => False

theorem abandoned_of_idle {as : List Action} (hi : AnswerInv config as s)
    (hidle : Idle (step config) Action.driven s) (hf : s.frames.get id = some f) : f.Abandoned s := by
  have hcommit : s.commit id f = none := by
    have hnone : (s.frames.get id).bind (s.commit id) = none := hidle (.commit id) rfl
    rwa [hf] at hnone
  have hresume : s.resume config id f = none := by
    have hnone : (s.frames.get id).bind (s.resume config id) = none := hidle (.resume id) rfl
    rwa [hf] at hnone
  cases f with
  | finding | creating | closing | recording => cases hcommit
  | found call device => cases device <;> cases hresume
  | created | closed | recorded => cases hresume
  | sending c promise n =>
      obtain ⟨b, hb, -⟩ := hi.frames id _ hf
      have hpending : b.state = .pending := by
        simp only [State.resume, Option.bind_eq_bind, hb, Option.bind_some] at hresume
        split at hresume
        · assumption
        · cases hresume
        · cases hresume
      refine ⟨b, hb, hpending, ?_⟩
      cases harmed : b.armed with
      | false => rfl
      | true =>
          have hfire : s.mqttStep config (.timer promise) = none := hidle (.mqtt (.timer promise)) rfl
          simp [State.mqttStep, Mqtt.Action.sends, Mqtt.step, Mqtt.State.fire, hb, harmed] at hfire

/-- `onModuleDestroy` is called only while no command is in flight. -/
def StopsIdle (s : State) : Action → Prop
  | .mqtt action => Mqtt.DestroysIdle s.mqtt action
  | _ => True

theorem not_abandoned_step {a : Action} (hi : TimerInv s.mqtt) (hn : ¬ Mqtt.Abandoned s.mqtt) (hC : StopsIdle s a)
    (h : step config s a = some t) : ¬ Mqtt.Abandoned t.mqtt := by
  cases mqtt_move h with
  | same _ hm => rwa [hm]
  | own _ hm =>
      rw [Mqtt.abandoned_step hi hm, not_or, not_not]
      exact ⟨hn, hC⟩
  | @send id call device command n _ ht =>
      subst ht
      rw [mqtt_send, Mqtt.abandoned_step hi (sent_step config s id call device), not_or, not_not]
      exact ⟨hn, trivial⟩
  | restart ht =>
      subst ht
      rintro ⟨p, c, hf, -⟩
      cases hf

theorem not_abandoned_run {connected : Bool} {as : List Action} (h : run (step config) (init connected) as = some s)
    (hC : Along (step config) StopsIdle (init connected) as) : ¬ Mqtt.Abandoned s.mqtt := by
  refine (invariant_along (P := fun s => TimerInv s.mqtt ∧ ¬ Mqtt.Abandoned s.mqtt) ?_ h hC ?_).2
  · exact fun _ _ _ hi hC hs => ⟨timerInv_step hi.1 hs, not_abandoned_step hi.1 hi.2 hC hs⟩
  · refine ⟨Mqtt.timerInv_empty rfl rfl, ?_⟩
    rintro ⟨p, c, hf, -⟩
    cases hf

theorem frames_of_idle {as : List Action} (hi : AnswerInv config as s) (hn : ¬ Mqtt.Abandoned s.mqtt)
    (hidle : Idle (step config) Action.driven s) : s.frames.rows = [] := by
  refine List.eq_nil_iff_forall_not_mem.mpr fun row hrow => ?_
  obtain ⟨id, f⟩ := row
  have hleft := abandoned_of_idle hi hidle (Table.get_eq_some.mpr hrow)
  cases f with
  | sending c promise n => exact hn ⟨promise, hleft⟩
  | _ => exact hleft

theorem calm_of_driven {a : Action} (ha : a.driven = true) (s : State) :
    a.own = true ∧ ¬ a.restarts ∧ StopsIdle s a ∧ given s a = [] := by
  cases a with
  | commit | resume => exact ⟨rfl, Bool.false_ne_true, trivial, rfl⟩
  | mqtt action =>
      cases action with
      | timer => exact ⟨rfl, Bool.false_ne_true, trivial, rfl⟩
      | _ => cases ha
  | _ => cases ha

def State.Engaged (s : State) (id : String) : Prop :=
  s.frames.get id ≠ none ∨ ∃ o, s.outcomes.get id = some o

theorem engaged_step {a : Action} (hn : Linked s) (ha : ¬ a.restarts) (h : step config s a = some t)
    (hid : s.Engaged id) : t.Engaged id := by
  have hgoto (u : State) (f : Frame) : (u.goto id f).Engaged id :=
    .inl (by rw [frame_goto]; exact Option.some_ne_none f)
  have hfinish (u : State) (o : Except String DispatchOutcome) : (u.finish id o).Engaged id :=
    .inr ⟨o, Table.get_set_self _ _ _⟩
  have hkept (hframe : t.frames.get id = s.frames.get id) (houtcome : t.outcomes.get id = s.outcomes.get id) :
      t.Engaged id := by
    rwa [State.Engaged, hframe, houtcome]
  cases step_shape h with
  | around _ hl => exact hkept (hl id).frame (hl id).outcome
  | @dispatch j call _ _ ht =>
      subst ht
      by_cases hj : id = j
      · subst hj
        exact hgoto _ _
      · exact hkept (Table.get_set_of_ne _ _ hj) rfl
  | @moves _ j f _ _ hf hm =>
      by_cases hj : id = j
      · subst hj
        cases hm with
        | unknown | returns => exact hfinish _ _
        | _ => exact hgoto _ _
      · have hl := leaves_moves (hn.named j f hf) hm hj
        exact hkept hl.frame hl.outcome
  | @refused j message f _ _ _ ht =>
      subst ht
      by_cases hj : id = j
      · subst hj
        exact hfinish _ _
      · have hl : Leaves id s (s.finish j (.error message)) := (Leaves.refl id s).finish hj
        exact hkept hl.frame hl.outcome
  | sweep ht => subst ht; exact hkept rfl rfl
  | restart => exact absurd rfl ha

structure Continues (config : Mqtt.Config) (connected : Bool) (s t : State) : Prop where
  reached : ∃ as, run (step config) (init connected) as = some t
  attended : ¬ Mqtt.Abandoned t.mqtt
  engaged : ∀ id, s.frames.get id ≠ none → t.Engaged id

theorem continues_step {connected : Bool} {u : State} {a : Action} (ht : Continues config connected s t)
    (ha : a.driven = true) (h : step config t a = some u) : Continues config connected s u ∧ u.work < t.work := by
  obtain ⟨as, has⟩ := ht.reached
  have hi := answerInv_run has
  have hwork := work_step hi.timers h
  obtain ⟨hown, hrestarts, hstops, hgiven⟩ := calm_of_driven ha t
  rw [hown, Bool.toNat_true, hgiven] at hwork
  refine ⟨⟨⟨as ++ [a], run_append.mpr ⟨t, has, run_singleton.mpr h⟩⟩, ?_, ?_⟩, hwork⟩
  · exact not_abandoned_step hi.timers ht.attended hstops h
  · exact fun id hid => engaged_step hi.wire.completion.linked hrestarts h (ht.engaged id hid)

end Idle

/-- Every run takes at most ten steps for each dispatch. A dispatch that goes on no
further waits for a promise whose timer has been cleared; and as long as the client is
torn down with no command in flight only, every dispatch comes to an outcome when
neither a message nor a failure comes any more. -/
theorem dispatch_terminates {connected : Bool} {as : List Action}
    (h : run (step config) (init connected) as = some s) :
    as.countP Action.own ≤ 10 * (as.filterMap Action.dispatches).length ∧
    (Idle (step config) Action.driven s → ∀ id f, s.frames.get id = some f → f.Abandoned s) ∧
    (Along (step config) StopsIdle (init connected) as → ∃ (bs : List Action) (t : State),
      (∀ b ∈ bs, b.driven = true) ∧ run (step config) s bs = some t ∧ t.frames.rows = [] ∧
      ∀ id f, s.frames.get id = some f → ∃ o, t.outcomes.get id = some o) := by
  refine ⟨?_, fun hidle id f hf => abandoned_of_idle (answerInv_run h) hidle hf, fun hC => ?_⟩
  · have hwork := work_along Action.own State.work
      (fun _ _ _ hi hs => ⟨timerInv_step hi hs, work_step hi hs⟩) h (Mqtt.timerInv_empty rfl rfl)
    have hstart : (init connected).work = 0 := rfl
    rw [hstart, sum_given h] at hwork
    omega
  · obtain ⟨bs, t, hdriven, hrun, ht, hidle⟩ := exists_idle Action.driven State.work
      (fun _ _ _ hu ha hs => continues_step hu ha hs)
      (⟨⟨as, h⟩, not_abandoned_run h hC, fun id hid => .inl hid⟩ : Continues config connected s s)
    obtain ⟨cs, hcs⟩ := ht.reached
    have hempty := frames_of_idle (answerInv_run hcs) ht.attended hidle
    refine ⟨bs, t, hdriven, hrun, hempty, fun id f hf => ?_⟩
    have hid : s.frames.get id ≠ none := by
      rw [hf]
      exact Option.some_ne_none f
    refine (ht.engaged id hid).resolve_left fun hne => hne ?_
    rw [Table.get, Table.find, hempty]
    rfl

def sendOne : List Action :=
  [.registry (Table.empty.save { id := "dev-1", baseTopic := "espclaw" }),
    .dispatch "c1" { deviceId := "dev-1", input := { name := "get_system_info" } },
    .commit "c1", .resume "c1", .commit "c1", .resume "c1"]

theorem silent_device_is_concluded : ∃ (s : State) (bs : List Action) (t : State),
    run (step bench) (init true) sendOne = some s ∧ s.published "c1" = true ∧ (∀ b ∈ bs, b.driven = true) ∧
    run (step bench) s bs = some t ∧ ∃ o, t.outcomes.get "c1" = some o := by
  obtain ⟨s, hs⟩ := Option.isSome_iff_exists.mp
    (show (run (step bench) (init true) sendOne).isSome by decide +kernel)
  have hsent : ∀ s ∈ run (step bench) (init true) sendOne,
      s.published "c1" = true ∧ (s.frames.get "c1").isSome = true := by
    decide +kernel
  obtain ⟨hpublished, hframe⟩ := hsent s hs
  obtain ⟨f, hf⟩ := Option.isSome_iff_exists.mp hframe
  have hC : Along (step bench) StopsIdle (init true) sendOne := by
    refine along_of_mem (fun a ha s => ?_) _
    simp only [sendOne, List.mem_cons, List.not_mem_nil, or_false] at ha
    rcases ha with rfl | rfl | rfl | rfl | rfl | rfl <;> trivial
  obtain ⟨bs, t, hdriven, hrun, -, houtcomes⟩ := (dispatch_terminates hs).2.2 hC
  exact ⟨s, bs, t, hs, hpublished, hdriven, hrun, houtcomes "c1" f hf⟩

end EspClawPlatform.Commands
