import EspClawPlatform.Devices.DevicesService

namespace EspClawPlatform.Devices

open Bus (DeliveryInv HandlerRun Link Subscription Thrown Turn)

variable {s t : State}

@[simp]
theorem key_execution (x : Execution) : Keyed.key x = (x.link, x.target) := rfl

inductive Stage (r : HandlerRun) : Option Execution → Prop
  | due (h : r.phase = .due) : Stage r none
  | running {x : Execution} (h : r.phase = .running) : Stage r (some x)
  | delivered {x : Execution} (h : r.phase = .delivered) (hx : x.frame = .settled none) : Stage r (some x)
  | failed {x : Execution} (h : r.phase = .failed) : Stage r (some x)

structure ListenInv (b : Bus.State Payload) : Prop where
  delivery : DeliveryInv b
  calm : ¬ Bus.Crashed b
  listens : Bus.Listens presence b
  typed : ∀ n d, b.links.find n = some d → d.event.eventType = d.event.payload.eventType

structure HandlerInv (s : State) : Prop where
  listen : ListenInv s.bus
  stage : ∀ n i r, s.bus.runAt n i = some r → r.sub.id = presence.id → Stage r (s.executions.find (n, i))
  known : ∀ k x, s.executions.find k = some x → s.handled x.link x.target = some x.event
  begun : ∀ k x, s.executions.find k = some x → Bus.Begun s.bus x.link

theorem handlerInv_init : HandlerInv init where
  listen :=
    { delivery := Bus.deliveryInv_first _ _
      calm := fun ⟨_, _, hd, _⟩ => by cases hd
      listens := Bus.listens_first PRESENCE_PATTERN { name := "devices.presence" }
      typed := fun _ _ hd => by cases hd }
  stage := fun _ _ _ hr => by cases hr
  known := fun _ _ hx => by cases hx
  begun := fun _ _ hx => by cases hx

def Fair : Bus.Action Payload → Prop
  | .publish event => event.eventType = event.payload.eventType
  | .unsubscribe id => id ≠ presence.id
  | _ => True

theorem listenInv_step {b c : Bus.State Payload} {a : Bus.Action Payload} (hi : ListenInv b)
    (h : Bus.step b a = some c) (hlogs : Bus.LogsMessage a) (hfair : Fair a) : ListenInv c where
  delivery := Bus.deliveryInv_step hi.delivery h
  calm := fun hc => hi.calm (Bus.crashed_of_step h hlogs hc)
  listens := by
    refine Bus.listens_step hi.listens h ?_
    rintro rfl
    exact hfair rfl
  typed := by
    intro n e he
    cases Bus.step_shape h with
    | still hl | cleanup _ _ hl => exact hi.typed n e (hl ▸ he)
    | publish event ha hl =>
        rw [Bus.find_publish hl] at he
        split at he
        · cases he
          subst ha
          exact hfair
        · exact hi.typed n e he
    | move hd hm hl =>
        rw [Bus.find_move hm hl] at he
        split at he
        · cases he
          rw [hm.event_eq]
          exact hi.typed _ _ hd
        · exact hi.typed n e he

theorem retries_eq_zero {r : HandlerRun} (hsub : r.sub = presence) : r.sub.retries = 0 := by
  rw [hsub]
  rfl

theorem Stage.called {r : HandlerRun} {o : Option Execution} (h : Stage r o) (hp : r.phase = .running) :
    ∃ x, o = some x := by
  cases h with
  | due hd => cases hp.symm.trans hd
  | running | delivered | failed => exact ⟨_, rfl⟩

theorem Stage.uncalled {r : HandlerRun} {o : Option Execution} (h : Stage r o)
    (hp : r.phase = .due) : o = none := by
  cases h with
  | due => rfl
  | running h | delivered h | failed h => cases hp.symm.trans h

theorem handlerInv_quiet {a : Bus.Action Payload} (hi : HandlerInv s) (h : Bus.step s.bus a = some t.bus)
    (hx : t.executions = s.executions) (hlogs : Bus.LogsMessage a) (hfair : Fair a)
    (hturn : ∀ n i r r', s.bus.runAt n i = some r → r.sub.id = presence.id → Turn n i a r r' →
      Stage r' (s.executions.find (n, i))) : HandlerInv t where
  listen := listenInv_step hi.listen h hlogs hfair
  stage := by
    intro n i r hr hid
    rw [hx]
    cases Bus.run_shape (n := n) (i := i) h with
    | same hsame => exact hi.stage n i r (hsame ▸ hr) hid
    | chained ha hn hnew =>
        rw [hnew, Option.map_eq_some_iff] at hr
        obtain ⟨sub, -, rfl⟩ := hr
        cases hf : s.executions.find (n, i) with
        | none => exact .due rfl
        | some x =>
            have hkey : (x.link, x.target) = (n, i) := Table.key_of_find hf
            obtain ⟨d, _, hd, -⟩ := Bus.heardBy_eq_some.mp (hi.known _ x hf)
            have hlt := hi.listen.delivery.lanes.fresh _ d hd
            rw [(Prod.mk.inj hkey).1, hn] at hlt
            exact absurd hlt (Nat.lt_irrefl _)
    | @turn r₀ r₁ hr₀ hr₁ hm =>
        obtain rfl := Option.some.inj (hr.symm.trans hr₁)
        exact hturn n i r₀ r hr₀ (Bus.sub_turn hm ▸ hid) hm
  known := fun k x hf => Bus.heardBy_kept hi.listen.delivery.lanes h (hi.known k x (hx ▸ hf))
  begun := fun k x hf => Bus.begun_step hi.listen.delivery.lanes h (hi.begun k x (hx ▸ hf))

theorem fair_of_outside {a : Bus.Action Payload} (h : s.outside a) : Fair a := by
  cases a with
  | publish | unsubscribe => simpa [State.outside, Fair] using h
  | _ => trivial

theorem stage_outside {a : Bus.Action Payload} {n i : Nat} {r r' : HandlerRun} (hi : HandlerInv s)
    (ho : s.outside a) (hr : s.bus.runAt n i = some r) (hid : r.sub.id = presence.id)
    (hm : Turn n i a r r') (ha : a ≠ .invoke n i) :
    Stage r' (s.executions.find (n, i)) := by
  have hsub := hi.listen.listens.sub_of_runAt hr hid
  have hstage := hi.stage n i r hr hid
  cases hm with
  | invoke => exact absurd rfl ha
  | settle =>
      obtain ⟨d, -, hheard⟩ := Bus.heardBy_of_runAt hr hsub
      rw [State.outside, State.handled, hheard] at ho
      cases ho
  | timeout h =>
      obtain ⟨hp, hp'⟩ := Bus.phase_timeout (Bus.sound_runAt hi.listen.delivery hr) (retries_eq_zero hsub) h
      obtain ⟨x, hx⟩ := hstage.called hp
      rw [hx]
      exact .failed hp'
  | wake h =>
      rw [HandlerRun.wake] at h
      split at h
      · exact absurd ‹_› (Bus.tried_once hi.listen.delivery hr (retries_eq_zero hsub))
      · cases h

theorem handlerInv_invoke {n i : Nat} {event : DomainEvent Payload} (hi : HandlerInv s)
    (h : Bus.step s.bus (.invoke n i) = some t.bus) (hh : s.handled n i = some event)
    (hx : t.executions = s.executions.save { link := n, target := i, event := event, frame := begin event }) :
    HandlerInv t where
  listen := listenInv_step hi.listen h trivial trivial
  stage := by
    intro m j r hr hid
    rw [hx, Table.find_save, key_execution]
    rcases Bus.runAt_onRun (n := m) (i := j) h with ⟨hsame, hne⟩ | ⟨rfl, rfl, r₀, r₁, hr₀, hr₁, hm⟩
    · rw [if_neg fun he => hne (Prod.mk.inj he)]
      exact hi.stage m j r (hsame ▸ hr) hid
    · obtain rfl := Option.some.inj (hr.symm.trans hr₁)
      rw [if_pos rfl]
      exact .running (Bus.phase_invoke hm).2
  known := by
    intro k x hf
    rw [hx, Table.find_save] at hf
    split at hf
    · cases hf
      exact Bus.heardBy_kept hi.listen.delivery.lanes h hh
    · exact Bus.heardBy_kept hi.listen.delivery.lanes h (hi.known k x hf)
  begun := by
    intro k x hf
    rw [hx, Table.find_save] at hf
    refine Bus.begun_step hi.listen.delivery.lanes h ?_
    split at hf
    · cases hf
      exact Bus.begun_of_invoke h
    · exact hi.begun k x hf

theorem handlerInv_outside {a : Bus.Action Payload} (hi : HandlerInv s) (h : Bus.step s.bus a = some t.bus)
    (ho : s.outside a) (hlogs : Bus.LogsMessage a) (hx : t.executions = s.called a) : HandlerInv t := by
  cases a with
  | invoke n i =>
      cases hh : s.handled n i with
      | some event => exact handlerInv_invoke hi h hh (by rw [hx, State.called, hh])
      | none =>
          refine handlerInv_quiet hi h (by rw [hx, State.called, hh]) hlogs trivial ?_
          intro m j r r' hr hid hm
          cases hm
          obtain ⟨d, -, hheard⟩ := Bus.heardBy_of_runAt hr (hi.listen.listens.sub_of_runAt hr hid)
          cases hh.symm.trans hheard
  | _ =>
      refine handlerInv_quiet hi h hx hlogs (fair_of_outside ho) fun n i r r' hr hid hm => ?_
      exact stage_outside hi ho hr hid hm (fun ha => by cases ha)

theorem handlerInv_goto {x : Execution} {f : Frame} (hi : HandlerInv s)
    (hx : s.executions.find (x.link, x.target) = some x) (hf : x.frame ≠ .settled none) :
    HandlerInv (s.goto x f) where
  listen := hi.listen
  stage := by
    intro n i r hr hid
    rw [State.goto, Table.find_save, key_execution]
    have hstage := hi.stage n i r hr hid
    split
    · rename_i hk
      rw [hk, hx] at hstage
      cases hstage with
      | running h => exact .running h
      | delivered _ h => exact absurd h hf
      | failed h => exact .failed h
    · exact hstage
  known := by
    intro k y hy
    rw [State.goto, Table.find_save] at hy
    split at hy
    · cases hy
      exact hi.known _ x hx
    · exact hi.known k y hy
  begun := by
    intro k y hy
    rw [State.goto, Table.find_save] at hy
    split at hy
    · cases hy
      exact hi.begun _ x hx
    · exact hi.begun k y hy

theorem handlerInv_publish {draw : Draw} {input : Published} (hi : HandlerInv s)
    (htype : input.type = input.payload.eventType) : HandlerInv (s.publish draw input) := by
  refine handlerInv_quiet hi (a := .publish _) rfl rfl trivial htype ?_
  intro n i r r' hr hid hm
  cases hm

theorem logs_result (n i : Nat) (failure : Option String) :
    Bus.LogsMessage (P := Payload) (.settle n i (result failure)) := by
  cases failure with
  | none => trivial
  | some message => simp [result, Bus.LogsMessage, Thrown.error, Thrown.message]

theorem handlerInv_settle {x : Execution} {failure : Option String} (hi : HandlerInv s)
    (hx : s.executions.find (x.link, x.target) = some x) (hf : x.frame = .returned failure) :
    HandlerInv ({ s with bus := (Bus.step s.bus (.settle x.link x.target (result failure))).getD s.bus }.goto x
      (.settled failure)) := by
  have hgoto : HandlerInv (s.goto x (.settled failure)) := handlerInv_goto hi hx (by rw [hf]; simp)
  cases hb : Bus.step s.bus (.settle x.link x.target (result failure)) with
  | none => exact hgoto
  | some bus =>
      refine handlerInv_quiet hgoto (a := .settle x.link x.target (result failure)) hb rfl
        (logs_result _ _ _) trivial ?_
      intro n i r r' hr hid hm
      have hsound := Bus.sound_runAt hgoto.listen.delivery hr
      have hretries := retries_eq_zero (hgoto.listen.listens.sub_of_runAt hr hid)
      cases hm with
      | settle hm =>
          rw [State.goto, Table.find_save, key_execution, if_pos rfl]
          cases failure with
          | none => exact .delivered (Bus.phase_settle none hsound hretries hm).2 rfl
          | some message => exact .failed (Bus.phase_settle (some message) hsound hretries hm).2

def Action.Logs : Action → Prop
  | .bus action => Bus.LogsMessage action
  | _ => True

instance : ∀ a, Decidable (Action.Logs a)
  | .bus action => inferInstanceAs (Decidable (Bus.LogsMessage action))
  | .commit .. | .refuse .. | .resume .. | .settle .. => inferInstanceAs (Decidable True)

theorem execution_of_bind {g : Execution → Option State} {n i : Nat}
    (h : (s.executions.find (n, i)).bind g = some t) :
    ∃ x, x.link = n ∧ x.target = i ∧ s.executions.find (x.link, x.target) = some x ∧ g x = some t := by
  obtain ⟨x, hx, hg⟩ := Option.bind_eq_some_iff.mp h
  obtain ⟨rfl, rfl⟩ := Prod.mk.inj (show (x.link, x.target) = (n, i) from Table.key_of_find hx)
  exact ⟨x, rfl, rfl, hx, hg⟩

theorem HandlerInv.congr (hi : HandlerInv s) (hb : t.bus = s.bus)
    (hx : t.executions = s.executions) : HandlerInv t where
  listen := hb ▸ hi.listen
  stage := fun n i r hr hid => hx ▸ hi.stage n i r (hb ▸ hr) hid
  known := by
    intro k x hf
    have hk := hi.known k x (hx ▸ hf)
    rwa [State.handled, ← hb] at hk
  begun := fun k x hf => hb ▸ hi.begun k x (hx ▸ hf)

theorem handlerInv_boot {devices : Table DeviceEntity} : HandlerInv (.boot devices) :=
  handlerInv_init.congr rfl rfl

theorem handlerInv_commit {x : Execution} (hi : HandlerInv s)
    (hx : s.executions.find (x.link, x.target) = some x) (h : s.commit x = some t) :
    HandlerInv t := by
  obtain ⟨o, -, h⟩ := Option.bind_eq_some_iff.mp h
  split at h
  · rename_i hf; cases h; exact handlerInv_goto hi hx (by rw [hf]; simp)
  · rename_i hf; cases h; exact handlerInv_goto hi hx (by rw [hf]; simp)
  · rename_i hf; cases h; exact handlerInv_goto (hi.congr rfl rfl) hx (by rw [hf]; simp)
  · rename_i hf; cases h; exact handlerInv_goto (hi.congr rfl rfl) hx (by rw [hf]; simp)
  · cases h

theorem handlerInv_resume {x : Execution} {draw : Draw} (hi : HandlerInv s)
    (hx : s.executions.find (x.link, x.target) = some x) (h : s.resume x draw = some t) : HandlerInv t := by
  obtain ⟨o, -, h⟩ := Option.bind_eq_some_iff.mp h
  split at h
  · rename_i hf; cases h; exact handlerInv_goto hi hx (by rw [hf]; simp)
  · rename_i hf; cases h; exact handlerInv_goto hi hx (by rw [hf]; simp)
  · rename_i hf; cases h; exact handlerInv_goto (handlerInv_publish hi rfl) hx (by rw [hf]; simp)
  · rename_i hf
    cases h
    split
    · exact handlerInv_goto (handlerInv_publish hi rfl) hx (by rw [hf]; simp)
    · exact handlerInv_goto hi hx (by rw [hf]; simp)
  · cases h

theorem handlerInv_step {a : Action} (hi : HandlerInv s) (hlogs : a.Logs) (h : step s a = some t) :
    HandlerInv t := by
  cases a with
  | bus action =>
      simp only [step] at h
      split at h
      · rename_i ho
        obtain ⟨b, hb, rfl⟩ := Option.map_eq_some_iff.mp h
        exact handlerInv_outside hi hb ho hlogs rfl
      · cases h
  | commit link target =>
      obtain ⟨x, -, -, hx, h⟩ := execution_of_bind h
      exact handlerInv_commit hi hx h
  | refuse link target message =>
      obtain ⟨x, -, -, hx, h⟩ := execution_of_bind h
      rw [State.refuse] at h
      split at h
      · rename_i hf; cases h; exact handlerInv_goto hi hx (by rw [hf]; simp)
      · rename_i hf; cases h; exact handlerInv_goto hi hx (by rw [hf]; simp)
      · rename_i hf; cases h; exact handlerInv_goto hi hx (by rw [hf]; simp)
      · rename_i hf; cases h; exact handlerInv_goto hi hx (by rw [hf]; simp)
      · cases h
  | resume link target draw =>
      obtain ⟨x, -, -, hx, h⟩ := execution_of_bind h
      exact handlerInv_resume hi hx h
  | settle link target =>
      obtain ⟨x, -, -, hx, h⟩ := execution_of_bind h
      rw [State.settle] at h
      split at h
      · rename_i hf; cases h; exact handlerInv_settle hi hx hf
      · cases h

end EspClawPlatform.Devices
