import EspClawPlatform.Bus.Drain
import EspClawPlatform.Twin.LostUpdates
import EspClawPlatform.Twin.Subscriber

namespace EspClawPlatform.Twin.Subscriber

open Bus (HandlerRun Turn)

variable {s t : Subscriber} {d : String}

@[simp]
theorem key_execution (x : Execution) : Keyed.key x = (x.link, x.target) := rfl

inductive Stage (d : String) (r : HandlerRun) : Option Execution → Prop
  | due (h : r.phase = .due) : Stage d r none
  | running {x : Execution} (h : r.phase = .running) : Stage d r (some x)
  | delivered {x : Execution} (h : r.phase = .delivered) (hx : x.standing = .settled none) : Stage d r (some x)
  | failed {x : Execution} (h : r.phase = .failed)
      (hx : x.event.deviceId = some d → ∃ message, x.standing = .settled (some message)) : Stage d r (some x)

structure HandlerInv (d : String) (s : Subscriber) : Prop where
  delivery : Bus.DeliveryInv s.bus
  calm : ¬ Bus.Crashed s.bus
  listens : Bus.Listens feed s.bus
  typed : ∀ n l, s.bus.links.find n = some l → l.event.eventType = l.event.payload.eventType
  stage : ∀ n i r, s.bus.runAt n i = some r → r.sub = feed → Stage d r (s.executions.find (n, i))
  known : ∀ k x, s.executions.find k = some x → s.bus.heardBy feed x.link x.target = some x.event
  begun : ∀ k x, s.executions.find k = some x → Bus.Begun s.bus x.link

theorem handlerInv_init (shadows : Table DeviceShadow) : HandlerInv d (init shadows) where
  delivery := Bus.deliveryInv_first "device.telemetry.updated" { name := "twin.reported" }
  calm := fun ⟨_, _, hd, _⟩ => by cases hd
  listens := Bus.listens_first "device.telemetry.updated" { name := "twin.reported" }
  typed := fun _ _ hl => by cases hl
  stage := fun _ _ _ hr => by cases hr
  known := fun _ _ hx => by cases hx
  begun := fun _ _ hx => by cases hx

/-- An action that neither makes up the type of an event, nor ends the
subscription of the service, nor fails with a value that cannot be logged. -/
def Fair : Bus.Action Payload → Prop
  | .publish event => event.eventType = event.payload.eventType
  | .unsubscribe id => id ≠ feed.id
  | action => Bus.LogsMessage action

theorem logs_of_fair {a : Bus.Action Payload} (h : Fair a) : Bus.LogsMessage a := by
  cases a with
  | publish | unsubscribe => trivial
  | _ => exact h

/-- No event of the device is given up while its handler is at work. -/
def Patient (d : String) (s : Subscriber) : Bus.Action Payload → Prop
  | .timeout n i => ∀ event ∈ s.bus.heardBy feed n i, event.deviceId ≠ some d
  | _ => True

section Bus

variable {a : Bus.Action Payload}

theorem typed_step (hi : HandlerInv d s) (h : Bus.step s.bus a = some t.bus) (hfair : Fair a) :
    ∀ n l, t.bus.links.find n = some l → l.event.eventType = l.event.payload.eventType := by
  intro n l hl
  cases Bus.step_shape h with
  | still hs | cleanup _ _ hs => exact hi.typed n l (hs ▸ hl)
  | publish event ha hs =>
      rw [Bus.find_publish hs] at hl
      split at hl
      · cases hl
        subst ha
        exact hfair
      · exact hi.typed n l hl
  | move hd hm hs =>
      rw [Bus.find_move hm hs] at hl
      split at hl
      · cases hl
        rw [hm.event_eq]
        exact hi.typed _ _ hd
      · exact hi.typed n l hl

theorem handlerInv_bus (hi : HandlerInv d s) (h : Bus.step s.bus a = some t.bus) (hfair : Fair a)
    (hcalls : ∀ k x, t.executions.find k = some x → s.bus.heardBy feed x.link x.target = some x.event ∧
      Bus.Begun s.bus x.link)
    (hstage : ∀ n i r, t.bus.runAt n i = some r → r.sub = feed → Stage d r (t.executions.find (n, i))) :
    HandlerInv d t where
  delivery := Bus.deliveryInv_step hi.delivery h
  calm := fun hc => hi.calm (Bus.crashed_of_step h (logs_of_fair hfair) hc)
  listens := by
    apply Bus.listens_step hi.listens h
    rintro rfl
    exact hfair rfl
  typed := typed_step hi h hfair
  stage := hstage
  known := fun k x hx => Bus.heardBy_kept hi.delivery.lanes h (hcalls k x hx).1
  begun := fun k x hx => Bus.begun_step hi.delivery.lanes h (hcalls k x hx).2

theorem handlerInv_quiet (hi : HandlerInv d s) (h : Bus.step s.bus a = some t.bus) (hx : t.executions = s.executions)
    (hfair : Fair a)
    (hturn : ∀ n i r r', s.bus.runAt n i = some r → r.sub = feed → Turn n i a r r' →
      Stage d r' (s.executions.find (n, i))) : HandlerInv d t := by
  apply handlerInv_bus hi h hfair
  · intro k x hf
    rw [hx] at hf
    exact ⟨hi.known k x hf, hi.begun k x hf⟩
  · intro n i r hr hsub
    rw [hx]
    cases Bus.run_shape (n := n) (i := i) h with
    | same hsame => exact hi.stage n i r (hsame ▸ hr) hsub
    | chained ha hn hnew =>
        rw [hnew, Option.map_eq_some_iff] at hr
        obtain ⟨sub, -, rfl⟩ := hr
        cases hf : s.executions.find (n, i) with
        | none => exact .due rfl
        | some x =>
            have hkey : (x.link, x.target) = (n, i) := Table.key_of_find hf
            obtain ⟨l, _, hl, -⟩ := Bus.heardBy_eq_some.mp (hi.known _ x hf)
            have hlt := hi.delivery.lanes.fresh _ l hl
            rw [(Prod.mk.inj hkey).1, hn] at hlt
            exact absurd hlt (Nat.lt_irrefl _)
    | turn hr₀ hr₁ hm =>
        obtain rfl := Option.some.inj (hr.symm.trans hr₁)
        exact hturn n i _ r hr₀ ((Bus.sub_turn hm).symm.trans hsub) hm

theorem handlerInv_publish {event : DomainEvent Payload} (hi : HandlerInv d s)
    (htype : event.eventType = event.payload.eventType) : HandlerInv d { s with bus := s.bus.publish event } := by
  refine handlerInv_quiet hi (a := .publish event) rfl rfl htype ?_
  intro n i r r' hr hsub hm
  cases hm

theorem handlerInv_publishes {events : List (DomainEvent Payload)} (hi : HandlerInv d s)
    (htype : ∀ event ∈ events, event.eventType = event.payload.eventType) :
    HandlerInv d { s with bus := events.foldl Bus.State.publish s.bus } := by
  induction events generalizing s with
  | nil => exact hi
  | cons event events ih =>
      have hnext := handlerInv_publish hi (htype event List.mem_cons_self)
      exact ih hnext fun later hl => htype later (List.mem_cons_of_mem _ hl)

theorem stage_outside {n i : Nat} {r r' : HandlerRun} (hi : HandlerInv d s) (ho : s.outside a = true)
    (hpatient : Patient d s a) (hr : s.bus.runAt n i = some r) (hsub : r.sub = feed) (hm : Turn n i a r r')
    (ha : a ≠ .invoke n i) : Stage d r' (s.executions.find (n, i)) := by
  have hretries : r.sub.retries = 0 := by rw [hsub]; rfl
  have hstage := hi.stage n i r hr hsub
  obtain ⟨l, hl, hheard⟩ := Bus.heardBy_of_runAt hr hsub
  cases hm with
  | invoke => exact absurd rfl ha
  | settle =>
      rw [outside, hheard] at ho
      cases ho
  | timeout h =>
      obtain ⟨hp, hp'⟩ := Bus.phase_timeout (Bus.sound_runAt hi.delivery hr) hretries h
      have hforeign : l.event.deviceId ≠ some d := hpatient _ (hheard ▸ rfl)
      cases hx : s.executions.find (n, i) with
      | none =>
          rw [hx] at hstage
          cases hstage with
          | due h => rw [h] at hp; cases hp
      | some x =>
          have hkey : (x.link, x.target) = (n, i) := Table.key_of_find hx
          have hknown := hi.known _ x hx
          rw [(Prod.mk.inj hkey).1, (Prod.mk.inj hkey).2, hheard] at hknown
          exact .failed hp' fun hd => absurd (Option.some.inj hknown ▸ hd) hforeign
  | wake h =>
      rw [HandlerRun.wake] at h
      split at h
      · exact absurd ‹_› (Bus.tried_once hi.delivery hr hretries)
      · cases h

end Bus

theorem executions_calls (link target : Nat) (event : DomainEvent Payload) :
    ∃ standing, (s.calls link target event).executions =
      s.executions.save { link := link, target := target, event := event, standing := standing } := by
  rw [calls]
  cases onTelemetryUpdated event with
  | none => exact ⟨_, rfl⟩
  | some call => exact ⟨_, rfl⟩

theorem handlerInv_invoke {n i : Nat} {event : DomainEvent Payload} {standing : Standing} (hi : HandlerInv d s)
    (h : Bus.step s.bus (.invoke n i) = some t.bus) (hh : s.bus.heardBy feed n i = some event)
    (hx : t.executions = s.executions.save { link := n, target := i, event := event, standing := standing }) :
    HandlerInv d t := by
  apply handlerInv_bus hi h trivial
  · intro k x hf
    rw [hx, Table.find_save] at hf
    split at hf
    · obtain rfl := Option.some.inj hf
      exact ⟨hh, Bus.begun_of_invoke h⟩
    · exact ⟨hi.known k x hf, hi.begun k x hf⟩
  · intro m j r hr hsub
    rw [hx, Table.find_save, key_execution]
    rcases Bus.runAt_onRun (n := m) (i := j) h with ⟨hsame, hne⟩ | ⟨rfl, rfl, r₀, r₁, hr₀, hr₁, hm⟩
    · rw [if_neg fun he => hne (Prod.mk.inj he)]
      exact hi.stage m j r (hsame ▸ hr) hsub
    · obtain rfl := Option.some.inj (hr.symm.trans hr₁)
      rw [if_pos rfl]
      exact .running (Bus.phase_invoke hm).2

theorem handlerInv_goto {x : Execution} (failure : Option String) (hi : HandlerInv d s)
    (hx : s.executions.find (x.link, x.target) = some x) (hs : ∀ failure, x.standing ≠ .settled failure) :
    HandlerInv d { s with executions := s.executions.save { x with standing := .settled failure } } where
  delivery := hi.delivery
  calm := hi.calm
  listens := hi.listens
  typed := hi.typed
  stage := by
    intro n i r hr hsub
    rw [Table.find_save, key_execution]
    have hstage := hi.stage n i r hr hsub
    split
    · rename_i hk
      rw [hk, hx] at hstage
      cases hstage with
      | running h => exact .running h
      | delivered _ h => exact absurd h (hs none)
      | failed h hd =>
          refine .failed h fun he => ?_
          obtain ⟨message, hm⟩ := hd he
          exact absurd hm (hs _)
    · exact hstage
  known := by
    intro k y hy
    rw [Table.find_save] at hy
    split at hy
    · cases hy
      exact hi.known _ x hx
    · exact hi.known k y hy
  begun := by
    intro k y hy
    rw [Table.find_save] at hy
    split at hy
    · cases hy
      exact hi.begun _ x hx
    · exact hi.begun k y hy

theorem fair_result (n i : Nat) (failure : Option String) : Fair (.settle n i (result failure)) := by
  cases failure with
  | none => trivial
  | some message => simp [Fair, result, Bus.LogsMessage, Bus.Thrown.error, Bus.Thrown.message]

theorem handlerInv_settle {x : Execution} (hi : HandlerInv d s)
    (hx : s.executions.find (x.link, x.target) = some x) (h : s.settle x = some t) : HandlerInv d t := by
  obtain ⟨failure, ho, rfl⟩ := Option.map_eq_some_iff.mp h
  have hs : ∀ failure, x.standing ≠ .settled failure := by
    intro other he
    rw [he] at ho
    cases ho
  have hgoto := handlerInv_goto failure hi hx hs
  cases hb : Bus.step s.bus (.settle x.link x.target (result failure)) with
  | none => exact hgoto
  | some bus =>
      refine handlerInv_quiet hgoto (a := .settle x.link x.target (result failure)) hb rfl (fair_result _ _ _) ?_
      intro n i r r' hr hsub hm
      have hretries : r.sub.retries = 0 := by rw [hsub]; rfl
      cases hm with
      | settle hm =>
          rw [Table.find_save, key_execution, if_pos rfl]
          have hsound := Bus.sound_runAt hgoto.delivery hr
          cases failure with
          | none => exact .delivered (Bus.phase_settle none hsound hretries hm).2 rfl
          | some message => exact .failed (Bus.phase_settle (some message) hsound hretries hm).2 fun _ => ⟨message, rfl⟩

theorem HandlerInv.congr (hi : HandlerInv d s) (hb : t.bus = s.bus) (hx : t.executions = s.executions) :
    HandlerInv d t where
  delivery := hb ▸ hi.delivery
  calm := hb ▸ hi.calm
  listens := hb ▸ hi.listens
  typed := hb ▸ hi.typed
  stage := fun n i r hr hsub => hx ▸ hi.stage n i r (hb ▸ hr) hsub
  known := fun k x hf => hb ▸ hi.known k x (hx ▸ hf)
  begun := fun k x hf => hb ▸ hi.begun k x (hx ▸ hf)

end EspClawPlatform.Twin.Subscriber
