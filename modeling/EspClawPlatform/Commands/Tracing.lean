import EspClawPlatform.Commands.OnRecord
import EspClawPlatform.Context.RequestContext

namespace EspClawPlatform.Commands

open Run
open Context (Hexadecimal contextFromHeaders isCorrelationId)

variable {config : Mqtt.Config} {s t : State} {id : String} {call : Call}

def Call.correlationId (call : Call) : String := (call.context.map (·.correlationId)).getD call.correlation

/-- The call is made in a request, whose context is that of its headers, or
outside of one, and every id that is drawn is a UUID or as harmless. -/
structure Call.Traced (call : Call) : Prop where
  drawn : isCorrelationId call.correlation = true
  request : ∀ context ∈ call.context, ∃ headers fresh, isCorrelationId fresh = true ∧
    context = contextFromHeaders headers fresh

structure Harmless (event : DomainEvent Payload) : Prop where
  correlation : isCorrelationId event.correlationId = true
  trace : ∀ trace ∈ event.traceId, Hexadecimal 32 trace
  span : ∀ span ∈ event.spanId, Hexadecimal 16 span

theorem Call.Traced.correlationId (h : call.Traced) : isCorrelationId call.correlationId = true := by
  rw [Call.correlationId]
  cases hc : call.context with
  | none => exact h.drawn
  | some context =>
      obtain ⟨headers, fresh, hfresh, rfl⟩ := h.request context hc
      exact Context.isCorrelationId_context hfresh

theorem harmless_createEvent {eventId fresh : String} {now : Nat} {e : Published} (h : call.Traced)
    (he : e.correlationId = some call.correlationId) : Harmless (createEvent call.context eventId fresh now e) where
  correlation := by
    rw [createEvent, he, Option.getD_some]
    exact h.correlationId
  trace := by
    intro trace ht
    obtain ⟨context, hc, ht⟩ := Option.bind_eq_some_iff.mp ht
    obtain ⟨headers, _, -, rfl⟩ := h.request context hc
    exact Context.hexadecimal_trace ht
  span := by
    intro span hs
    obtain ⟨context, hc, hs⟩ := Option.bind_eq_some_iff.mp hs
    obtain ⟨headers, _, -, rfl⟩ := h.request context hc
    exact Context.hexadecimal_span hs

structure Announces (id : String) (call : Call) (e : Published) : Prop where
  cause : e.causationId = some id
  correlation : e.correlationId = some call.correlationId

theorem announces_of_asked {c : Command} {e : Published} (hasked : c.asked = call.command id)
    (hcause : e.causationId = some c.id) (hcorrelation : e.correlationId = c.correlationId) : Announces id call e where
  cause := by
    have hid : c.id = id := congrArg Command.id hasked
    rw [hcause, hid]
  correlation := by
    have hc : c.correlationId = some call.correlationId := congrArg Command.correlationId hasked
    rw [hcorrelation, hc]

theorem events_moves {f : Frame} (hf : f.Asks id call) (h : Moves s id f t) :
    t.events = s.events ∨ ∃ e, Announces id call e ∧ t.events = s.events ++ [e] := by
  cases h with
  | sent | threw => exact .inr ⟨_, announces_of_asked hf.2 rfl rfl, rfl⟩
  | returns => exact .inr ⟨_, announces_of_asked hf rfl rfl, rfl⟩
  | _ => exact .inl rfl

theorem events_step {as : List Action} {a : Action} (hw : WireInv config as s) (h : step config s a = some t) :
    t.events = s.events ∨
      ∃ id call e, .dispatch id call ∈ as ∧ OnRecord id call s ∧ Announces id call e ∧ t.events = s.events ++ [e] := by
  have hmoves {id : String} {f : Frame} (hf : s.frames.get id = some f) (hm : Moves s id f t) :
      t.events = s.events ∨
        ∃ id call e, .dispatch id call ∈ as ∧ OnRecord id call s ∧ Announces id call e ∧ t.events = s.events ++ [e] := by
    obtain ⟨call, hmem, ho⟩ := hw.record id (hw.completion.linked.drawn id f hf)
    rcases events_moves (ho.frame f hf) hm with he | ⟨e, hannounces, he⟩
    · exact .inl he
    · exact .inr ⟨id, call, e, hmem, ho, hannounces, he⟩
  cases a with
  | mqtt action =>
      rw [step, State.mqttStep] at h
      split at h
      · cases h
      · obtain ⟨mqtt, -, rfl⟩ := Option.map_eq_some_iff.mp h
        exact .inl rfl
  | registry | restart => cases h; exact .inl rfl
  | dispatch id call =>
      rw [step, State.dispatch] at h
      split at h <;> cases h
      exact .inl rfl
  | commit id =>
      obtain ⟨f, hf, h⟩ := Option.bind_eq_some_iff.mp h
      exact hmoves hf (moves_of_commit h)
  | refuse id message =>
      obtain ⟨f, hf, h⟩ := Option.bind_eq_some_iff.mp h
      obtain ⟨-, rfl⟩ := refuse_eq h
      exact .inl rfl
  | resume id =>
      obtain ⟨f, hf, h⟩ := Option.bind_eq_some_iff.mp h
      exact hmoves hf (moves_of_resume h)
  | sweep | sweepFails =>
      rw [step] at h
      split at h <;> cases h
      exact .inl rfl

structure TraceInv (config : Mqtt.Config) (as : List Action) (s : State) : Prop where
  wire : WireInv config as s
  events : ∀ e ∈ s.events, ∃ id call, .dispatch id call ∈ as ∧ OnRecord id call s ∧ Announces id call e

theorem traceInv_step {as : List Action} {a : Action} (hi : TraceInv config as s) (h : step config s a = some t) :
    TraceInv config (as ++ [a]) t where
  wire := wireInv_step hi.wire h
  events := by
    have hkept {id : String} {call : Call} {e : Published} (hmem : .dispatch id call ∈ as) (ho : OnRecord id call s)
        (he : Announces id call e) : ∃ id call, .dispatch id call ∈ as ++ [a] ∧ OnRecord id call t ∧ Announces id call e :=
      ⟨id, call, List.mem_append_left _ hmem, onRecord_step hi.wire.completion ho h, he⟩
    intro e he
    rcases events_step hi.wire h with hsame | ⟨id, call, e', hmem, ho, hannounces, hnew⟩
    · rw [hsame] at he
      obtain ⟨id, call, hmem, ho, hannounces⟩ := hi.events e he
      exact hkept hmem ho hannounces
    · rw [hnew] at he
      rcases List.mem_append.mp he with he | he
      · obtain ⟨id, call, hmem, ho, hannounces⟩ := hi.events e he
        exact hkept hmem ho hannounces
      · obtain rfl := List.mem_singleton.mp he
        exact hkept hmem ho hannounces

theorem traceInv_run {connected : Bool} {as : List Action} (h : run (step config) (init connected) as = some s) :
    TraceInv config as s := by
  have hlog := log_along (f := some) (I := fun as s => TraceInv config as s) (fun _ _ _ _ hi hs => traceInv_step hi hs) h
    ⟨wireInv_init connected, fun _ he => (by cases he)⟩
  rwa [List.nil_append, List.filterMap_some] at hlog

def Action.dispatches : Action → Option (String × Call)
  | .dispatch id call => some (id, call)
  | _ => none

theorem dispatched_once {connected : Bool} {as : List Action} {call' : Call}
    (h : run (step config) (init connected) as = some s) (hc : .dispatch id call ∈ as) (hc' : .dispatch id call' ∈ as) :
    call = call' := by
  have hlog := log_along (f := Action.dispatches) (l := [])
    (I := fun calls s => (∀ c ∈ calls, c.1 ∈ s.drawn) ∧ (calls.map Prod.fst).Nodup) ?_ h
    ⟨fun _ hc => (by cases hc), List.nodup_nil⟩
  · have hmem {call : Call} (hc : .dispatch id call ∈ as) : (id, call) ∈ as.filterMap Action.dispatches :=
      List.mem_filterMap.mpr ⟨_, hc, rfl⟩
    exact (Prod.mk.inj (List.inj_on_of_nodup_map hlog.2 (hmem hc) (hmem hc') rfl)).2
  · rintro calls s a t ⟨hdrawn, hnodup⟩ hs
    have hold : ∀ c ∈ calls, c.1 ∈ t.drawn := fun c hc => drawn_step hs (hdrawn c hc)
    cases a with
    | dispatch j call =>
        rw [step, State.dispatch] at hs
        split at hs <;> cases hs
        rename_i hnew
        refine ⟨fun c hc => ?_, ?_⟩
        · rcases List.mem_append.mp hc with hc | hc
          · exact hold c hc
          · rw [List.mem_singleton.mp hc]
            exact List.mem_cons_self
        · rw [List.map_append, List.nodup_append]
          refine ⟨hnodup, List.nodup_singleton _, fun x hx y hy => ?_⟩
          obtain ⟨c, hc, rfl⟩ := List.mem_map.mp hx
          obtain rfl := List.mem_singleton.mp hy
          exact fun he => hnew (he ▸ hdrawn c hc)
    | _ =>
        show (∀ c ∈ calls ++ [], _) ∧ ((calls ++ []).map Prod.fst).Nodup
        rw [List.append_nil]
        exact ⟨hold, hnodup⟩

/-- What a caller sends as its correlation id reaches the events and the rows of
its commands as it is or not at all: both events of a command carry the one id
of its dispatch, which its row has too, and it is a short token of safe
characters whatever the headers of the request were. -/
theorem commands_are_traced {connected : Bool} {as : List Action}
    (h : run (step config) (init connected) as = some s) (htraced : ∀ id call, .dispatch id call ∈ as → call.Traced) :
    (∀ e ∈ s.events, ∃ id call, .dispatch id call ∈ as ∧ e.causationId = some id ∧
      e.correlationId = some call.correlationId ∧
      ∀ eventId fresh now, Harmless (createEvent call.context eventId fresh now e)) ∧
    (∀ e ∈ s.events, ∀ e' ∈ s.events, e.causationId = e'.causationId → e.correlationId = e'.correlationId) ∧
    ∀ id row, s.commands.find id = some row → ∃ call, .dispatch id call ∈ as ∧
      row.correlationId = some call.correlationId ∧ isCorrelationId call.correlationId = true := by
  have hi := traceInv_run h
  refine ⟨fun e he => ?_, fun e he e' he' hcause => ?_, fun id row hrow => ?_⟩
  · obtain ⟨id, call, hmem, -, hannounces⟩ := hi.events e he
    exact ⟨id, call, hmem, hannounces.cause, hannounces.correlation,
      fun _ _ _ => harmless_createEvent (htraced id call hmem) hannounces.correlation⟩
  · obtain ⟨id, call, hmem, -, hannounces⟩ := hi.events e he
    obtain ⟨id', call', hmem', -, hannounces'⟩ := hi.events e' he'
    rw [hannounces.cause, hannounces'.cause] at hcause
    obtain rfl := Option.some.inj hcause
    obtain rfl := dispatched_once h hmem hmem'
    rw [hannounces.correlation, hannounces'.correlation]
  · have hdrawn : id ∈ s.drawn := by
      by_contra hnew
      have hnone := congrArg View.row (hi.wire.completion.fresh id hnew)
      cases hnone.symm.trans hrow
    obtain ⟨call, hmem, ho⟩ := hi.wire.record id hdrawn
    have hcorrelation := congrArg Command.correlationId (ho.row row hrow)
    exact ⟨call, hmem, hcorrelation, (htraced id call hmem).correlationId⟩

def forged : Table (String × Context.HeaderValue) :=
  Table.empty.set "x-correlation-id" (.one "req-1\r\nset-cookie: role=admin")

def forgedCall : Call where
  deviceId := "dev-1"
  input := { name := "get_system_info" }
  context := some (contextFromHeaders forged "0b1c2d3e-4f50-4a6b-8c7d-9e0f1a2b3c4d")
  correlation := "5e6f7a8b-9c0d-4e1f-a2b3-c4d5e6f7a8b9"

def dispatchForged : List Action :=
  [.registry (Table.empty.save { id := "dev-1", baseTopic := "espclaw" }), .dispatch "c1" forgedCall, .commit "c1",
    .resume "c1", .commit "c1", .resume "c1"]

theorem forged_id_is_replaced : ∃ s e, run (step Mqtt.answering) (init true) dispatchForged = some s ∧ e ∈ s.events ∧
    e.correlationId = some "0b1c2d3e-4f50-4a6b-8c7d-9e0f1a2b3c4d" ∧
    ∃ call : Call, Harmless (createEvent call.context "e1" "c9" 1 e) := by
  have hevents : ∀ s ∈ run (step Mqtt.answering) (init true) dispatchForged, s.events ≠ [] := by decide +kernel
  obtain ⟨s, hs⟩ := Option.isSome_iff_exists.mp
    (show (run (step Mqtt.answering) (init true) dispatchForged).isSome by decide +kernel)
  obtain ⟨e, he⟩ := List.exists_mem_of_ne_nil _ (hevents s hs)
  have hcalls {id : String} {call : Call} (hmem : .dispatch id call ∈ dispatchForged) :
      id = "c1" ∧ call = forgedCall := by
    simpa [dispatchForged] using hmem
  have htraced : forgedCall.Traced := by
    refine ⟨by decide +kernel, ?_⟩
    rintro _ ⟨⟩
    exact ⟨forged, _, by decide +kernel, rfl⟩
  obtain ⟨hall, -⟩ := commands_are_traced hs fun _ _ hmem => (hcalls hmem).2 ▸ htraced
  obtain ⟨id, call, hmem, -, hcorrelation, hharmless⟩ := hall e he
  have hid : call.correlationId = "0b1c2d3e-4f50-4a6b-8c7d-9e0f1a2b3c4d" := by
    rw [(hcalls hmem).2]
    decide +kernel
  exact ⟨s, e, hs, he, hid ▸ hcorrelation, call, hharmless _ _ _⟩

end EspClawPlatform.Commands
