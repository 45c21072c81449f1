import Mathlib.Data.List.Forall2
import EspClawPlatform.Audit.Ledger

namespace EspClawPlatform.Audit

open Run

/-- A service by its steps and by the events that it has published so far; no
other module publishes those with a payload of its `own`. -/
structure Service (σ α : Type) where
  step : σ → α → Option σ
  events : σ → List Published
  own : Payload → Bool
  grows : ∀ s a t, step s a = some t → ∃ more, events t = events s ++ more

structure Stamp where
  context : Option RequestContext := none
  eventId : String
  correlationId : String
  timestamp : Nat

def Stamp.event (stamp : Stamp) (input : Published) : DomainEvent Payload :=
  createEvent stamp.context stamp.eventId stamp.correlationId stamp.timestamp input

def stampOf (id : String) : Stamp where
  eventId := id
  correlationId := id
  timestamp := 7

structure Recorded (σ : Type) where
  service : σ
  audit : State

inductive RecordedAction (α : Type)
  | service (action : α) (stamps : List Stamp)
  | audit (action : Action)

variable {σ α : Type}

def Service.fresh (service : Service σ α) (s t : σ) : List Published :=
  (service.events t).drop (service.events s).length

def publications (stamps : List Stamp) (inputs : List Published) : List Action :=
  (stamps.zipWith Stamp.event inputs).map fun event => .bus (.bus (.publish event))

def Service.heard (service : Service σ α) (s : Recorded σ) : RecordedAction α → List Action
  | .service action stamps =>
      (service.step s.service action).elim [] fun t => publications stamps (service.fresh s.service t)
  | .audit action => [action]

/-- The service publishes within its step; whatever else is on the bus is not of its own. -/
def Service.recorded (service : Service σ α) (s : Recorded σ) : RecordedAction α → Option (Recorded σ)
  | .service action stamps =>
      (service.step s.service action).bind fun t =>
        if stamps.length = (service.fresh s.service t).length then
          (run Audit.step s.audit (publications stamps (service.fresh s.service t))).map fun audit =>
            { service := t, audit := audit }
        else none
  | .audit action =>
      if (published action).all fun event => !service.own event.payload then
        (Audit.step s.audit action).map fun audit => { s with audit := audit }
      else none

def Service.published (service : Service σ α) (s : Recorded σ) (as : List (RecordedAction α)) :
    List (DomainEvent Payload) :=
  (trace service.recorded service.heard s as).filterMap Audit.published

def RecordedAction.served : RecordedAction α → List α
  | .service action _ => [action]
  | .audit _ => []

def Stamped (event : DomainEvent Payload) (input : Published) : Prop := ∃ stamp : Stamp, event = stamp.event input

section

variable {service : Service σ α} {s t : Recorded σ} {a : RecordedAction α} {as : List (RecordedAction α)}

theorem heard_step (h : service.recorded s a = some t) : run step s.audit (service.heard s a) = some t.audit := by
  cases a with
  | service action stamps =>
      obtain ⟨u, hu, hif⟩ := Option.bind_eq_some_iff.mp h
      split at hif
      · obtain ⟨audit, haudit, rfl⟩ := Option.map_eq_some_iff.mp hif
        rw [Service.heard, hu]
        exact haudit
      · cases hif
  | audit action =>
      rw [Service.recorded] at h
      split at h
      · obtain ⟨audit, haudit, rfl⟩ := Option.map_eq_some_iff.mp h
        exact run_singleton.mpr haudit
      · cases h

theorem served_step (h : service.recorded s a = some t) : run service.step s.service a.served = some t.service := by
  cases a with
  | service action stamps =>
      obtain ⟨u, hu, hif⟩ := Option.bind_eq_some_iff.mp h
      split at hif
      · obtain ⟨audit, -, rfl⟩ := Option.map_eq_some_iff.mp hif
        exact run_singleton.mpr hu
      · cases hif
  | audit action =>
      rw [Service.recorded] at h
      split at h
      · obtain ⟨audit, -, rfl⟩ := Option.map_eq_some_iff.mp h
        rfl
      · cases h

theorem heard_run (h : run service.recorded s as = some t) :
    run step s.audit (trace service.recorded service.heard s as) = some t.audit :=
  run_trace (P := fun _ => True) Recorded.audit (fun _ _ _ _ hs => ⟨trivial, heard_step hs⟩) h trivial

theorem served_run (h : run service.recorded s as = some t) :
    run service.step s.service (trace service.recorded (fun _ a => a.served) s as) = some t.service :=
  run_trace (P := fun _ => True) Recorded.service (fun _ _ _ _ hs => ⟨trivial, served_step hs⟩) h trivial

theorem filterMap_publications (stamps : List Stamp) (inputs : List Published) :
    (publications stamps inputs).filterMap published = stamps.zipWith Stamp.event inputs := by
  rw [publications, List.filterMap_map]
  exact List.filterMap_some

theorem stamped_publications {stamps : List Stamp} {inputs : List Published} (h : stamps.length = inputs.length) :
    List.Forall₂ Stamped (stamps.zipWith Stamp.event inputs) inputs := by
  induction inputs generalizing stamps with
  | nil =>
      rw [List.zipWith_nil_right]
      exact .nil
  | cons input inputs ih =>
      cases stamps with
      | nil => cases h
      | cons stamp stamps => exact .cons ⟨stamp, rfl⟩ (ih (Nat.succ.inj h))

theorem stamped_step (h : service.recorded s a = some t) :
    ∃ more, service.events t.service = service.events s.service ++ more ∧
      List.Forall₂ Stamped (((service.heard s a).filterMap published).filter fun e => service.own e.payload)
        (more.filter fun e => service.own e.payload) := by
  cases a with
  | service action stamps =>
      obtain ⟨u, hu, hif⟩ := Option.bind_eq_some_iff.mp h
      split at hif
      · rename_i hlength
        obtain ⟨audit, -, rfl⟩ := Option.map_eq_some_iff.mp hif
        obtain ⟨more, hmore⟩ := service.grows _ _ _ hu
        have hfresh : service.fresh s.service u = more := by rw [Service.fresh, hmore, List.drop_left]
        refine ⟨more, hmore, ?_⟩
        rw [Service.heard, hu, Option.elim_some, filterMap_publications, hfresh]
        rw [hfresh] at hlength
        refine List.rel_filter ?_ (stamped_publications hlength)
        rintro e input ⟨stamp, rfl⟩
        exact Iff.rfl
      · cases hif
  | audit action =>
      rw [Service.recorded] at h
      split at h
      · rename_i hothers
        obtain ⟨audit, -, rfl⟩ := Option.map_eq_some_iff.mp h
        refine ⟨[], (List.append_nil _).symm, ?_⟩
        have hnone : ((service.heard s (.audit action)).filterMap published).filter
            (fun e => service.own e.payload) = [] := by
          rw [List.filter_eq_nil_iff]
          intro e he hown
          obtain ⟨a, ha, hp⟩ := List.mem_filterMap.mp he
          obtain rfl := List.mem_singleton.mp ha
          rw [hp, Option.all_some, hown] at hothers
          cases hothers
        rw [hnone]
        exact .nil
      · cases h

theorem stamped_run (h : run service.recorded s as = some t) :
    ∃ more, service.events t.service = service.events s.service ++ more ∧
      List.Forall₂ Stamped ((service.published s as).filter fun e => service.own e.payload)
        (more.filter fun e => service.own e.payload) := by
  induction as generalizing s with
  | nil =>
      cases h
      exact ⟨[], (List.append_nil _).symm, .nil⟩
  | cons a as ih =>
      obtain ⟨v, hv, hrun⟩ := run_cons.mp h
      obtain ⟨first, hfirst, hstamped⟩ := stamped_step hv
      obtain ⟨rest, hrest, hlater⟩ := ih hrun
      refine ⟨first ++ rest, by rw [hrest, hfirst, List.append_assoc], ?_⟩
      rw [Service.published, trace_cons hv, List.filterMap_append, List.filter_append, List.filter_append]
      exact List.rel_append hstamped hlater

theorem stamped_published (h : run service.recorded s as = some t) (hs : service.events s.service = []) :
    List.Forall₂ Stamped ((service.published s as).filter fun e => service.own e.payload)
      ((service.events t.service).filter fun e => service.own e.payload) := by
  obtain ⟨more, hmore, hstamped⟩ := stamped_run h
  rw [hs, List.nil_append] at hmore
  rwa [hmore]

theorem payload_stamped {events : List (DomainEvent Payload)} {inputs : List Published}
    (h : List.Forall₂ Stamped events inputs) : events.map (·.payload) = inputs.map (·.payload) := by
  induction h with
  | nil => rfl
  | cons hstamped _ ih =>
      obtain ⟨stamp, rfl⟩ := hstamped
      rw [List.map_cons, List.map_cons, ih]
      rfl

theorem exists_event {events : List (DomainEvent Payload)} {inputs : List Published} {input : Published}
    (h : List.Forall₂ Stamped events inputs) (hinput : input ∈ inputs) : ∃ e ∈ events, Stamped e input := by
  induction h with
  | nil => cases hinput
  | cons hstamped _ ih =>
      rcases List.mem_cons.mp hinput with rfl | hinput
      · exact ⟨_, List.mem_cons_self, hstamped⟩
      · obtain ⟨e, he, hstamp⟩ := ih hinput
        exact ⟨e, List.mem_cons_of_mem _ he, hstamp⟩

theorem exists_input {events : List (DomainEvent Payload)} {inputs : List Published} {e : DomainEvent Payload}
    (h : List.Forall₂ Stamped events inputs) (he : e ∈ events) : ∃ input ∈ inputs, Stamped e input := by
  induction h with
  | nil => cases he
  | cons hstamped _ ih =>
      rcases List.mem_cons.mp he with rfl | he
      · exact ⟨_, List.mem_cons_self, hstamped⟩
      · obtain ⟨input, hinput, hstamp⟩ := ih he
        exact ⟨input, List.mem_cons_of_mem _ hinput, hstamp⟩

theorem oneLane_published {log : EventLog} (device : Option String) (h : run service.recorded s as = some t)
    (hs : service.events s.service = [])
    (hinputs : ∀ input ∈ service.events t.service, service.own input.payload = true →
      input.deviceId = device ∧ isAuditedEventType input.type = true)
    (hfresh : Fresh log (service.published s as))
    (hclean : ∀ record ∈ log.records.rows, service.own record.payload = false) :
    OneLane service.own log (service.published s as) := by
  have hown : ∀ e ∈ service.published s as, service.own e.payload = true →
      e.deviceId = device ∧ isAuditedEventType e.eventType = true := by
    intro e he hk
    obtain ⟨input, hinput, stamp, rfl⟩ := exists_input (stamped_published h hs) (List.mem_filter.mpr ⟨he, hk⟩)
    obtain ⟨hmem, hk⟩ := List.mem_filter.mp hinput
    exact hinputs input hmem hk
  exact
    { toFresh := hfresh
      lane := fun e₁ h₁ e₂ h₂ k₁ k₂ => (hown e₁ h₁ k₁).1.trans (hown e₂ h₂ k₂).1.symm
      audited := fun e he hk => (hown e he hk).2
      clean := fun _ _ hr => hclean _ (Table.mem_of_find hr) }

def RecordedAction.Logs : RecordedAction α → Prop
  | .service .. => True
  | .audit action => action.Logs

instance : ∀ a : RecordedAction α, Decidable a.Logs
  | .service .. => inferInstanceAs (Decidable True)
  | .audit action => inferInstanceAs (Decidable action.Logs)

def Serving (C : σ → α → Prop) (s : Recorded σ) : RecordedAction α → Prop
  | .service action _ => C s.service action
  | .audit _ => True

instance {C : σ → α → Prop} [∀ s a, Decidable (C s a)] : ∀ (s : Recorded σ) a, Decidable (Serving C s a)
  | s, .service action _ => inferInstanceAs (Decidable (C s.service action))
  | _, .audit _ => inferInstanceAs (Decidable True)

theorem logs_heard (h : run service.recorded s as = some t)
    (hlogs : Along service.recorded (fun _ => RecordedAction.Logs) s as) :
    Along step (fun _ => Action.Logs) s.audit (trace service.recorded service.heard s as) := by
  refine (along_trace (P := fun _ => True) Recorded.audit (fun _ _ _ _ hs => ⟨trivial, heard_step hs⟩) ?_ h trivial).mp hlogs
  intro s a t _ hs
  cases a with
  | service action stamps =>
      refine iff_of_true trivial (along_of_mem (fun b hb _ => ?_) _)
      obtain ⟨u, hu, -⟩ := Option.bind_eq_some_iff.mp hs
      rw [Service.heard, hu] at hb
      obtain ⟨event, -, rfl⟩ := List.mem_map.mp hb
      trivial
  | audit action => simp [Service.heard, Along, RecordedAction.Logs]

theorem along_served {C : σ → α → Prop} (h : run service.recorded s as = some t) :
    Along service.recorded (Serving C) s as ↔
      Along service.step C s.service (trace service.recorded (fun _ a => a.served) s as) := by
  refine along_trace (P := fun _ => True) Recorded.service (fun _ _ _ _ hs => ⟨trivial, served_step hs⟩) ?_ h trivial
  intro s a t _ _
  cases a <;> simp [RecordedAction.served, Along, Serving]

/-- What the log tells of the service is the beginning of what it has published,
and all of it once the bus has delivered everything. -/
theorem history_of_service {log : EventLog} (hlog : Sequenced log) (haudit : s.audit = init log)
    (h : run service.recorded s as = some t) (hs : service.events s.service = [])
    (hlogs : Along service.recorded (fun _ => RecordedAction.Logs) s as)
    (ho : OneLane service.own log (service.published s as))
    (hkept : ∀ n e, (service.published s as)[n]? = some e → service.own e.payload = true →
      ¬ t.audit.bus.bus.GivenUp recorder n) :
    (t.audit.log.history.map (·.payload)).filter service.own <+:
        ((service.events t.service).map (·.payload)).filter service.own ∧
      (t.audit.bus.bus.inFlight = [] → (t.audit.log.history.map (·.payload)).filter service.own =
        ((service.events t.service).map (·.payload)).filter service.own) := by
  have hpayloads : ((service.published s as).map (·.payload)).filter service.own =
      ((service.events t.service).map (·.payload)).filter service.own := by
    have hstamped := payload_stamped (stamped_published h hs)
    rw [List.filter_map, List.filter_map]
    exact hstamped
  rw [← hpayloads]
  exact history_follows hlog (haudit ▸ heard_run h) (haudit ▸ logs_heard h hlogs) ho hkept

theorem input_on_record {log : EventLog} {input : Published} (haudit : s.audit = init log)
    (h : run service.recorded s as = some t) (hs : service.events s.service = [])
    (hlogs : Along service.recorded (fun _ => RecordedAction.Logs) s as) (hfresh : Fresh log (service.published s as))
    (hidle : t.audit.bus.bus.inFlight = []) (hinput : input ∈ service.events t.service)
    (hown : service.own input.payload = true) (ha : isAuditedEventType input.type = true) :
    ∃ n event, (service.published s as)[n]? = some event ∧ Stamped event input ∧
      ((∃ record ∈ t.audit.log.records.rows, record = recordOf event record.seq record.recordedAt) ∨
        t.audit.bus.bus.GivenUp recorder n) := by
  obtain ⟨event, hevent, stamp, rfl⟩ := exists_event (stamped_published h hs) (List.mem_filter.mpr ⟨hinput, hown⟩)
  have hmem := (List.mem_filter.mp hevent).1
  obtain ⟨n, hn⟩ := List.mem_iff_getElem?.mp hmem
  refine ⟨n, _, hn, ⟨stamp, rfl⟩, ?_⟩
  have hrun := haudit ▸ heard_run h
  refine (recorded_of_idle hrun (haudit ▸ logs_heard h hlogs) hidle hn ha).imp_left fun hon => ?_
  obtain ⟨record, hrecord⟩ := Option.isSome_iff_exists.mp hon
  exact ⟨record, Table.mem_of_find hrecord, record_of_event hfresh (chronicleInv_run hrun) hmem hrecord⟩

theorem published_append {bs : List (RecordedAction α)} (h : run service.recorded s as = some t) :
    service.published s (as ++ bs) = service.published s as ++ service.published t bs := by
  rw [Service.published, trace_append h, List.filterMap_append]
  rfl

theorem quiet_run (service : Service σ α) {u v : σ} {actions : List α} (h : run service.step u actions = some v)
    (he : service.events v = service.events u) (audit : State) :
    run service.recorded { service := u, audit := audit } (actions.map fun a => .service a []) =
        some { service := v, audit := audit } ∧
      service.published { service := u, audit := audit } (actions.map fun a => .service a []) = [] := by
  induction actions generalizing u with
  | nil =>
      cases h
      exact ⟨rfl, rfl⟩
  | cons a actions ih =>
      obtain ⟨w, hw, hrun⟩ := run_cons.mp h
      obtain ⟨first, hfirst⟩ := service.grows _ _ _ hw
      have hrest : ∃ more, service.events v = service.events w ++ more := by
        refine relates_along (P := fun _ => True) (C := fun _ _ => True)
          (R := fun w v => ∃ more, service.events v = service.events w ++ more) (fun s => ⟨[], (List.append_nil _).symm⟩)
          ?_ (fun s a t _ _ hs => ⟨trivial, service.grows s a t hs⟩) hrun (along_true _ _) trivial
        rintro s t u ⟨more, hmore⟩ ⟨more', hmore'⟩
        exact ⟨more ++ more', by rw [hmore', hmore, List.append_assoc]⟩
      obtain ⟨rest, hrest⟩ := hrest
      have hlength := congrArg List.length he
      rw [hrest, hfirst, List.length_append, List.length_append] at hlength
      have hnone : first = [] := List.eq_nil_of_length_eq_zero (by omega)
      rw [hnone, List.append_nil] at hfirst
      have hstep : service.recorded { service := u, audit := audit } (.service a []) =
          some { service := w, audit := audit } := by
        have hfresh : service.fresh u w = [] := by rw [Service.fresh, hfirst, List.drop_length]
        simp only [Service.recorded, hw, Option.bind_some, hfresh, List.length_nil, if_true]
        rfl
      have hheard : service.heard { service := u, audit := audit } (.service a []) = [] := by
        rw [Service.heard, hw]
        rfl
      obtain ⟨hlater, hsilent⟩ := ih hrun (he.trans hfirst.symm)
      refine ⟨run_cons.mpr ⟨_, hstep, hlater⟩, ?_⟩
      rw [List.map_cons, Service.published, trace_cons hstep, hheard, List.nil_append]
      exact hsilent

end

end EspClawPlatform.Audit
