import EspClawPlatform.Audit.EventLogService
import EspClawPlatform.Devices.Presence
import EspClawPlatform.Twin.History

namespace EspClawPlatform.Consumers

open Run

structure Stores where
  devices : Table Devices.DeviceEntity := .empty
  shadows : Table Twin.DeviceShadow := .empty
  eventLog : Audit.EventLog := {}

def findOrCreate (devices : Table Devices.DeviceEntity) (o : Devices.Observation) :
    Table Devices.DeviceEntity × List Published :=
  if (devices.find o.deviceId).isSome then (devices, [])
  else (Devices.saveCreated devices o.deviceId o.baseTopic, [Devices.registeredEvent o])

def transition (event : DomainEvent Payload) (o : Devices.Observation) (wasOnline : Bool) : List Published :=
  if wasOnline ≠ o.online then [Devices.transitionEvent event o wasOnline] else []

def handlePresenceReported (devices : Table Devices.DeviceEntity) (event : DomainEvent Payload) :
    Table Devices.DeviceEntity × List Published :=
  match Devices.observe event with
  | none => (devices, [])
  | some o =>
      let wasOnline := ((devices.find o.deviceId).map (·.online)).getD false
      let found := findOrCreate devices o
      (Devices.updatePresence found.1 o,
        found.2 ++ transition event o wasOnline)

/-- The rows that `mergeReported` leaves. A new shadow refers to the row of its
device, so there is none for a device that is not registered. -/
def mergeReported (devices : Table Devices.DeviceEntity) (shadows : Table Twin.DeviceShadow) (call : Twin.Call) :
    Table Twin.DeviceShadow :=
  if call.isNoop then shadows
  else
    match shadows.find call.deviceId with
    | some row => shadows.save (call.update row)
    | none =>
        if (devices.find call.deviceId).isSome then
          (shadows.save (Twin.emptyShadow call.deviceId)).save (call.update (Twin.emptyShadow call.deviceId))
        else shadows

inductive Consumer
  | presence | twin | audit
  deriving DecidableEq

def Consumer.handle (s : Stores) (now : Nat) (event : DomainEvent Payload) : Consumer → Stores × List Published
  | .presence =>
      let handled := handlePresenceReported s.devices event
      ({ s with devices := handled.1 }, handled.2)
  | .twin =>
      match Twin.onTelemetryUpdated event with
      | none => (s, [])
      | some call => ({ s with shadows := mergeReported s.devices s.shadows call }, [])
  | .audit => ({ s with eventLog := Audit.recordIfAudited s.eventLog now event }, [])

structure SameRows (s t : Stores) : Prop where
  devices : t.devices = s.devices
  shadows : t.shadows = s.shadows
  eventLog : t.eventLog.records = s.eventLog.records

/-- To handle the event once more leaves the rows as they are, and publishes nothing. -/
def Consumer.Idempotent (consumer : Consumer) (s : Stores) (event : DomainEvent Payload) : Prop :=
  ∀ now later, SameRows (consumer.handle s now event).1
      (consumer.handle (consumer.handle s now event).1 later event).1 ∧
    (consumer.handle (consumer.handle s now event).1 later event).2 = []

variable {s : Stores} {event : DomainEvent Payload}

theorem updatePresence_of_applied {devices : Table Devices.DeviceEntity} {o : Devices.Observation}
    {row : Devices.DeviceEntity} (h : devices.find o.deviceId = some row) (honline : row.online = o.online)
    (hseen : row.lastSeenAt = some o.timestamp) : Devices.updatePresence devices o = devices := by
  rw [Devices.updatePresence, h]
  have hsame : { row with online := o.online, lastSeenAt := some o.timestamp } = row := by
    rw [← honline, ← hseen]
  simp only [hsame]
  exact Table.save_of_mem (Table.mem_of_find h)

theorem findOrCreate_known (devices : Table Devices.DeviceEntity) (o : Devices.Observation) :
    ∃ row, (findOrCreate devices o).1.find o.deviceId = some row := by
  rw [findOrCreate]
  split
  · rename_i h
    exact Option.isSome_iff_exists.mp h
  · exact ⟨_, Table.find_save_self devices _⟩

theorem presence_idempotent (s : Stores) (event : DomainEvent Payload) :
    Consumer.presence.Idempotent s event := by
  intro now later
  cases ho : Devices.observe event with
  | none => simp [Consumer.handle, handlePresenceReported, ho, SameRows.mk]
  | some o =>
      obtain ⟨row, hrow⟩ := findOrCreate_known s.devices o
      have hfind := (Devices.find_updatePresence hrow).trans (if_pos rfl)
      have honce : (Consumer.presence.handle s now event).1 =
          { s with devices := Devices.updatePresence (findOrCreate s.devices o).1 o } := by
        simp only [Consumer.handle, handlePresenceReported, ho]
      have htwice : handlePresenceReported (Devices.updatePresence (findOrCreate s.devices o).1 o) event =
          (Devices.updatePresence (findOrCreate s.devices o).1 o, []) := by
        simp only [handlePresenceReported, ho]
        rw [findOrCreate, hfind]
        simp only [Option.isSome_some, if_true, Option.map_some, Option.getD_some, transition, ne_eq,
          not_true_eq_false, if_false, List.append_nil]
        rw [updatePresence_of_applied hfind rfl rfl]
      rw [honce]
      simp only [Consumer.handle, htwice]
      exact ⟨⟨rfl, rfl, rfl⟩, trivial⟩

theorem audit_idempotent (s : Stores) (event : DomainEvent Payload) : Consumer.audit.Idempotent s event := by
  intro now later
  exact ⟨⟨rfl, rfl, Audit.records_of_recorded Audit.find_recorded later⟩, rfl⟩

section Alone

variable {d e : Devices.State} {x : Devices.Execution} {o : Devices.Observation} {f g : Devices.Frame}

theorem find_goto (d : Devices.State) (x : Devices.Execution) (f : Devices.Frame) :
    (d.goto x f).executions.find (x.link, x.target) = some { x with frame := f } :=
  Table.find_save_self d.executions { x with frame := f }

theorem goto_goto (d : Devices.State) (x : Devices.Execution) (f g : Devices.Frame) :
    (d.goto x f).goto { x with frame := f } g = d.goto x g := by
  have hsave : (d.executions.save { x with frame := f }).save { x with frame := g } =
      d.executions.save { x with frame := g } := Table.save_save d.executions rfl
  simp only [Devices.State.goto, hsave]

theorem goto_self (hx : d.executions.find (x.link, x.target) = some x) (hf : x.frame = f) : d.goto x f = d := by
  have hsave : d.executions.save { x with frame := f } = d.executions := by
    subst hf
    exact Table.save_of_mem (Table.mem_of_find hx)
  rw [Devices.State.goto, hsave]

theorem commit_goto
    (h : (d.goto x f).commit { x with frame := f } = some ((e.goto x f).goto { x with frame := f } g)) :
    Devices.step (d.goto x f) (.commit x.link x.target) = some (e.goto x g) := by
  rw [Devices.step, find_goto, Option.bind_some, h, goto_goto]

theorem resume_goto {draw : Devices.Draw}
    (h : (d.goto x f).resume { x with frame := f } draw = some ((e.goto x f).goto { x with frame := f } g)) :
    Devices.step (d.goto x f) (.resume x.link x.target draw) = some (e.goto x g) := by
  rw [Devices.step, find_goto, Option.bind_some, h, goto_goto]

def round (x : Devices.Execution) (draw : Devices.Draw) : List Devices.Action :=
  [.commit x.link x.target, .resume x.link x.target draw]

theorem run_round {draw : Devices.Draw} {u : Devices.State} {m : Devices.Frame}
    (hc : (d.goto x f).commit { x with frame := f } = some ((u.goto x f).goto { x with frame := f } m))
    (hr : (u.goto x m).resume { x with frame := m } draw = some ((e.goto x m).goto { x with frame := m } g)) :
    run Devices.step (d.goto x f) (round x draw) = some (e.goto x g) :=
  run_cons.mpr ⟨u.goto x m, commit_goto hc, run_singleton.mpr (resume_goto hr)⟩

theorem run_finding (draw : Devices.Draw) (ho : Devices.observe x.event = some o) :
    run Devices.step (d.goto x .findingBefore) (round x draw) =
      some (d.goto x (.finding (d.devices.find o.deviceId))) := by
  apply run_round (u := d) (m := .foundBefore (d.devices.find o.deviceId))
  · simp only [Devices.State.commit, ho]
    rfl
  · simp only [Devices.State.resume, ho]
    rfl

theorem run_locating {before : Option Devices.DeviceEntity} (draw : Devices.Draw)
    (ho : Devices.observe x.event = some o) :
    run Devices.step (d.goto x (.finding before)) (round x draw) =
      some (d.goto x (if (d.devices.find o.deviceId).isSome then .updating before else .saving before)) := by
  apply run_round (u := d) (m := .found before (d.devices.find o.deviceId))
  · simp only [Devices.State.commit, ho]
    rfl
  · simp only [Devices.State.resume, ho]
    rfl

theorem run_saving {before : Option Devices.DeviceEntity} (draw : Devices.Draw)
    (ho : Devices.observe x.event = some o) :
    run Devices.step (d.goto x (.saving before)) (round x draw) =
      some (({ d with devices := Devices.saveCreated d.devices o.deviceId o.baseTopic }.publish draw
        (Devices.registeredEvent o)).goto x (.updating before)) := by
  apply run_round (u := { d with devices := Devices.saveCreated d.devices o.deviceId o.baseTopic })
    (m := .saved before)
  · simp only [Devices.State.commit, ho]
    rfl
  · simp only [Devices.State.resume, ho]
    rfl

theorem run_updating {before : Option Devices.DeviceEntity} (draw : Devices.Draw)
    (ho : Devices.observe x.event = some o) :
    run Devices.step (d.goto x (.updating before)) (round x draw) =
      some (((transition x.event o ((before.map (·.online)).getD false)).foldl (Devices.State.publish · draw)
        { d with devices := Devices.updatePresence d.devices o }).goto x (.returned none)) := by
  apply run_round (u := { d with devices := Devices.updatePresence d.devices o }) (m := .updated before)
  · simp only [Devices.State.commit, ho]
    rfl
  · simp only [Devices.State.resume, ho]
    rw [transition]
    split
    · rename_i h
      simp only [Option.bind_eq_bind, Option.bind_some, if_pos h]
      rfl
    · rename_i h
      simp only [Option.bind_eq_bind, Option.bind_some, if_neg h]
      rfl

theorem bus_publish (draw : Devices.Draw) (events : List Published) {d e : Devices.State} (h : d.bus = e.bus) :
    (events.foldl (Devices.State.publish · draw) d).bus = (events.foldl (Devices.State.publish · draw) e).bus := by
  induction events generalizing d e with
  | nil => exact h
  | cons event events ih => exact ih (congrArg (fun bus : Bus.State Payload => bus.publish _) h)

/-- A call of the handler that nothing comes between takes its queries and
their answers in turn, and leaves what `handlePresenceReported` leaves. -/
theorem presence_alone (draw : Devices.Draw) (hx : d.executions.find (x.link, x.target) = some x)
    (hf : x.frame = Devices.begin x.event) :
    ∃ (as : List Devices.Action) (t : Devices.State), run Devices.step d as = some (t.goto x (.returned none)) ∧
      t.devices = (handlePresenceReported d.devices x.event).1 ∧
        t.bus = ((handlePresenceReported d.devices x.event).2.foldl (Devices.State.publish · draw) d).bus := by
  rw [Devices.begin] at hf
  cases ho : Devices.observe x.event with
  | none =>
      rw [ho] at hf
      refine ⟨[], d, ?_, ?_, ?_⟩
      · exact congrArg some (goto_self hx hf).symm
      · rw [handlePresenceReported, ho]
      · rw [handlePresenceReported, ho]
        rfl
  | some o =>
      rw [ho] at hf
      have hstart : d.goto x .findingBefore = d := goto_self hx hf
      have hlocated := run_append.mpr ⟨_, run_finding (d := d) draw ho, run_locating (d := d) draw ho⟩
      rw [hstart] at hlocated
      simp only [handlePresenceReported, ho, findOrCreate]
      cases hrow : (d.devices.find o.deviceId).isSome with
      | true =>
          rw [hrow, if_pos rfl] at hlocated
          refine ⟨_, _, run_append.mpr ⟨_, hlocated, run_updating draw ho⟩, ?_, ?_⟩
          · exact Devices.devices_publish _ _ _
          · exact bus_publish _ _ rfl
      | false =>
          rw [hrow, if_neg Bool.false_ne_true] at hlocated
          refine ⟨_, _, run_append.mpr ⟨_, hlocated, run_append.mpr ⟨_, run_saving draw ho,
            run_updating draw ho⟩⟩, ?_, ?_⟩
          · exact Devices.devices_publish _ _ _
          · rw [if_neg Bool.false_ne_true, List.singleton_append, List.foldl_cons]
            exact bus_publish _ _ rfl

end Alone

/-- The event brings samples of a device that has a shadow or can be given one. -/
def Merges (s : Stores) (event : DomainEvent Payload) : Prop :=
  ∃ call, Twin.onTelemetryUpdated event = some call ∧ call.isNoop = false ∧
    ((s.shadows.find call.deviceId).isSome = true ∨ (s.devices.find call.deviceId).isSome = true)

theorem onTelemetryUpdated_merges {call : Twin.Call} (h : Twin.onTelemetryUpdated event = some call) :
    ∃ deviceId samples, call = .mergeReported deviceId samples := by
  rw [Twin.onTelemetryUpdated] at h
  split at h
  · split at h
    · cases h
    · exact ⟨_, _, (Option.some.inj h).symm⟩
  · cases h

theorem mergeReported_save {devices : Table Devices.DeviceEntity} {shadows : Table Twin.DeviceShadow}
    {call : Twin.Call} (hn : call.isNoop = false)
    (h : (shadows.find call.deviceId).isSome = true ∨ (devices.find call.deviceId).isSome = true) :
    mergeReported devices shadows call =
      shadows.save (call.update ((shadows.find call.deviceId).getD (Twin.emptyShadow call.deviceId))) := by
  rw [mergeReported, if_neg (by rw [hn]; exact Bool.false_ne_true)]
  cases hf : shadows.find call.deviceId with
  | some row => rfl
  | none =>
      rw [hf] at h
      simp only [if_pos (h.resolve_left Bool.false_ne_true), Option.getD_none]
      exact Table.save_save shadows (Twin.deviceId_update call _).symm

theorem merge_alone {devices : Table Devices.DeviceEntity} {shadows : Table Twin.DeviceShadow}
    {call : Twin.Call} (hn : call.isNoop = false)
    (h : (shadows.find call.deviceId).isSome = true ∨ (devices.find call.deviceId).isSome = true) :
    ∃ (as : List Twin.Action) (t : Twin.State), run Twin.step (Twin.init shadows) as = some t ∧
      t.shadows = mergeReported devices shadows call ∧ t.frames = .empty := by
  have hidle : (Twin.init shadows).frames = .empty := rfl
  obtain ⟨as, t, hrun, ht⟩ := Twin.run_alone hidle hn
  have hrows : (Twin.update some shadows call).1 = mergeReported devices shadows call :=
    (congrArg Prod.fst (Twin.update_some shadows call)).trans (mergeReported_save hn h).symm
  exact ⟨as, t, hrun, ht.shadows.trans hrows, ht.idle⟩

theorem mergeReported_same {devices : Table Devices.DeviceEntity} {shadows : Table Twin.DeviceShadow}
    {call : Twin.Call} (h : call.isNoop = false →
      ¬ ((shadows.find call.deviceId).isSome = true ∨ (devices.find call.deviceId).isSome = true)) :
    mergeReported devices shadows call = shadows := by
  rw [mergeReported]
  split
  · rfl
  · rename_i hn
    have hnone := h (Bool.not_eq_true _ ▸ hn)
    simp only [not_or, Option.not_isSome_iff_eq_none] at hnone
    simp only [hnone.1, hnone.2, Option.isSome_none, Bool.false_eq_true, if_false]

/-- The twin counts a report, so a report that it merges is counted again. -/
theorem twin_idempotent_iff (s : Stores) (event : DomainEvent Payload) :
    Consumer.twin.Idempotent s event ↔ ¬ Merges s event := by
  constructor
  · rintro hidempotent ⟨call, hcall, hn, hstored⟩
    have hrows := (hidempotent 0 0).1.shadows
    simp only [Consumer.handle, hcall] at hrows
    rw [mergeReported_save hn hstored] at hrows
    have hid : ((s.shadows.find call.deviceId).getD (Twin.emptyShadow call.deviceId)).deviceId = call.deviceId := by
      cases hf : s.shadows.find call.deviceId with
      | none => rfl
      | some row => exact Table.key_of_find hf
    generalize (s.shadows.find call.deviceId).getD (Twin.emptyShadow call.deviceId) = row at hrows hid
    have hfind {shadows : Table Twin.DeviceShadow} {row : Twin.DeviceShadow} (hid : row.deviceId = call.deviceId) :
        (shadows.save (call.update row)).find call.deviceId = some (call.update row) := by
      rw [Table.find_save]
      exact if_pos (hid.symm.trans (Twin.deviceId_update call row).symm)
    have hid' : (call.update row).deviceId = call.deviceId := (Twin.deviceId_update call row).trans hid
    rw [mergeReported_save hn (.inl (by rw [hfind hid]; rfl)), hfind hid, Option.getD_some] at hrows
    have htwice := congrArg (Table.find · call.deviceId) hrows
    simp only [hfind hid, hfind hid', Option.some.injEq] at htwice
    obtain ⟨deviceId, samples, rfl⟩ := onTelemetryUpdated_merges hcall
    exact Nat.succ_ne_self _ (congrArg Twin.DeviceShadow.reportedVersion htwice)
  · intro hnot now later
    cases hcall : Twin.onTelemetryUpdated event with
    | none =>
        simp only [Consumer.handle, hcall]
        exact ⟨⟨rfl, rfl, rfl⟩, trivial⟩
    | some call =>
        have hsame : mergeReported s.devices s.shadows call = s.shadows :=
          mergeReported_same fun hn hstored => hnot ⟨call, hcall, hn, hstored⟩
        simp only [Consumer.handle, hcall, hsame]
        exact ⟨⟨rfl, rfl, rfl⟩, trivial⟩

/-- To handle an event once more leaves the stores as they are, at every
consumer, exactly when there is nothing in it for the twin to merge. -/
theorem redelivery_is_harmless_iff (s : Stores) (event : DomainEvent Payload) :
    (∀ consumer : Consumer, consumer.Idempotent s event) ↔ ¬ Merges s event := by
  constructor
  · intro h
    exact (twin_idempotent_iff s event).mp (h .twin)
  · intro h consumer
    cases consumer with
    | presence => exact presence_idempotent s event
    | twin => exact (twin_idempotent_iff s event).mpr h
    | audit => exact audit_idempotent s event

def registered : Stores where
  devices := Table.empty.save
    { id := "ecda3b4ff7d4", baseTopic := "espclaw", online := true, lastSeenAt := some 1 }

def rssi : DomainEvent Payload :=
  createEvent none "e1" "c1" 2
    { announce "module:telemetry" (.telemetryUpdated "network_status" 1
        [{ metric := "rssi", value := .num (.finite (-52)) }]) with deviceId := some "ecda3b4ff7d4" }

theorem redelivered_report_counts_twice :
    ¬ ∀ (consumer : Consumer) (s : Stores) (event : DomainEvent Payload), consumer.Idempotent s event := by
  intro h
  have hmerges : Merges registered rssi := ⟨_, rfl, rfl, .inr rfl⟩
  exact (twin_idempotent_iff registered rssi).mp (h .twin registered rssi) hmerges

end EspClawPlatform.Consumers
