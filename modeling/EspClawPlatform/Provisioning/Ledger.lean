import EspClawPlatform.Audit.Recorded
import EspClawPlatform.Provisioning.Fleet

namespace EspClawPlatform.Provisioning

open Audit (Recorded RecordedAction Service Serving stampOf)
open Run

variable {config : Config} {s t : Fleet}

def ofPrivileged : Payload → Bool
  | .privilegedExecuted .. => true
  | _ => false

theorem events_step {u v : State} {a : Action} (h : step config u a = some v) :
    ∃ more, v.events = u.events ++ more ∧ ∀ input ∈ more, ∃ request outcome, input = executedEvent request outcome := by
  cases step_shape h with
  | commands _ _ _ hv | refused _ _ _ hv => exact ⟨[], hv.trans (List.append_nil _).symm, fun _ hinput => by cases hinput⟩
  | threw => exact ⟨[], (List.append_nil _).symm, fun _ hinput => by cases hinput⟩
  | @returned id request outcome =>
      refine ⟨[executedEvent request outcome], rfl, fun input hinput => ?_⟩
      exact ⟨request, outcome, List.mem_singleton.mp hinput⟩

theorem platform_step {a : FleetAction} (h : s.step config a = some t) :
    (∃ action, a = .platform action ∧ step config s.platform action = some t.platform ∧
      t.requested = s.record config action) ∨
    ((∀ action, a ≠ .platform action) ∧ t.platform = s.platform ∧ t.requested = s.requested) := by
  cases a with
  | platform action =>
      obtain ⟨p, hp, rfl⟩ := Option.map_eq_some_iff.mp h
      exact .inl ⟨action, rfl, hp, rfl⟩
  | present | reboot =>
      obtain ⟨board, -, rfl⟩ := Option.map_eq_some_iff.mp h
      exact .inr ⟨fun action ha => (by cases ha), rfl, rfl⟩

theorem grows_step {a : FleetAction} (h : s.step config a = some t) :
    ∃ more, t.platform.events = s.platform.events ++ more := by
  rcases platform_step h with ⟨action, -, hp, -⟩ | ⟨-, hp, -⟩
  · obtain ⟨more, hmore, -⟩ := events_step hp
    exact ⟨more, hmore⟩
  · exact ⟨[], by rw [hp, List.append_nil]⟩

def fleetService (config : Config) : Service Fleet FleetAction where
  step := Fleet.step config
  events := fun s => s.platform.events
  own := ofPrivileged
  grows := fun _ _ _ h => grows_step h

/-- The process goes on, and no query of a dispatch fails once its message is published. -/
def Smooth (s : Fleet) : FleetAction → Prop
  | .platform (.commands action) =>
      action.restarts = false ∧ ∀ id, Commands.Undisturbed id s.platform.commands action
  | _ => True

theorem undisturbed_of_smooth {action : Action} {id : String} (h : Smooth s (.platform action)) :
    Undisturbed id s.platform action := by
  cases action with
  | commands action => exact h.2 id
  | execute | resume => trivial

structure Outstanding (s : Fleet) : Prop where
  waiting : ∀ id request, s.platform.waiting.get id = some request → s.requested.get id = some request
  requested : ∀ id request, s.requested.get id = some request →
    s.platform.waiting.get id = some request ∨ ∃ x, s.platform.ended.get id = some x ∧ x.request = request

structure LedgerInv (s : Fleet) : Prop where
  audit : AuditInv s.platform
  kept : ∀ id, ¬ Commands.Lost s.platform.commands id
  calls : Outstanding s
  announced : ∀ input ∈ s.platform.events, ∃ request outcome, input = executedEvent request outcome

theorem ledgerInv_init (connected : Bool) (models : Table (String × FirmwareModel)) :
    LedgerInv (Fleet.init connected models) where
  audit := auditInv_init connected
  kept := fun _ ⟨hp, _⟩ => by cases hp
  calls := ⟨fun _ _ h => (by cases h), fun _ _ h => by cases h⟩
  announced := fun _ h => by cases h

inductive Calls (s : Fleet) : Action → Fleet → Prop
  | same {a : Action} {t : Fleet} (hw : t.platform.waiting = s.platform.waiting)
      (he : t.platform.ended = s.platform.ended) (hr : t.requested = s.requested) : Calls s a t
  | begins {id : String} {request : Request} {t : Fleet}
      (hw : t.platform.waiting = s.platform.waiting.set id request) (he : t.platform.ended = s.platform.ended)
      (hr : t.requested = s.requested.set id request) : Calls s (.execute id request) t
  | ends {id : String} {request : Request} {outcome : Except String Commands.DispatchOutcome} {t : Fleet}
      (hid : s.platform.waiting.get id = some request) (hw : t.platform.waiting = s.platform.waiting.erase id)
      (he : t.platform.ended = s.platform.ended.set id { request := request, outcome := outcome })
      (hr : t.requested = s.requested) : Calls s (.resume id) t

theorem calls_step {a : Action} (h : step config s.platform a = some t.platform)
    (hr : t.requested = s.record config a) (ha : ∀ action, a = .commands action → action.restarts = false) :
    Calls s a t := by
  cases a with
  | commands action =>
      obtain ⟨commands, -, hp⟩ := Option.map_eq_some_iff.mp h
      rw [ha action rfl] at hp
      exact .same (congrArg State.waiting hp).symm (congrArg State.ended hp).symm hr
  | execute id request =>
      rw [Fleet.record, Request.signs] at hr
      simp only [step, State.execute] at h
      split at h
      · rename_i htarget
        have hp := Option.some.inj h
        rw [(Bool.not_eq_true' _).mp htarget, Bool.false_and] at hr
        exact .same (congrArg State.waiting hp).symm (congrArg State.ended hp).symm hr
      · rename_i htarget
        have htarget : isPlatformExecTarget request.capability = true := by simpa using htarget
        split at h
        · rename_i error herror
          have hp := Option.some.inj h
          rw [herror, htarget] at hr
          exact .same (congrArg State.waiting hp).symm (congrArg State.ended hp).symm hr
        · rename_i token htoken
          obtain ⟨commands, -, hp⟩ := Option.map_eq_some_iff.mp h
          rw [htoken, htarget] at hr
          exact .begins (congrArg State.waiting hp).symm (congrArg State.ended hp).symm hr
  | resume id =>
      obtain ⟨request, hid, h⟩ := Option.bind_eq_some_iff.mp h
      obtain ⟨o, -, h⟩ := Option.bind_eq_some_iff.mp h
      cases o with
      | error message | ok outcome =>
          have hp := Option.some.inj h
          exact .ends hid (congrArg State.waiting hp).symm (congrArg State.ended hp).symm hr

theorem outstanding_step {a : Action} (ho : Outstanding s) (h : Calls s a t) : Outstanding t := by
  cases h with
  | same hw he hr =>
      constructor
      · rw [hw, hr]
        exact ho.waiting
      · rw [hw, he, hr]
        exact ho.requested
  | @begins id request _ hw he hr =>
      constructor
      · intro j asked hj
        rw [hw, Table.get_set] at hj
        rw [hr, Table.get_set]
        split at hj
        · rwa [if_pos ‹_›]
        · rw [if_neg ‹_›]
          exact ho.waiting j asked hj
      · intro j asked hj
        rw [hr, Table.get_set] at hj
        rw [hw, he, Table.get_set]
        split at hj
        · rw [if_pos ‹_›]
          exact .inl hj
        · rw [if_neg ‹_›]
          exact ho.requested j asked hj
  | @ends id request outcome _ hid hw he hr =>
      constructor
      · intro j asked hj
        rw [hw, Table.get_erase] at hj
        split at hj
        · cases hj
        · exact hr ▸ ho.waiting j asked hj
      · intro j asked hj
        rw [hr] at hj
        rw [hw, he, Table.get_erase, Table.get_set]
        by_cases hne : j = id
        · subst hne
          rw [if_pos rfl, if_pos rfl]
          obtain rfl := Option.some.inj ((ho.waiting j request hid).symm.trans hj)
          exact .inr ⟨_, rfl, rfl⟩
        · rw [if_neg hne, if_neg hne]
          exact ho.requested j asked hj

theorem ledgerInv_step {a : FleetAction} (hi : LedgerInv s) (hC : Smooth s a) (h : s.step config a = some t) :
    LedgerInv t := by
  rcases platform_step h with ⟨action, rfl, hp, hr⟩ | ⟨-, hp, hr⟩
  · obtain ⟨more, hmore, hannounced⟩ := events_step hp
    have hprocess : ∀ c, action = .commands c → c.restarts = false := by
      rintro c rfl
      exact hC.1
    constructor
    · exact auditInv_step hi.audit hp
    · intro id hlost
      exact ((lost_step hi.audit hp).mp hlost).elim (hi.kept id) fun hne => hne (undisturbed_of_smooth hC)
    · exact outstanding_step hi.calls (calls_step hp hr hprocess)
    · intro input hinput
      rw [hmore] at hinput
      exact (List.mem_append.mp hinput).elim (hi.announced input) (hannounced input)
  · constructor
    · exact hp ▸ hi.audit
    · exact hp ▸ hi.kept
    · exact ⟨hp ▸ hr ▸ hi.calls.waiting, hp ▸ hr ▸ hi.calls.requested⟩
    · exact hp ▸ hi.announced

theorem audited_of_ended {id : String} {x : Ended} (hi : LedgerInv s) (hx : s.platform.ended.get id = some x)
    (hp : s.platform.commands.published id) : Audited s.platform id x.request := by
  cases ho : x.outcome with
  | ok outcome => exact hi.audit.audited id x outcome hx ho
  | error message => exact absurd ⟨hp, message, ho ▸ hi.audit.ended id x hx⟩ (hi.kept id)

/-- Tokens are not forged, payloads are read as written, and the process and its database go on. -/
def Conditions (config : Config) (s : Fleet) (a : FleetAction) : Prop :=
  ReadsBack config a ∧ Unforged config s a ∧ Smooth s a

section Recorded

variable {log : Audit.EventLog} {connected : Bool} {models : Table (String × FirmwareModel)}
  {as : List (RecordedAction FleetAction)} {r : Recorded Fleet} {name : String} {board : Board}

def recordedFleet (connected : Bool) (models : Table (String × FirmwareModel)) (log : Audit.EventLog) : Recorded Fleet where
  service := Fleet.init connected models
  audit := Audit.init log

structure Attests (record : Audit.EventLogRecord) (deviceId id : String) (request : Request) (e : Execution) : Prop where
  eventType : record.eventType = "security.privileged.executed"
  deviceId : record.deviceId = some deviceId
  causationId : record.causationId = some id
  payload : ∃ status, record.payload = .privilegedExecuted id e.grant.capability request.actor status

end Recorded

def FleetAction.harmless : FleetAction → Bool
  | .platform (.commands (.refuse ..)) | .platform (.commands (.restart _)) | .platform (.execute ..) | .present .. => false
  | _ => true

theorem conditions_of_harmless {a : FleetAction} (h : a.harmless = true) :
    Conditions config s a := by
  cases a with
  | platform action =>
      cases action with
      | commands action =>
          cases action with
          | refuse | restart => cases h
          | _ => exact ⟨trivial, trivial, rfl, fun _ => trivial⟩
      | execute => cases h
      | resume => exact ⟨trivial, trivial, trivial⟩
  | present => cases h
  | reboot => exact ⟨trivial, trivial, trivial⟩

def unanswered : List FleetAction :=
  publishing ++ [.platform (.commands (.mqtt (.timer 0))), .platform (.commands (.resume "c1")),
    .platform (.commands (.commit "c1")), .platform (.commands (.resume "c1")), .platform (.commands (.commit "c1")),
    .platform (.commands (.resume "c1"))]

def concluding : List (RecordedAction FleetAction) :=
  unanswered.map (.service · []) ++
    .service (.platform (.resume "c1")) [stampOf "e1"] :: (Audit.recording 0 9).map .audit

theorem concluding_concludes : ∃ u ∈ run (fleetService sampleConfig).recorded
      { service := requestedFleet, audit := Audit.init {} } concluding,
    u.service.platform.commands.published "c1" ∧ u.service.requested.get "c1" = some sampleRequest ∧
      u.service.boards.get "board-1" = some sampleBoard ∧ u.service.platform.waiting.rows = [] ∧
      u.audit.bus.bus.inFlight = [] ∧
      u.audit.bus.bus.links.rows.all (fun d => d.runs.all fun x => x.phase ≠ .failed) = true := by
  decide +kernel

theorem concluding_publishes : ((fleetService sampleConfig).published
    { service := requestedFleet, audit := Audit.init {} } concluding).map (·.eventId) = ["e1"] := by
  decide +kernel

/-- The request, all that follows up to its row in the log, and the token that the device gets late. -/
def recordedRequest : List (RecordedAction FleetAction) :=
  requesting.map (.service · []) ++ concluding ++ [.service presenting []]

end EspClawPlatform.Provisioning
