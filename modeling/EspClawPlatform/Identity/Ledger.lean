import EspClawPlatform.Audit.Recorded
import EspClawPlatform.Identity.AuditTrail

namespace EspClawPlatform.Identity

open Audit (Recorded RecordedAction Service Serving stampOf)
open Run

variable {host : Host} {s t : State}

theorem events_step {a : Action} (h : step host s a = some t) :
    ∃ payloads : List Payload, t.events = s.events ++ payloads.map (announce "module:identity") := by
  cases step_shape h with
  | tick ms ht =>
      subst ht
      exact ⟨[], (List.append_nil _).symm⟩
  | call request ht =>
      subst ht
      exact ⟨_, rfl⟩
  | resume call fresh f e hf he ht | reject call f e hf he ht =>
      subst ht
      exact ⟨_, rfl⟩

def accountService (host : Host) : Service State Action where
  step := step host
  events := State.events
  own := ofAccount
  grows := fun _ _ _ h => (events_step h).elim fun _ hevents => ⟨_, hevents⟩

def Announced (s : State) : Prop := ∀ input ∈ s.events, input = announce "module:identity" input.payload

theorem announced_step {a : Action} (hs : Announced s) (h : step host s a = some t) : Announced t := by
  obtain ⟨payloads, hevents⟩ := events_step h
  intro input hinput
  rw [hevents] at hinput
  rcases List.mem_append.mp hinput with hinput | hinput
  · exact hs input hinput
  · obtain ⟨payload, -, rfl⟩ := List.mem_map.mp hinput
    rfl

def accounts (users : Table User) : Accounts := fun id => (users.find id).map User.account

theorem recorded_filter (log : List Payload) : recorded (log.filter ofAccount) = recorded log := by
  apply Journal.foldl_filter
  intro e he accounts
  cases e with
  | userCreated | userUpdated => cases he
  | _ => rfl

theorem due_le (o : Option (Nat × Frame)) : due o ≤ 1 := by
  cases o with
  | none => exact Nat.zero_le 1
  | some x =>
      obtain ⟨call, f⟩ := x
      cases f with
      | updateSaved user changes actor =>
          rw [due, Option.elim_some, Frame.owes, Frame.rest]
          split
          · exact Nat.zero_le 1
          · exact Nat.le_refl 1
      | applySaved | sign => exact Nat.zero_le 1
      | _ => exact Nat.le_refl 1

theorem told_step {o : Option (Nat × Frame)} {a : Action} {told : List Payload} (hi : Audited s o) (hC : InTurn s a)
    (h : step host s a = some t) (htold : told <+: t.log.filter ofAccount) :
    told <+: s.log.filter ofAccount ∨ recorded told = accounts t.users := by
  obtain ⟨o', events, hi', hlog, hdue⟩ := audited_step hi hC h
  have hone : tally events + due o' ≤ 1 := by
    refine Nat.le_trans hdue ?_
    cases a with
    | call request =>
        obtain rfl : o = none := Option.toList_eq_nil_iff.mp (hi.frames.symm.trans hC)
        exact Nat.le_refl 1
    | _ => exact due_le o
  rw [hlog, List.filter_append] at htold
  rw [tally, List.countP_eq_length_filter] at hone
  cases hevents : events.filter ofAccount with
  | nil =>
      rw [hevents, List.append_nil] at htold
      exact .inl htold
  | cons e rest =>
      rw [hevents, List.length_cons] at hone
      obtain rfl : rest = [] := List.eq_nil_of_length_eq_zero (by omega)
      rw [hevents] at htold
      refine (List.prefix_concat_iff.mp htold).symm.imp id fun hall => ?_
      -- nothing is owed once the event is out
      have hnone : recorded (t.log ++ o'.elim [] fun x => x.2.owes) = recorded t.log := by
        rw [recorded_append]
        apply foldl_of_tally
        cases o' with
        | none => rfl
        | some x =>
            have hle : tally x.2.owes ≤ due (some x) := Nat.le_add_right _ _
            rw [Option.elim_some]
            omega
      rw [hall, ← hevents, ← List.filter_append, ← hlog, recorded_filter, ← hnone]
      exact funext hi'.tells.accounts

section Recorded

variable {log : Audit.EventLog} {tokens : List JwtPayload} {as : List (RecordedAction Action)} {r : Recorded State}

def recordedBoot (log : Audit.EventLog) (tokens : List JwtPayload) : Recorded State where
  service := State.boot .empty tokens
  audit := Audit.init log

theorem audited_served (h : run (accountService host).recorded (recordedBoot log tokens) as = some r)
    (hC : Along (accountService host).recorded (Serving InTurn) (recordedBoot log tokens) as) :
    ∃ o, Audited r.service o :=
  audited_run (Audit.served_run h) ((Audit.along_served h).mp hC)

theorem told_run {told : List Payload} (h : run (accountService host).recorded (recordedBoot log tokens) as = some r)
    (hC : Along (accountService host).recorded (Serving InTurn) (recordedBoot log tokens) as)
    (htold : told <+: r.service.log.filter ofAccount) :
    ∃ pre post u, as = pre ++ post ∧ run (accountService host).recorded (recordedBoot log tokens) pre = some u ∧
      recorded told = accounts u.service.users := by
  induction as using List.reverseRecOn generalizing r with
  | nil =>
      cases h
      obtain rfl := List.prefix_nil.mp htold
      exact ⟨[], [], _, rfl, rfl, rfl⟩
  | append_singleton as a ih =>
      obtain ⟨v, hv, hstep⟩ := run_append.mp h
      obtain ⟨hCv, hCa⟩ := (along_append hv).mp hC
      have hlater (hshort : told <+: v.service.log.filter ofAccount) :
          ∃ pre post u, as ++ [a] = pre ++ post ∧
            run (accountService host).recorded (recordedBoot log tokens) pre = some u ∧
              recorded told = accounts u.service.users := by
        obtain ⟨pre, post, u, rfl, hu, hsame⟩ := ih hv hCv hshort
        exact ⟨pre, post ++ [a], u, List.append_assoc .., hu, hsame⟩
      have hserved := Audit.served_step (run_singleton.mp hstep)
      cases a with
      | service action stamps =>
          obtain ⟨o, hi⟩ := audited_served hv hCv
          rcases told_step hi hCa.1 (run_singleton.mp hserved) htold with hshort | hsame
          · exact hlater hshort
          · exact ⟨as ++ [.service action stamps], [], r, (List.append_nil _).symm, h, hsame⟩
      | audit action =>
          have hsame : v.service = r.service := Option.some.inj hserved
          exact hlater (hsame ▸ htold)

theorem announced_run (h : run (accountService host).recorded (recordedBoot log tokens) as = some r) :
    Announced r.service :=
  invariant (fun _ _ _ hi hs => announced_step hi hs) (Audit.served_run h) (show Announced (State.boot _ _) from
    fun _ hinput => by cases hinput)

theorem isAudited_of_ofAccount {payload : Payload} (h : ofAccount payload = true) :
    Audit.isAuditedEventType payload.eventType = true := by
  cases payload with
  | userCreated | userUpdated =>
      rw [Payload.eventType]
      decide
  | _ => cases h

/-- Where calls do not overlap and no event of an account is given up, the event
log adds up, at every moment of a run, to accounts that were stored at this
moment or an earlier one, and once no call is under way and the bus has
delivered everything, to the accounts that are stored. -/
theorem event_log_reconstructs_accounts (hlog : Audit.Sequenced log)
    (hclean : ∀ record ∈ log.records.rows, ofAccount record.payload = false)
    (h : run (accountService host).recorded (recordedBoot log tokens) as = some r)
    (hC : Along (accountService host).recorded (Serving InTurn) (recordedBoot log tokens) as)
    (hlogs : Along (accountService host).recorded (fun _ => RecordedAction.Logs) (recordedBoot log tokens) as)
    (hfresh : Audit.Fresh log ((accountService host).published (recordedBoot log tokens) as))
    (hkept : ∀ n event, ((accountService host).published (recordedBoot log tokens) as)[n]? = some event →
      ofAccount event.payload = true → ¬ r.audit.bus.bus.GivenUp Audit.recorder n) :
    (∃ pre post u, as = pre ++ post ∧ run (accountService host).recorded (recordedBoot log tokens) pre = some u ∧
      ∀ id, recorded (r.audit.log.history.map (·.payload)) id = (u.service.users.find id).map User.account) ∧
    (r.service.frames.rows = [] → r.audit.bus.bus.inFlight = [] →
      ∀ id, recorded (r.audit.log.history.map (·.payload)) id = (r.service.users.find id).map User.account) := by
  have hlane : Audit.OneLane ofAccount log ((accountService host).published (recordedBoot log tokens) as) := by
    refine Audit.oneLane_published none h rfl (fun input hinput hown => ?_) hfresh hclean
    rw [announced_run h input hinput]
    exact ⟨rfl, isAudited_of_ofAccount hown⟩
  obtain ⟨hstart, hall⟩ := Audit.history_of_service hlog rfl h rfl hlogs hlane hkept
  refine ⟨?_, fun hidle hdone id => ?_⟩
  · obtain ⟨pre, post, u, has, hu, hsame⟩ := told_run h hC hstart
    refine ⟨pre, post, u, has, hu, fun id => ?_⟩
    rw [← recorded_filter]
    exact congrFun hsame id
  · obtain ⟨o, hi⟩ := audited_served h hC
    have htold : recorded ((r.audit.log.history.map (·.payload)).filter ofAccount) =
        recorded (r.service.log.filter ofAccount) := congrArg recorded (hall hdone)
    rw [← recorded_filter, htold, recorded_filter]
    exact (tells_idle hi hidle).accounts id

def registering : List (RecordedAction Action) :=
  [.service (.call (.register "a@x" "pw-a" none)) [], .service (.resume 0 "s0") [], .service (.resume 0 "") [],
    .service (.resume 0 "") [], .service (.resume 0 "id-a") [], .service (.resume 0 "") [stampOf "e1"]] ++
    (Audit.recording 0 9).map .audit ++ [.service (.resume 0 "") []]

theorem registered_admin_is_in_the_log : ∃ r : Recorded State,
    run (accountService plainHost).recorded (recordedBoot {} []) registering = some r ∧
      recorded (r.audit.log.history.map (·.payload)) "id-a" = (r.service.users.find "id-a").map User.account := by
  have hrun : ∃ r : Recorded State, run (accountService plainHost).recorded (recordedBoot {} []) registering = some r ∧
      r.service.frames.rows = [] ∧ r.audit.bus.bus.inFlight = [] ∧
      r.audit.bus.bus.links.rows.all (fun d => d.runs.all fun x => x.phase ≠ .failed) = true := ⟨_, rfl, rfl, rfl, rfl⟩
  obtain ⟨r, hr, hidle, hdone, hall⟩ := hrun
  have hlog : Audit.Sequenced {} := ⟨List.nodup_nil, fun id record hrecord => by cases hrecord⟩
  have hC : Along (accountService plainHost).recorded (Serving InTurn) (recordedBoot {} []) registering := by
    decide +kernel
  have hlogs : Along (accountService plainHost).recorded (fun _ => RecordedAction.Logs) (recordedBoot {} [])
      registering := by decide +kernel
  have hkept : ∀ n event, ((accountService plainHost).published (recordedBoot {} []) registering)[n]? = some event →
      ofAccount event.payload = true → ¬ r.audit.bus.bus.GivenUp Audit.recorder n :=
    fun n _ _ _ => Bus.not_givenUp hall n
  have hfresh : Audit.Fresh {} ((accountService plainHost).published (recordedBoot {} []) registering) :=
    ⟨by decide +kernel, fun event hevent => rfl⟩
  have hreconstructs := event_log_reconstructs_accounts hlog (fun record hrecord => by cases hrecord) hr hC hlogs hfresh
    hkept
  exact ⟨r, hr, hreconstructs.2 hidle hdone "id-a"⟩

end Recorded

end EspClawPlatform.Identity
