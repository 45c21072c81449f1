import EspClawPlatform.Commands.Outcomes
import EspClawPlatform.Provisioning.PrivilegedCommandsService

namespace EspClawPlatform.Provisioning

open Run
open Commands (DispatchOutcome Lost OutcomeInv)

variable {config : Config} {s t : State} {id : String}

def Audited (s : State) (id : String) (request : Request) : Prop :=
  ∃ e ∈ s.events, e.deviceId = some request.deviceId ∧
    ∃ status, e.payload = .privilegedExecuted id request.capability request.actor status

/-- No query of the dispatch fails once its message is published. -/
def Undisturbed (id : String) (s : State) : Action → Prop
  | .commands action => Commands.Undisturbed id s.commands action
  | _ => True

instance (id : String) : ∀ s a, Decidable (Undisturbed id s a)
  | s, .commands action => inferInstanceAs (Decidable (Commands.Undisturbed id s.commands action))
  | _, .execute .. | _, .resume _ => inferInstanceAs (Decidable True)

def Action.quiet : Action → Bool
  | .commands (.refuse ..) => false
  | _ => true

theorem undisturbed_of_quiet {a : Action} (h : a.quiet) : Undisturbed id s a := by
  cases a with
  | commands action =>
      cases action with
      | refuse => cases h
      | _ => trivial
  | execute | resume => trivial

/-- A call ends as its dispatch did, and has been audited if that returned; only
then is there an event. -/
structure AuditInv (s : State) : Prop where
  outcomes : OutcomeInv s.commands
  ended : ∀ id x, s.ended.get id = some x → s.commands.outcomes.get id = some x.outcome
  audited : ∀ id x outcome, s.ended.get id = some x → x.outcome = .ok outcome → Audited s id x.request
  returned : ∀ id request, Audited s id request → ∃ outcome, s.commands.outcomes.get id = some (.ok outcome)

inductive Shape (config : Config) (s : State) : Action → State → Prop
  | commands {a : Action} {action : Commands.Action} {t : State}
      (ha : ∀ id, Commands.Undisturbed id s.commands action ↔ Undisturbed id s a)
      (h : Commands.step config.mqtt s.commands action = some t.commands) (he : t.ended = s.ended)
      (hv : t.events = s.events) : Shape config s a t
  | refused {a : Action} {t : State} (ha : ∀ id, Undisturbed id s a) (hc : t.commands = s.commands)
      (he : t.ended = s.ended) (hv : t.events = s.events) : Shape config s a t
  | threw {id message : String} {request : Request}
      (ho : s.commands.outcomes.get id = some (.error message)) :
      Shape config s (.resume id) (s.finish id request (.error message))
  | returned {id : String} {request : Request} {outcome : DispatchOutcome}
      (ho : s.commands.outcomes.get id = some (.ok outcome)) :
      Shape config s (.resume id)
        ({ s with events := s.events ++ [executedEvent request outcome] }.finish id request (.ok outcome))

theorem execute_shape {request : Request} (h : s.execute config id request = some t) :
    Shape config s (.execute id request) t := by
  have hrefused (e : Refusal) : Shape config s (.execute id request) { s with refused := s.refused ++ [e] } :=
    .refused (fun _ => trivial) rfl rfl rfl
  rw [State.execute] at h
  split at h
  · cases h
    exact hrefused _
  · split at h
    · cases h
      exact hrefused _
    · obtain ⟨commands, hd, rfl⟩ := Option.map_eq_some_iff.mp h
      have hstep : Commands.step config.mqtt s.commands (.dispatch id (request.call _)) = some commands := hd
      exact .commands (fun _ => Iff.rfl) hstep rfl rfl

def State.dispatched (s : State) (id token : String) (request : Request) : State :=
  { s with
    commands := { s.commands with drawn := id :: s.commands.drawn }.goto id (.finding (request.call token))
    waiting := s.waiting.set id request }

theorem execute_eq {id token : String} {request : Request} (htarget : isPlatformExecTarget request.capability)
    (h : prepare config request = .ok token) (hd : id ∉ s.commands.drawn) :
    step config s (.execute id request) = some (s.dispatched id token request) := by
  change s.execute config id request = _
  rw [State.execute, htarget, h]
  simp only [Bool.not_true, Bool.false_eq_true, if_false]
  rw [Commands.State.dispatch, if_neg hd]
  rfl

theorem step_shape {a : Action} (h : step config s a = some t) : Shape config s a t := by
  cases a with
  | commands action =>
      obtain ⟨commands, hc, rfl⟩ := Option.map_eq_some_iff.mp h
      exact .commands (fun _ => Iff.rfl) hc rfl rfl
  | execute id request => exact execute_shape h
  | resume id =>
      obtain ⟨request, hw, h⟩ := Option.bind_eq_some_iff.mp h
      obtain ⟨o, ho, h⟩ := Option.bind_eq_some_iff.mp h
      cases o with
      | error message => cases h; exact .threw ho
      | ok outcome => cases h; exact .returned ho

theorem auditInv_init (connected : Bool) : AuditInv (init connected) where
  outcomes := Commands.outcomeInv_init connected
  ended := fun _ _ h => by cases h
  audited := fun _ _ _ h => by cases h
  returned := fun _ _ ⟨_, he, _⟩ => by cases he

theorem get_ended_finish {j : String} {request : Request} {o : Except String DispatchOutcome} :
    (s.finish j request o).ended.get id =
      if id = j then some { request := request, outcome := o } else s.ended.get id :=
  Table.get_set _ _ _ _

theorem outcome_ended {ended : Table (String × Ended)}
    {outcomes : Table (String × Except String DispatchOutcome)}
    {j : String} {y : Ended} (hi : ∀ id x, ended.get id = some x → outcomes.get id = some x.outcome)
    (ho : outcomes.get j = some y.outcome) (id : String) (x : Ended) (hx : (ended.set j y).get id = some x) :
    outcomes.get id = some x.outcome := by
  rw [Table.get_set] at hx
  split at hx
  · rename_i hj
    cases hx
    exact hj ▸ ho
  · exact hi id x hx

theorem auditInv_step {a : Action} (hi : AuditInv s) (h : step config s a = some t) : AuditInv t := by
  cases step_shape h with
  | commands ha hc he hv =>
      have hkept {id : String} {o : Except String DispatchOutcome}
        (ho : s.commands.outcomes.get id = some o) :
          t.commands.outcomes.get id = some o := (Commands.outcome_kept hi.outcomes hc ho).1
      refine ⟨Commands.outcomeInv_step hi.outcomes hc, ?_, ?_, ?_⟩
      · intro id x hx
        exact hkept (hi.ended id x (he ▸ hx))
      · intro id x outcome hx ho
        rw [Audited, hv]
        exact hi.audited id x outcome (he ▸ hx) ho
      · intro id request haud
        rw [Audited, hv] at haud
        obtain ⟨outcome, ho⟩ := hi.returned id request haud
        exact ⟨outcome, hkept ho⟩
  | refused _ hc he hv =>
      refine ⟨hc ▸ hi.outcomes, ?_, ?_, ?_⟩
      · rw [he, hc]; exact hi.ended
      · intro id x outcome hx ho
        rw [Audited, hv]
        exact hi.audited id x outcome (he ▸ hx) ho
      · intro id request haud
        rw [Audited, hv] at haud
        rw [hc]
        exact hi.returned id request haud
  | @threw j message request ho =>
      refine ⟨hi.outcomes, outcome_ended hi.ended ho, ?_, hi.returned⟩
      · intro id x outcome hx hok
        rw [get_ended_finish] at hx
        split at hx
        · cases hx
          cases hok
        · exact hi.audited id x outcome hx hok
  | @returned j request outcome ho =>
      have hid : outcome.command.id = j := hi.outcomes.named j outcome ho
      refine ⟨hi.outcomes, outcome_ended hi.ended ho, ?_, ?_⟩
      · intro id x outcome' hx hok
        rw [get_ended_finish] at hx
        split at hx
        · rename_i hj
          cases hx
          refine ⟨executedEvent request outcome, List.mem_append_right _ (List.mem_singleton_self _), rfl,
            outcome.command.status, ?_⟩
          rw [hj, ← hid]
          rfl
        · obtain ⟨e, he, hrest⟩ := hi.audited id x outcome' hx hok
          exact ⟨e, List.mem_append_left _ he, hrest⟩
      · rintro id request' ⟨e, he, hdev, status, hp⟩
        rcases List.mem_append.mp he with he | he
        · exact hi.returned id request' ⟨e, he, hdev, status, hp⟩
        · obtain rfl := List.mem_singleton.mp he
          obtain rfl : outcome.command.id = id := by injection hp
          exact ⟨outcome, hid ▸ ho⟩

theorem lost_step {a : Action} (hi : AuditInv s) (h : step config s a = some t) :
    Lost t.commands id ↔ Lost s.commands id ∨ ¬ Undisturbed id s a := by
  cases step_shape h with
  | commands ha hc => rw [← ha id]; exact Commands.lost_step hi.outcomes hc
  | refused ha hc => rw [hc, or_iff_left (not_not.mpr (ha id))]
  | threw => exact (or_iff_left (not_not.mpr trivial)).symm
  | returned => exact (or_iff_left (not_not.mpr trivial)).symm

/-- A call of `execute` that has ended is audited, provided that its message was
published, exactly when no write of its command failed after that. -/
theorem audited_iff_undisturbed {connected : Bool} {as : List Action} {x : Ended}
    (h : run (step config) (init connected) as = some s) (hx : s.ended.get id = some x) :
    (s.commands.published id → Audited s id x.request) ↔
      Along (step config) (Undisturbed id) (init connected) as := by
  have hi : AuditInv s := invariant (fun _ _ _ hi hs => auditInv_step hi hs) h (auditInv_init connected)
  have hlost := flaw_iff (B := fun s => Lost s.commands id) (fun _ _ _ hi hs => auditInv_step hi hs)
    (fun _ _ _ hi hs => lost_step hi hs) h (auditInv_init connected)
  have hinit : ¬ Lost (init connected).commands id := fun ⟨hp, _⟩ => by cases hp
  rw [or_iff_right hinit, ← not_iff_not, not_not] at hlost
  rw [← hlost]
  have hout := hi.ended id x hx
  constructor
  · rintro haud ⟨hp, message, ho⟩
    obtain ⟨outcome, hok⟩ := hi.returned id x.request (haud hp)
    cases ho.symm.trans hok
  · intro hgood hp
    cases ho : x.outcome with
    | ok outcome => exact hi.audited id x outcome hx ho
    | error message => exact absurd ⟨hp, message, hout.trans (congrArg some ho)⟩ hgood

def testRuntime : Runtime where
  stringify := fun _ =>
    "\x7b\"device_id\":\"dev-1\",\"capability\":\"list_agents\",\"input\":\x7b\x7d," ++
      "\"issued_at\":1700000000,\"expires_at\":1700000060,\"nonce\":\"AAAAAAAAAAAAAAAAAAAAAA\"\x7d"
  hkdfSha256 := fun _ _ =>
    [92, 92, 17, 45, 26, 98, 169, 115, 102, 34, 239, 69, 77, 228, 52, 187,
      163, 42, 126, 109, 211, 30, 144, 105, 171, 159, 110, 111, 225, 120, 125, 237]
  hmacSha256 := fun _ _ =>
    [110, 239, 65, 176, 135, 127, 251, 22, 10, 82, 50, 229, 189, 195, 139, 108,
      184, 89, 81, 79, 100, 37, 210, 241, 62, 236, 220, 158, 36, 124, 62, 93]

def success : String := "\x7b\"id\":\"c1\",\"ok\":true\x7d"

def testConfig : Config where
  runtime := testRuntime
  masterKey := some (List.replicate 32 0)
  mqtt :=
    { defaultBaseTopic := "espclaw"
      parse := fun payload =>
        if payload = success then some (.obj [("id", .str "c1"), ("ok", .bool true)]) else none }

def listAgents : Request where
  deviceId := "dev-1"
  capability := "list_agents"
  input := .empty
  actor := some "id-a"
  nowSeconds := 1700000025
  nonce := "AAAAAAAAAAAAAAAAAAAAAA"

def answered : List Action :=
  [.commands .sweep, .commands (.registry (Table.empty.save { id := "dev-1", baseTopic := "espclaw" })),
    .execute "c1" listAgents, .commands (.commit "c1"), .commands (.resume "c1"), .commands (.commit "c1"),
    .commands (.resume "c1"), .commands (.mqtt (.message "espclaw/dev-1/response" success)),
      .commands (.resume "c1")]

def unwritten : List Action :=
  answered ++ [.commands (.refuse "c1" "connection terminated"), .resume "c1"]

def written : List Action :=
  answered ++ [.commands (.commit "c1"), .commands (.resume "c1"), .commands (.commit "c1"),
    .commands (.resume "c1"),
    .resume "c1"]

def registered : State :=
  { init true with
    commands :=
      { Commands.init true with
        devices := Table.empty.save { id := "dev-1", baseTopic := "espclaw" }
        sweeping := false } }

def testToken : String := (prepare testConfig listAgents).toOption.getD ""

theorem prepare_listAgents : prepare testConfig listAgents = .ok testToken := by
  have hok : (prepare testConfig listAgents).toOption.isSome := by decide +kernel
  rw [testToken]
  cases h : prepare testConfig listAgents with
  | error e => rw [h] at hok; cases hok
  | ok token => rfl

theorem run_listAgents {as : List Action}
    (h : run (step testConfig) (registered.dispatched "c1" testToken listAgents) as = some s) :
    run (step testConfig) (init true) (answered.take 2 ++ .execute "c1" listAgents :: as) = some s := by
  have htarget : isPlatformExecTarget "list_agents" := by decide
  have hexecute : step testConfig registered (.execute "c1" listAgents) = some _ :=
    execute_eq htarget prepare_listAgents List.not_mem_nil
  exact run_append.mpr ⟨registered, rfl, run_cons.mpr ⟨_, hexecute, h⟩⟩

theorem unwritten_status_leaves_no_event :
    ¬ ∀ (config : Config) (connected : Bool) (as : List Action) (s : State)
    (id : String) (x : Ended), run (step config) (init connected) as = some s → s.ended.get id = some x →
      s.commands.published id → Audited s id x.request := by
  intro h
  have hall : ∀ s ∈ run (step testConfig) (registered.dispatched "c1" testToken listAgents)
    (unwritten.drop 3),
      ∀ x ∈ s.ended.get "c1", s.commands.published "c1" → s.events ≠ [] := by
    intro s hs x hx hp he
    obtain ⟨e, hmem, -⟩ := h testConfig true unwritten s "c1" x (run_listAgents hs) hx hp
    rw [he] at hmem
    cases hmem
  exact absurd hall (by decide +kernel)

theorem written_execution_is_audited : ∃ s, run (step testConfig) (init true) written = some s ∧
    s.commands.published "c1" ∧ Audited s "c1" listAgents := by
  have hend : ∃ s ∈ run (step testConfig) (registered.dispatched "c1" testToken listAgents) (written.drop 3),
      s.commands.published "c1" ∧ ∃ x ∈ s.ended.get "c1", x.request = listAgents := by decide +kernel
  obtain ⟨s, hs, hp, x, hx, hreq⟩ := hend
  have hs : run (step testConfig) (init true) written = some s := run_listAgents hs
  have hquiet : Along (step testConfig) (Undisturbed "c1") (init true) written :=
    along_of_mem (fun a ha s => undisturbed_of_quiet (by revert a; decide)) _
  exact ⟨s, hs, hp, hreq ▸ (audited_iff_undisturbed hs hx).mpr hquiet hp⟩

end EspClawPlatform.Provisioning
