import EspClawPlatform.Commands.Secrecy
import EspClawPlatform.Provisioning.Audit
import EspClawPlatform.Provisioning.Redaction
import EspClawPlatform.Provisioning.Token

namespace EspClawPlatform.Provisioning

open Run

theorem redactInput_alike {input input' : Record} (h : AlikeMembers input.rows input'.rows) :
    redactInput input = redactInput input' :=
  Table.ext (redactMembers_alike h)

variable {config : Config} {s s' t : State}

theorem prepare_ok {request : Request} {key secret : List UInt8} {token : String}
    (hk : config.masterKey = some key)
    (hv : validatePrivilegedInput request.capability request.input = .ok ())
    (hs : deriveDeviceSecret config.runtime key request.deviceId = .ok secret)
    (ht : signPlatformToken config.runtime
      { secret := secret, deviceId := request.deviceId, capability := request.capability,
        input := request.input,
        nowSeconds := request.nowSeconds, nonce := request.nonce } = .ok token) :
    prepare config request = .ok token := by
  have hissue : issue config.runtime config.masterKey request.deviceId request.capability request.input
      request.nowSeconds request.nonce = .ok token := by
    rw [hk]
    simp only [issue, hs]
    change Except.mapError _ (signPlatformToken ..) = _
    rw [ht]
    rfl
  rw [prepare, hv]
  exact hissue

def Request.conceal (request : Request) : Request := { request with input := redactInput request.input }

/-- The same action, or two calls of `execute` that reach their dispatches with inputs that are alike. -/
inductive Twin (config : Config) : Action → Action → Prop
  | same (a : Action) : Twin config a a
  | execute {id token token' : String} {request : Request} {input : Record}
      (h : AlikeMembers request.input.rows input.rows) (ht : prepare config request = .ok token)
      (ht' : prepare config { request with input := input } = .ok token') :
      Twin config (.execute id request) (.execute id { request with input := input })

/-- Two states that differ only in what has gone on the wire. -/
structure Indistinct (s s' : State) : Prop where
  commands : s'.commands.conceal = s.commands.conceal
  waiting : s'.waiting.mapValues Request.conceal = s.waiting.mapValues Request.conceal
  events : s'.events = s.events

theorem call_conceal {request request' : Request} (h : request'.conceal = request.conceal)
    (token token' : String) :
    (request'.call token').conceal = (request.call token).conceal := by
  obtain ⟨deviceId, capability, input, actor, timeoutMs, nowSeconds, nonce, context, correlation,
    failure⟩ := request
  cases request'
  simp only [Request.conceal, Request.mk.injEq] at h
  obtain ⟨rfl, rfl, hinput, rfl, rfl, rfl, rfl, rfl, rfl, rfl⟩ := h
  simp only [Request.call, hinput]
  rfl

theorem commands_lockstep {u u' v : Commands.State} {a a' : Commands.Action} (hu : u'.conceal = u.conceal)
    (ha : a'.conceal = a.conceal) (h : Commands.step config.mqtt u a = some v) :
    ∃ v', Commands.step config.mqtt u' a' = some v' ∧ v'.conceal = v.conceal := by
  have hstep : Commands.step config.mqtt u'.conceal a'.conceal = _ := Commands.step_conceal u' a'
  rw [hu, ha, Commands.step_conceal, h, Option.map_some] at hstep
  exact Option.map_eq_some_iff.mp hstep.symm

theorem refused_lockstep (hi : Indistinct s s') (e e' : Refusal) :
    Indistinct { s with refused := s.refused ++ [e] } { s' with refused := s'.refused ++ [e'] } :=
  ⟨hi.commands, hi.waiting, hi.events⟩

theorem execute_lockstep {id token token' : String} {request request' : Request} (hi : Indistinct s s')
    (hr : request'.conceal = request.conceal) (ht : prepare config request = .ok token)
    (ht' : prepare config request' = .ok token') (h : s.execute config id request = some t) :
    ∃ t', s'.execute config id request' = some t' ∧ Indistinct t t' := by
  have hcapability : request'.conceal.capability = request.conceal.capability := congrArg (·.capability) hr
  change request'.capability = request.capability at hcapability
  rw [State.execute, ht] at h
  rw [State.execute, ht', hcapability]
  split at h
  · rename_i htarget
    cases h
    rw [if_pos htarget]
    exact ⟨_, rfl, refused_lockstep hi _ _⟩
  · rename_i htarget
    rw [if_neg htarget]
    obtain ⟨commands, hd, rfl⟩ := Option.map_eq_some_iff.mp h
    have hcall := call_conceal hr token token'
    have ha : Commands.Action.conceal (.dispatch id (request'.call token')) =
        Commands.Action.conceal (.dispatch id (request.call token)) :=
          congrArg (Commands.Action.dispatch id) hcall
    have hdispatch : Commands.step config.mqtt s.commands
      (.dispatch id (request.call token)) = some commands := hd
    obtain ⟨commands', hd', hcommands⟩ := commands_lockstep hi.commands ha hdispatch
    refine ⟨{ s' with commands := commands', waiting := s'.waiting.set id request' }, ?_, hcommands,
      ?_, hi.events⟩
    · exact congrArg (Option.map _) hd'
    · simp only [Table.mapValues_set, hi.waiting, hr]

theorem finish_lockstep {id : String} {request request' : Request} (hi : Indistinct s s')
    (outcome : Except String Commands.DispatchOutcome) :
    Indistinct (s.finish id request outcome) (s'.finish id request' outcome) where
  commands := hi.commands
  waiting := by simp only [State.finish, Table.mapValues_erase, hi.waiting]
  events := hi.events

theorem resume_lockstep {id : String} (hi : Indistinct s s') (h : s.resume id = some t) :
    ∃ t', s'.resume id = some t' ∧ Indistinct t t' := by
  obtain ⟨request, hw, h⟩ := Option.bind_eq_some_iff.mp h
  obtain ⟨o, ho, h⟩ := Option.bind_eq_some_iff.mp h
  have hget : (s'.waiting.get id).map Request.conceal = some request.conceal := by
    rw [← Table.get_mapValues, hi.waiting, Table.get_mapValues, hw, Option.map_some]
  obtain ⟨request', hw', hr⟩ := Option.map_eq_some_iff.mp hget
  have ho' : s'.commands.outcomes.get id = some o :=
    (congrArg (fun u => Table.get u.outcomes id) hi.commands).trans ho
  rw [State.resume, hw', Option.bind_eq_bind, Option.bind_some, ho', Option.bind_eq_bind, Option.bind_some]
  cases o with
  | error message =>
      cases h
      exact ⟨_, rfl, finish_lockstep hi _⟩
  | ok outcome =>
      cases h
      have hevent : executedEvent request'.conceal outcome = executedEvent request.conceal outcome :=
        congrArg (executedEvent · outcome) hr
      change executedEvent request' outcome = executedEvent request outcome at hevent
      have hnext : Indistinct { s with events := s.events ++ [executedEvent request outcome] }
          { s' with events := s'.events ++ [executedEvent request' outcome] } :=
        ⟨hi.commands, hi.waiting, by simp only [hi.events, hevent]⟩
      exact ⟨_, rfl, finish_lockstep hnext _⟩

theorem step_lockstep {a a' : Action} (hi : Indistinct s s') (ha : Twin config a a')
    (h : step config s a = some t) :
    ∃ t', step config s' a' = some t' ∧ Indistinct t t' := by
  cases ha with
  | @execute _ _ _ request input halike ht ht' =>
      have hr : { request with input := input }.conceal = request.conceal := by
        rw [Request.conceal, Request.conceal, redactInput_alike halike]
      exact execute_lockstep hi hr ht ht' h
  | same =>
      cases a with
      | commands action =>
          obtain ⟨commands, hc, rfl⟩ := Option.map_eq_some_iff.mp h
          obtain ⟨commands', hc', hcommands⟩ := commands_lockstep hi.commands rfl hc
          refine ⟨_, congrArg (Option.map _) hc', hcommands, ?_, hi.events⟩
          simp only
          split
          · rfl
          · exact hi.waiting
      | execute id request =>
          cases hp : prepare config request with
          | ok token => exact execute_lockstep hi rfl hp hp h
          | error error =>
              change s.execute config id request = some t at h
              change ∃ t', s'.execute config id request = some t' ∧ _
              rw [State.execute, hp] at h
              rw [State.execute, hp]
              split at h
              · rename_i htarget
                cases h
                exact ⟨_, if_pos htarget, refused_lockstep hi _ _⟩
              · rename_i htarget
                cases h
                exact ⟨_, if_neg htarget, refused_lockstep hi _ _⟩
      | resume id => exact resume_lockstep hi h

/-- Executions whose inputs differ only in their secrets leave the same rows and
the same events behind, at every point of two runs that are the same otherwise. -/
theorem history_reveals_no_secret {connected : Bool} {as as' : List Action}
    (htwin : List.Forall₂ (Twin config) as as') (h : run (step config) (init connected) as = some s) :
    ∃ s', run (step config) (init connected) as' = some s' ∧ s'.commands.commands = s.commands.commands ∧
      s'.commands.results = s.commands.results ∧ s'.commands.events = s.commands.events ∧
        s'.events = s.events := by
  obtain ⟨s', hs', hi⟩ := run_lockstep (R := Indistinct) (A := Twin config)
    (fun _ _ _ _ _ hi ha h => step_lockstep hi ha h) h htwin ⟨rfl, rfl, rfl⟩
  have hview : s'.commands.conceal = s.commands.conceal := hi.commands
  have hcommands : s'.commands.conceal.commands = s.commands.conceal.commands := congrArg (·.commands) hview
  have hresults : s'.commands.conceal.results = s.commands.conceal.results := congrArg (·.results) hview
  have hevents : s'.commands.conceal.events = s.commands.conceal.events := congrArg (·.events) hview
  exact ⟨s', hs', hcommands, hresults, hevents, hi.events⟩

def configure (password : String) : Request :=
  { listAgents with
    capability := "network_configure"
    input := (Table.empty.set "ssid" (.str "home")).set "password" (.str password) }

def configured (password : String) : List Action :=
  written.take 2 ++ .execute "c1" (configure password) :: written.drop 3

def configureArgs (password : String) : SignInput where
  secret := testRuntime.hkdfSha256 [] ""
  deviceId := "dev-1"
  capability := "network_configure"
  input := (configure password).input
  nowSeconds := 1700000025
  nonce := "AAAAAAAAAAAAAAAAAAAAAA"

def configurePayload (password : String) : String :=
  "\x7b\"device_id\":\"dev-1\",\"capability\":\"network_configure\",\"input\":\x7b\"ssid\":\"home\",\"password\":\"" ++
    password ++ "\"\x7d,\"issued_at\":1700000000,\"expires_at\":1700000060,\"nonce\":\"AAAAAAAAAAAAAAAAAAAAAA\"\x7d"

def configureRuntime : Runtime where
  stringify := fun value =>
    configurePayload (if value = (configureArgs "tulip").payload then "tulip" else "orchid")
  hkdfSha256 := testRuntime.hkdfSha256
  hmacSha256 := fun _ text =>
    if text = toBase64Url (utf8 (configurePayload "tulip")) then
      [134, 173, 237, 216, 253, 10, 125, 46, 84, 119, 183, 158, 191, 30, 70, 136,
        55, 81, 128, 60, 129, 17, 171, 116, 208, 70, 237, 107, 222, 65, 28, 171]
    else
      [241, 76, 84, 100, 26, 18, 47, 118, 227, 241, 45, 43, 98, 175, 74, 169,
        187, 101, 176, 165, 74, 204, 136, 106, 113, 104, 126, 136, 30, 199, 120, 201]

def configureConfig : Config := { testConfig with runtime := configureRuntime }

theorem prepare_configure {password : String}
    (h : (utf8 (configureRuntime.stringify (configureArgs password).payload)).length ≤ PAYLOAD_MAX_BYTES) :
    prepare configureConfig (configure password) = .ok ((configureArgs password).token configureRuntime) := by
  have htarget : isPlatformExecTarget "network_configure" := by decide
  have hsign : signPlatformToken configureRuntime (configureArgs password) = _ := sign_eq htarget
  rw [if_neg (not_lt.mpr h)] at hsign
  exact prepare_ok rfl rfl rfl hsign

theorem passwords_leave_one_history : ∃ s s',
    run (step configureConfig) (init true) (configured "tulip") = some s ∧
    run (step configureConfig) (init true) (configured "orchid") = some s' ∧
      s'.commands.commands = s.commands.commands ∧ s'.commands.results = s.commands.results ∧
        s'.commands.events = s.commands.events ∧ s'.events = s.events := by
  have hsame (as : List Action) : List.Forall₂ (Twin configureConfig) as as :=
    List.forall₂_same.mpr fun a _ => .same a
  have halike : AlikeMembers (configure "tulip").input.rows (configure "orchid").input.rows :=
    .member (.same _) (.secret (by decide +kernel) .nil)
  have htulip : prepare configureConfig (configure "tulip") = .ok _ := prepare_configure (by decide +kernel)
  have horchid : prepare configureConfig (configure "orchid") = .ok _ := prepare_configure (by decide +kernel)
  have htwin : List.Forall₂ (Twin configureConfig) (configured "tulip") (configured "orchid") :=
    List.rel_append (hsame _) (.cons (.execute halike htulip horchid) (hsame _))
  have htarget : isPlatformExecTarget "network_configure" := by decide
  have hexecute : step configureConfig registered (.execute "c1" (configure "tulip")) = some _ :=
    execute_eq htarget htulip List.not_mem_nil
  have hrest : (run (step configureConfig)
      (registered.dispatched "c1" ((configureArgs "tulip").token configureRuntime) (configure "tulip"))
      (written.drop 3)).isSome := by decide +kernel
  obtain ⟨s, hs⟩ := Option.isSome_iff_exists.mp hrest
  have hrun : run (step configureConfig) (init true) (configured "tulip") = some s :=
    run_append.mpr ⟨registered, rfl, run_cons.mpr ⟨_, hexecute, hs⟩⟩
  obtain ⟨s', hs', hhistory⟩ := history_reveals_no_secret htwin hrun
  exact ⟨s, s', hrun, hs', hhistory⟩

end EspClawPlatform.Provisioning
