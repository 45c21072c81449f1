import EspClawPlatform.Commands.OnRecord
import EspClawPlatform.Provisioning.Audit
import EspClawPlatform.Provisioning.Replay

namespace EspClawPlatform.Provisioning

open Run
open Commands (CompletionInv OutcomeInv OnRecord)

theorem keys_readBackMembers (members : List (String × Json)) :
    (Json.readBackMembers members).map Prod.fst = members.map Prod.fst := by
  induction members with
  | nil => rfl
  | cons member members ih =>
      obtain ⟨key, value⟩ := member
      simp only [Json.readBackMembers, List.map_cons, ih]

def readBackInput (input : Record) : Record :=
  ⟨Json.readBackMembers input.rows, (keys_readBackMembers input.rows).symm ▸ input.nodup⟩

def SignInput.received (args : SignInput) : SignInput := { args with input := readBackInput args.input }

def Request.args (request : Request) (secret : List UInt8) : SignInput where
  secret := secret
  deviceId := request.deviceId
  capability := request.capability
  input := request.input
  nowSeconds := request.nowSeconds
  nonce := request.nonce

structure Execution where
  grant : Grant
  boots : Nat
  nowSeconds : Rat
  deriving DecidableEq

/-- A device with how often it has rebooted and what it has executed, oldest first. -/
structure Board where
  model : FirmwareModel
  boots : Nat := 0
  executed : List Execution := []
  deriving DecidableEq

def Board.present (runtime : Runtime) (parse : String → Option Json) (board : Board) (token : Option String)
    (nowSeconds : Rat) : Board :=
  { board with
    model := (board.model.verify runtime parse token nowSeconds).elim board.model Prod.snd
    executed := board.executed ++ (board.model.grant runtime parse token nowSeconds).toList.map fun grant =>
      { grant := grant, boots := board.boots, nowSeconds := nowSeconds } }

def Board.reboot (board : Board) : Board := { board with model := board.model.reboot, boots := board.boots + 1 }

/-- The platform and the devices it is for. `requested` keeps the calls of
`execute` that have signed a token, by the id of the command. -/
structure Fleet where
  platform : State
  boards : Table (String × Board)
  requested : Table (String × Request) := .empty

/-- Anyone can present any text to a device. -/
inductive FleetAction
  | platform (action : Action)
  | present (board : String) (token : Option String) (nowSeconds : Rat)
  | reboot (board : String)

def Request.signs (config : Config) (request : Request) : Bool :=
  isPlatformExecTarget request.capability && (prepare config request).toOption.isSome

def Fleet.record (config : Config) (s : Fleet) : Action → Table (String × Request)
  | .execute id request => if request.signs config then s.requested.set id request else s.requested
  | _ => s.requested

def Fleet.step (config : Config) (s : Fleet) : FleetAction → Option Fleet
  | .platform action =>
      (Provisioning.step config s.platform action).map fun platform =>
        { s with platform := platform, requested := s.record config action }
  | .present name token nowSeconds =>
      (s.boards.get name).map fun board =>
        { s with boards := s.boards.set name (board.present config.runtime config.mqtt.parse token nowSeconds) }
  | .reboot name =>
      (s.boards.get name).map fun board => { s with boards := s.boards.set name board.reboot }

def Fleet.init (connected : Bool) (models : Table (String × FirmwareModel)) : Fleet where
  platform := Provisioning.init connected
  boards := models.image (fun r => (r.1, { model := r.2.reboot })) fun _ => rfl

def Provisioned (config : Config) (device : FirmwareModel) : Prop :=
  ∃ key secret, config.masterKey = some key ∧
    deriveDeviceSecret config.runtime key device.ownDeviceId = .ok secret ∧ device.secret = some secret

/-- Nobody but the platform signs: what is presented to a provisioned device
under a valid signature has been signed for a message that was on the wire. -/
def Unforged (config : Config) (s : Fleet) : FleetAction → Prop
  | .present name token _ => ∀ board segment, s.boards.get name = some board → Provisioned config board.model →
      board.model.authenticated config.runtime token = some segment →
        ∃ id request secret, s.requested.get id = some request ∧ s.platform.commands.published id ∧
          (request.args secret).segment config.runtime = segment
  | _ => True

/-- `JSON.parse` reads the payloads that are signed as `JSON.stringify` wrote them. -/
def ReadsBack (config : Config) : FleetAction → Prop
  | .platform (.execute _ request) => ∀ secret, config.mqtt.parse
      (config.runtime.stringify (request.args secret).payload) = some (request.args secret).payload.readBack
  | _ => True

section Received

variable {runtime : Runtime} {parse : String → Option Json} {args : SignInput} {device : FirmwareModel}
  {token : Option String} {t : Rat} {g : Grant}

theorem payload_readBack (args : SignInput) : args.payload.readBack = args.received.payload := by
  simp only [SignInput.payload, SignInput.received, Json.readBack, Json.readBackMembers, integer, readBackInput]

structure Answers (device : FirmwareModel) (args : SignInput) (t : Rat) (g : Grant) : Prop where
  device_id : args.deviceId = device.ownDeviceId
  capability : g.capability = args.capability
  input : g.input = .obj (readBackInput args.input).rows
  nonce : g.nonce = args.nonce
  time : args.nowSeconds - 30 ≤ t ∧ t ≤ args.nowSeconds + 35

theorem Answers.congr {d : FirmwareModel} (h : Answers device args t g)
    (hd : d.ownDeviceId = device.ownDeviceId) : Answers d args t g :=
  ⟨h.device_id.trans hd.symm, h.capability, h.input, h.nonce, h.time⟩

theorem answers_of_acceptable (h : Acceptable device args.received.payload t g) : Answers device args t g := by
  obtain ⟨hdevice, hcapability, hnonce⟩ := str_payload args.received
  obtain ⟨issuedAt, expiresAt, hw, hl, hu⟩ := h.window
  rw [window_payload] at hw
  split at hw
  · cases hw
  · cases hw
    rw [CLOCK_SKEW_S] at hl
    exact
      { device_id := Option.some.inj (hdevice.symm.trans h.device_id)
        capability := Option.some.inj (h.capability.symm.trans hcapability)
        input := h.input.trans input_payload
        nonce := Option.some.inj (h.nonce.symm.trans hnonce)
        time := ⟨by have : ((args.received.nowSeconds : Rat)) = args.nowSeconds := rfl; linarith, hu⟩ }

theorem grant_authenticated (hg : device.grant runtime parse token t = some g) :
    ∃ segment, device.authenticated runtime token = some segment ∧
      ∀ args : SignInput, args.segment runtime = segment →
        parse (runtime.stringify args.payload) = some args.payload.readBack → Answers device args t g := by
  obtain ⟨payload, hp, ha⟩ := grant_eq_some.mp hg
  rw [FirmwareModel.payload] at hp
  cases ho : device.openToken runtime token with
  | error e => rw [ho] at hp; cases hp
  | ok text =>
      rw [ho] at hp
      obtain ⟨segment, bytes, hauth, hbytes, rfl⟩ := openToken_ok ho
      refine ⟨segment, hauth, fun args hsegment hread => ?_⟩
      subst hsegment
      have hparse : parse (String.ofList (utf8Decode bytes.length bytes)) = some payload := hp
      rw [text_of_segment hbytes, hread, payload_readBack] at hparse
      obtain rfl := Option.some.inj hparse
      exact answers_of_acceptable ha

end Received

section Boards

variable {runtime : Runtime} {parse : String → Option Json} {token : Option String} {t : Rat} {board : Board}

def Board.executedIn (board : Board) (k : Nat) : List Execution := board.executed.filter fun e => e.boots = k

structure BoardInv (board : Board) : Prop where
  window : board.model.seenNonces =
    ((board.executedIn board.boots).map fun e => kept e.grant.nonce).rtake NONCE_WINDOW
  boots : ∀ e ∈ board.executed, e.boots ≤ board.boots
  spaced : ∀ k, Recent.Spaced NONCE_WINDOW (fun e => kept e.grant.nonce) (fun e => utf16 e.grant.nonce)
    (board.executedIn k)

theorem boardInv_fresh (device : FirmwareModel) : BoardInv { model := device.reboot } where
  window := rfl
  boots := fun _ h => by cases h
  spaced := fun _ => Recent.spaced_nil _ _ _

theorem boardInv_reboot (hi : BoardInv board) : BoardInv board.reboot where
  window := by
    have hnone : board.reboot.executedIn board.reboot.boots = [] := by
      rw [Board.executedIn, List.filter_eq_nil_iff]
      intro e he
      have hle := hi.boots e he
      have hboots : board.reboot.boots = board.boots + 1 := rfl
      simp only [decide_eq_true_eq, hboots]
      omega
    rw [hnone]
    rfl
  boots := fun e he => Nat.le_succ_of_le (hi.boots e he)
  spaced := hi.spaced

theorem present_of_none (h : board.model.grant runtime parse token t = none) :
    board.present runtime parse token t = board := by
  have hmodel : (board.model.verify runtime parse token t).elim board.model Prod.snd = board.model :=
    Option.some.inj (step_of_none h)
  rw [Board.present, hmodel, h]
  simp only [Option.toList_none, List.map_nil, List.append_nil]

theorem present_of_grant {g : Grant} (h : board.model.grant runtime parse token t = some g) :
    board.present runtime parse token t =
      { board with
        model := board.model.remember g.nonce
        executed := board.executed ++ [{ grant := g, boots := board.boots, nowSeconds := t }] } := by
  rw [Board.present, verify_of_grant h, h]
  rfl

theorem boardInv_present (hi : BoardInv board) : BoardInv (board.present runtime parse token t) := by
  cases hg : board.model.grant runtime parse token t with
  | none => rwa [present_of_none hg]
  | some g =>
      obtain ⟨payload, -, ha⟩ := grant_eq_some.mp hg
      have hfresh := ha.fresh.2
      rw [hi.window] at hfresh
      rw [present_of_grant hg]
      refine ⟨?_, fun e he => ?_, fun k => ?_⟩
      · have hlast : [({ grant := g, boots := board.boots, nowSeconds := t } : Execution)].filter
            (fun e => e.boots = board.boots) = [{ grant := g, boots := board.boots, nowSeconds := t }] := by
          simp
        rw [Board.executedIn, List.filter_append, hlast, List.map_append, remember_eq, FirmwareModel.seeing,
          hi.window, Recent.push_rtake]
        rfl
      · rcases List.mem_append.mp he with he | he
        · exact hi.boots e he
        · rw [List.mem_singleton.mp he]
      · rw [Board.executedIn, List.filter_append]
        by_cases hk : board.boots = k
        · subst hk
          rw [List.filter_cons_of_pos (by simp), List.filter_nil]
          exact (hi.spaced board.boots).append hfresh
        · rw [List.filter_cons_of_neg (by simpa using hk), List.filter_nil, List.append_nil]
          exact hi.spaced k

end Boards

section Fleet

variable {config : Config} {s t : Fleet}

structure Issued (config : Config) (commands : Commands.State) (id : String) (request : Request) : Prop where
  target : isPlatformExecTarget request.capability
  record : ∃ token, prepare config request = .ok token ∧ OnRecord id (request.call token) commands
  reads : ∀ secret, config.mqtt.parse (config.runtime.stringify (request.args secret).payload) =
    some (request.args secret).payload.readBack

structure FleetInv (config : Config) (s : Fleet) : Prop where
  completion : CompletionInv s.platform.commands
  outcomes : OutcomeInv s.platform.commands
  requested : ∀ id request, s.requested.get id = some request → Issued config s.platform.commands id request
  boards : ∀ name board, s.boards.get name = some board → BoardInv board
  executed : ∀ name board, s.boards.get name = some board → Provisioned config board.model →
    ∀ e ∈ board.executed, ∃ id request secret, s.requested.get id = some request ∧
      s.platform.commands.published id ∧ Answers board.model (request.args secret) e.nowSeconds e.grant

theorem commands_step {u v : State} {a : Action} (h : step config u a = some v) :
    (v.commands = u.commands ∧ ∀ id request, a = .execute id request → request.signs config = false) ∨
    ∃ c, Commands.step config.mqtt u.commands c = some v.commands ∧
      ∀ id request, a = .execute id request → isPlatformExecTarget request.capability ∧
        ∃ token, prepare config request = .ok token ∧ c = .dispatch id (request.call token) := by
  cases a with
  | commands action =>
      obtain ⟨commands, hc, rfl⟩ := Option.map_eq_some_iff.mp h
      exact .inr ⟨action, hc, fun _ _ he => by cases he⟩
  | execute id request =>
      simp only [step, State.execute] at h
      split at h
      · rename_i htarget
        cases h
        refine .inl ⟨rfl, fun _ _ he => ?_⟩
        cases he
        rw [Request.signs, (Bool.not_eq_true' _).mp htarget, Bool.false_and]
      · rename_i htarget
        split at h
        · rename_i error herror
          cases h
          refine .inl ⟨rfl, fun _ _ he => ?_⟩
          cases he
          rw [Request.signs, herror]
          exact Bool.and_false _
        · rename_i token htoken
          obtain ⟨commands, hd, rfl⟩ := Option.map_eq_some_iff.mp h
          refine .inr ⟨.dispatch id (request.call token), hd, fun _ _ he => ?_⟩
          cases he
          exact ⟨by simpa using htarget, token, htoken, rfl⟩
  | resume id =>
      obtain ⟨request, -, h⟩ := Option.bind_eq_some_iff.mp h
      obtain ⟨o, -, h⟩ := Option.bind_eq_some_iff.mp h
      cases o <;> cases h <;> exact .inl ⟨rfl, fun _ _ he => by cases he⟩

theorem published_kept {c d : Commands.State} {a : Commands.Action} {id : String} (hc : CompletionInv c)
    (h : Commands.step config.mqtt c a = some d) (hp : c.published id) : d.published id := by
  rcases Commands.wire_step hc h with hw | ⟨m, -, -, -, -, -, hw, -⟩
  · rwa [Commands.State.published, hw]
  · rw [Commands.State.published, hw, List.any_append, Bool.or_eq_true]
    exact .inl hp

theorem fleetInv_init (config : Config) (connected : Bool) (models : Table (String × FirmwareModel)) :
    FleetInv config (Fleet.init connected models) := by
  have hboards : ∀ name board, (Fleet.init connected models).boards.get name = some board →
      ∃ device : FirmwareModel, board = { model := device.reboot } := by
    intro name board h
    obtain ⟨r, hr, rfl⟩ := Option.map_eq_some_iff.mp h
    rw [Fleet.init, Table.find_image] at hr
    obtain ⟨r', -, rfl⟩ := Option.map_eq_some_iff.mp hr
    exact ⟨r'.2, rfl⟩
  refine ⟨Commands.completionInv_init connected, Commands.outcomeInv_init connected, fun _ _ h => (by cases h),
    fun name board h => ?_, fun name board h _ e he => ?_⟩
  · obtain ⟨device, rfl⟩ := hboards name board h
    exact boardInv_fresh device
  · obtain ⟨device, rfl⟩ := hboards name board h
    cases he

theorem fleetInv_platform {p : State} {a : Action} (hi : FleetInv config s)
    (hread : ReadsBack config (.platform a)) (h : step config s.platform a = some p) :
    FleetInv config { s with platform := p, requested := s.record config a } := by
  have hkeep (hr : s.record config a = s.requested)
      (hissued : ∀ id request, s.requested.get id = some request → Issued config p.commands id request)
      (hpub : ∀ id, s.platform.commands.published id → p.commands.published id)
      (hcompletion : CompletionInv p.commands) (houtcomes : OutcomeInv p.commands) :
      FleetInv config { s with platform := p, requested := s.record config a } := by
    refine ⟨hcompletion, houtcomes, hr ▸ hissued, hi.boards, fun name board hb hprov e he => ?_⟩
    obtain ⟨id, request, secret, hreq, hp, hans⟩ := hi.executed name board hb hprov e he
    exact ⟨id, request, secret, hr ▸ hreq, hpub id hp, hans⟩
  rcases commands_step h with ⟨hc, hsigns⟩ | ⟨c, hc, hdispatch⟩
  · have hr : s.record config a = s.requested := by
      cases a with
      | execute id request => rw [Fleet.record, hsigns id request rfl]; rfl
      | commands | resume => rfl
    exact hkeep hr (hc ▸ hi.requested) (fun _ hp => hc ▸ hp) (hc ▸ hi.completion) (hc ▸ hi.outcomes)
  · have hcompletion := Commands.completionInv_step hi.completion hc
    have houtcomes := Commands.outcomeInv_step hi.outcomes hc
    have hissued : ∀ id request, s.requested.get id = some request → Issued config p.commands id request := by
      intro id request hreq
      obtain ⟨htarget, ⟨token, htoken, ho⟩, hreads⟩ := hi.requested id request hreq
      exact ⟨htarget, ⟨token, htoken, Commands.onRecord_step hi.completion ho hc⟩, hreads⟩
    have hpub : ∀ id, s.platform.commands.published id → p.commands.published id :=
      fun id hp => published_kept hi.completion hc hp
    cases a with
    | commands | resume => exact hkeep rfl hissued hpub hcompletion houtcomes
    | execute id request =>
        obtain ⟨htarget, token, htoken, rfl⟩ := hdispatch id request rfl
        have hnew : s.requested.get id = none := by
          cases hg : s.requested.get id with
          | none => rfl
          | some request' =>
              obtain ⟨-, ⟨token', -, ho⟩, -⟩ := hi.requested id request' hg
              simp only [Commands.step, Commands.State.dispatch, if_pos ho.drawn] at hc
              cases hc
        have hsigns : request.signs config = true := by
          rw [Request.signs, htarget, htoken]
          rfl
        have hr : s.record config (.execute id request) = s.requested.set id request := by
          rw [Fleet.record, hsigns]
          rfl
        rw [hr]
        refine ⟨hcompletion, houtcomes, fun j request' hreq => ?_, hi.boards, fun name board hb hprov e he => ?_⟩
        · rw [Table.get_set] at hreq
          split at hreq
          · rename_i hj
            cases hreq
            subst hj
            exact ⟨htarget, ⟨token, htoken, Commands.onRecord_dispatch hi.completion hi.outcomes hc⟩, hread⟩
          · exact hissued j request' hreq
        · obtain ⟨j, request', secret, hreq, hp, hans⟩ := hi.executed name board hb hprov e he
          refine ⟨j, request', secret, ?_, hpub j hp, hans⟩
          rw [Table.get_set_of_ne]
          · exact hreq
          · rintro rfl
            cases hnew.symm.trans hreq

theorem fleetInv_step {a : FleetAction} (hi : FleetInv config s) (hread : ReadsBack config a)
    (hforge : Unforged config s a) (h : s.step config a = some t) : FleetInv config t := by
  cases a with
  | platform action =>
      obtain ⟨p, hp, rfl⟩ := Option.map_eq_some_iff.mp h
      exact fleetInv_platform hi hread hp
  | present name token nowSeconds =>
      obtain ⟨board, hb, rfl⟩ := Option.map_eq_some_iff.mp h
      refine ⟨hi.completion, hi.outcomes, hi.requested, fun name' board' hb' => ?_,
        fun name' board' hb' hprov e he => ?_⟩
      · rw [Table.get_set] at hb'
        split at hb'
        · cases hb'
          exact boardInv_present (hi.boards name board hb)
        · exact hi.boards name' board' hb'
      · rw [Table.get_set] at hb'
        split at hb'
        · cases hb'
          cases hg : board.model.grant config.runtime config.mqtt.parse token nowSeconds with
          | none =>
              rw [present_of_none hg] at hprov he ⊢
              exact hi.executed name board hb hprov e he
          | some g =>
              rw [present_of_grant hg] at hprov he ⊢
              rcases List.mem_append.mp he with he | he
              · obtain ⟨id, request, secret, hreq, hp, hans⟩ := hi.executed name board hb hprov e he
                exact ⟨id, request, secret, hreq, hp, hans.congr rfl⟩
              · obtain rfl := List.mem_singleton.mp he
                obtain ⟨segment, hauth, hans⟩ := grant_authenticated hg
                obtain ⟨id, request, secret, hreq, hp, hsegment⟩ := hforge board segment hb hprov hauth
                obtain ⟨-, -, hreads⟩ := hi.requested id request hreq
                have hanswers := hans (request.args secret) hsegment (hreads secret)
                exact ⟨id, request, secret, hreq, hp, hanswers.congr rfl⟩
        · exact hi.executed name' board' hb' hprov e he
  | reboot name =>
      obtain ⟨board, hb, rfl⟩ := Option.map_eq_some_iff.mp h
      refine ⟨hi.completion, hi.outcomes, hi.requested, fun name' board' hb' => ?_,
        fun name' board' hb' hprov e he => ?_⟩
      · rw [Table.get_set] at hb'
        split at hb'
        · cases hb'
          exact boardInv_reboot (hi.boards name board hb)
        · exact hi.boards name' board' hb'
      · rw [Table.get_set] at hb'
        split at hb'
        · cases hb'
          obtain ⟨id, request, secret, hreq, hp, hans⟩ := hi.executed name board hb hprov e he
          exact ⟨id, request, secret, hreq, hp, hans.congr rfl⟩
        · exact hi.executed name' board' hb' hprov e he

theorem prepare_of_sign {request : Request} {key secret : List UInt8} {token : String}
    (hvalid : validatePrivilegedInput request.capability request.input = .ok ()) (hkey : config.masterKey = some key)
    (hsecret : deriveDeviceSecret config.runtime key request.deviceId = .ok secret)
    (hsign : signPlatformToken config.runtime (request.args secret) = .ok token) :
    prepare config request = .ok token := by
  rw [Request.args] at hsign
  simp only [prepare, hvalid, issue, hkey, hsecret, hsign, bind, Except.bind, Except.mapError]

theorem validated_of_prepare {request : Request} {token : String} (h : prepare config request = .ok token) :
    validatePrivilegedInput request.capability request.input = .ok () := by
  rw [prepare] at h
  cases hv : validatePrivilegedInput request.capability request.input with
  | ok => rfl
  | error e =>
      rw [hv] at h
      cases h

theorem row_of_published {commands : Commands.State} {id : String} {call : Commands.Call}
    (ho : OnRecord id call commands) (hp : commands.published id) :
    ∃ row, commands.commands.find id = some row ∧ row.asked = call.command id := by
  obtain ⟨m, hm, hid⟩ := List.any_eq_true.mp hp
  obtain ⟨row, hrow⟩ := Option.isSome_iff_exists.mp (ho.wire m hm (of_decide_eq_true hid)).2
  exact ⟨row, hrow, ho.row row hrow⟩

/-- Whatever is presented to it, a provisioned device executes only what an
admin has asked of the platform for this very device, in time and on record,
and an operation twice only across a reboot or sixteen others. -/
theorem executions_are_requested {connected : Bool} {models : Table (String × FirmwareModel)}
    {as : List FleetAction} {name : String} {board : Board}
    (h : run (Fleet.step config) (Fleet.init connected models) as = some s) (hread : ∀ a ∈ as, ReadsBack config a)
    (hforge : Along (Fleet.step config) (Unforged config) (Fleet.init connected models) as)
    (hb : s.boards.get name = some board) (hprov : Provisioned config board.model) :
    (∀ e ∈ board.executed, ∃ id request row, s.requested.get id = some request ∧
      validatePrivilegedInput request.capability request.input = .ok () ∧
      request.deviceId = board.model.ownDeviceId ∧ e.grant.capability = request.capability ∧
      e.grant.input = .obj (readBackInput request.input).rows ∧ e.grant.nonce = request.nonce ∧
      request.nowSeconds - 30 ≤ e.nowSeconds ∧ e.nowSeconds ≤ request.nowSeconds + 35 ∧
      s.platform.commands.published id ∧ s.platform.commands.commands.find id = some row ∧ row.deviceId = board.model.ownDeviceId ∧
      row.name = "platform_exec:" ++ e.grant.capability ∧ row.input = redactInput request.input) ∧
    ∀ k pre e mid e' post, board.executedIn k = pre ++ e :: mid ++ e' :: post → e.grant.nonce = e'.grant.nonce →
      utf16Length e.grant.nonce ≤ 47 → 16 ≤ mid.length := by
  have hcond : Along (Fleet.step config) (fun s a => ReadsBack config a ∧ Unforged config s a)
      (Fleet.init connected models) as :=
    along_and.mpr ⟨along_of_mem (fun a ha _ => hread a ha) _, hforge⟩
  have hi : FleetInv config s := invariant_along (fun _ _ _ hi hc hs => fleetInv_step hi hc.1 hc.2 hs) h hcond
    (fleetInv_init config connected models)
  refine ⟨fun e he => ?_, fun k pre e mid e' post hexec hnonce hshort => ?_⟩
  · obtain ⟨id, request, secret, hreq, hp, hans⟩ := hi.executed name board hb hprov e he
    obtain ⟨-, ⟨token, htoken, ho⟩, -⟩ := hi.requested id request hreq
    obtain ⟨row, hrow, hasked⟩ := row_of_published ho hp
    have hdevice : row.asked.deviceId = request.deviceId := congrArg Commands.Command.deviceId hasked
    have hname : row.asked.name = "platform_exec:" ++ request.capability := congrArg Commands.Command.name hasked
    have hinput : row.asked.input = redactInput request.input := congrArg Commands.Command.input hasked
    refine ⟨id, request, row, hreq, validated_of_prepare htoken, hans.device_id, hans.capability, hans.input,
      hans.nonce, hans.time.1, hans.time.2, hp, hrow, hdevice.trans hans.device_id, ?_, hinput⟩
    rw [hans.capability]
    exact hname
  · exact ((hi.boards name board hb).spaced k).gap hexec ((kept_of_short hshort).trans (congrArg utf16 hnonce))

end Fleet

def sampleRequest : Request where
  deviceId := "ecda3b4ff7d4"
  capability := "list_agents"
  input := .empty
  actor := some "id-a"
  nowSeconds := 1780000000
  nonce := sampleArgs.nonce

def sampleConfig : Config where
  runtime := sampleRuntime
  masterKey := some (List.replicate 32 0)
  mqtt := { defaultBaseTopic := "espclaw", parse := sampleParse }

theorem prepare_sampleRequest : prepare sampleConfig sampleRequest = .ok (sampleArgs.token sampleRuntime) := by
  have hsize : ¬ (utf8 (sampleRuntime.stringify sampleArgs.payload)).length > PAYLOAD_MAX_BYTES := by
    rw [show PAYLOAD_MAX_BYTES = PAYLOAD_MAX from rfl]
    exact Nat.not_lt.mpr sample_size
  have hsign : signPlatformToken sampleRuntime sampleArgs = .ok (sampleArgs.token sampleRuntime) := by
    rw [sign_eq (by decide), if_neg hsize]
  have hvalid : validatePrivilegedInput sampleRequest.capability sampleRequest.input = .ok () := if_pos (by decide)
  have hsecret : deriveDeviceSecret sampleRuntime (List.replicate 32 0) sampleRequest.deviceId =
      .ok sampleArgs.secret := by
    rw [deriveDeviceSecret, if_neg (by decide), if_neg (by decide)]
    rfl
  exact prepare_of_sign hvalid rfl hsecret hsign

def sampleModels : Table (String × FirmwareModel) := Table.empty.set "board-1" sampleDevice

def sampleBoard : Board := { model := sampleDevice }

def sampleBoards : Table (String × Board) := Table.empty.set "board-1" sampleBoard

def requestedFleet : Fleet where
  platform :=
    ({ init true with
      commands :=
        { Commands.init true with
          devices := Table.empty.save { id := "ecda3b4ff7d4", baseTopic := "espclaw" } } } : State).dispatched "c1"
      (sampleArgs.token sampleRuntime) sampleRequest
  boards := sampleBoards
  requested := Table.empty.set "c1" sampleRequest

def requesting : List FleetAction :=
  [.platform (.commands (.registry (Table.empty.save { id := "ecda3b4ff7d4", baseTopic := "espclaw" }))),
    .platform (.execute "c1" sampleRequest)]

def publishing : List FleetAction :=
  [.platform (.commands (.commit "c1")), .platform (.commands (.resume "c1")), .platform (.commands (.commit "c1")),
    .platform (.commands (.resume "c1"))]

def executedBoard : Board := sampleBoard.present sampleRuntime sampleParse sampleToken 1780000000

def sampleExecution : Execution where
  grant := { capability := "list_agents", input := .obj [], nonce := sampleArgs.nonce }
  boots := 0
  nowSeconds := 1780000000

theorem executedBoard_eq : executedBoard =
    { model := sampleDevice.remember sampleArgs.nonce, executed := [sampleExecution] } := by
  have hgrant : sampleBoard.model.grant sampleRuntime sampleParse sampleToken 1780000000 = _ := sample_grant
  rw [executedBoard, present_of_grant hgrant]
  rfl

def presenting : FleetAction := .present "board-1" sampleToken 1780000000

theorem requesting_runs : run (Fleet.step sampleConfig) (Fleet.init true sampleModels) requesting =
    some requestedFleet := by
  have hregistry : (Fleet.init true sampleModels).step sampleConfig
      (.platform (.commands (.registry (Table.empty.save { id := "ecda3b4ff7d4", baseTopic := "espclaw" })))) =
      some _ := rfl
  refine run_cons.mpr ⟨_, hregistry, run_singleton.mpr ?_⟩
  rw [Fleet.step, execute_eq (by decide) prepare_sampleRequest (by decide), Option.map_some]
  have hsigns : sampleRequest.signs sampleConfig = true := by
    rw [Request.signs, prepare_sampleRequest]
    decide
  rw [Fleet.record, if_pos hsigns]
  rfl

theorem authenticated_sampleToken (segment : String)
    (h : sampleDevice.authenticated sampleRuntime sampleToken = some segment) :
    segment = sampleArgs.segment sampleRuntime := by
  have hparse : sampleRuntime.stringify sampleArgs.payload ≠ "" := by decide
  have hsplit := splitToken_token (fun _ _ => rfl) hparse
  simp only [FirmwareModel.authenticated, sampleToken, Option.getD_some, hsplit, bind, Option.bind_some,
    Option.bind_eq_some_iff] at h
  obtain ⟨secret, -, sig, -, h⟩ := h
  split at h
  · exact (Option.some.inj h).symm
  · cases h

theorem sample_reads : ReadsBack sampleConfig (.platform (.execute "c1" sampleRequest)) := by
  intro secret
  have hpayload : (sampleRequest.args secret).payload = sampleArgs.payload := rfl
  have hback : sampleArgs.payload.readBack = sampleArgs.payload := rfl
  have hconfig : sampleConfig.mqtt.parse = sampleParse := rfl
  have hruntime : sampleConfig.runtime = sampleRuntime := rfl
  rw [hpayload, hback, hconfig, hruntime, sample_parsed]

theorem publishing_publishes : ∃ u ∈ run (Fleet.step sampleConfig) requestedFleet publishing,
    u.platform.commands.published "c1" ∧ u.requested.get "c1" = some sampleRequest ∧
      u.boards.get "board-1" = some sampleBoard := by
  decide +kernel

theorem requested_operation_is_executed : ∃ s, run (Fleet.step sampleConfig) (Fleet.init true sampleModels)
      (requesting ++ publishing ++ [presenting]) = some s ∧ s.boards.get "board-1" = some executedBoard ∧
    ∃ e ∈ executedBoard.executed, ∃ id row, s.platform.commands.published id ∧
      s.platform.commands.commands.find id = some row ∧ row.name = "platform_exec:" ++ e.grant.capability := by
  obtain ⟨u, hu, hp, hreq, hb⟩ := publishing_publishes
  have hrun : run (Fleet.step sampleConfig) (Fleet.init true sampleModels) (requesting ++ publishing) = some u :=
    run_append.mpr ⟨requestedFleet, requesting_runs, hu⟩
  have hpresent : u.step sampleConfig presenting =
      some { u with boards := u.boards.set "board-1" executedBoard } := by
    rw [presenting, Fleet.step, hb]
    rfl
  have hall : run (Fleet.step sampleConfig) (Fleet.init true sampleModels)
      (requesting ++ publishing ++ [presenting]) = some { u with boards := u.boards.set "board-1" executedBoard } :=
    run_append.mpr ⟨u, hrun, run_singleton.mpr hpresent⟩
  have hread : ∀ a ∈ requesting ++ publishing ++ [presenting], ReadsBack sampleConfig a := by
    intro a ha
    simp only [requesting, publishing, presenting, List.cons_append, List.nil_append, List.mem_cons,
      List.not_mem_nil, or_false] at ha
    rcases ha with rfl | rfl | rfl | rfl | rfl | rfl | rfl
    · trivial
    · exact sample_reads
    · trivial
    · trivial
    · trivial
    · trivial
    · trivial
  have hforge : Along (Fleet.step sampleConfig) (Unforged sampleConfig) (Fleet.init true sampleModels)
      (requesting ++ publishing ++ [presenting]) := by
    refine (along_append hrun).mpr ⟨along_of_mem (fun a ha s => ?_) _, (along_cons hpresent).mpr ⟨?_, trivial⟩⟩
    · simp only [requesting, publishing, List.cons_append, List.nil_append, List.mem_cons, List.not_mem_nil,
        or_false] at ha
      rcases ha with rfl | rfl | rfl | rfl | rfl | rfl <;> trivial
    · intro board segment hboard _ hauth
      obtain rfl := Option.some.inj (hb.symm.trans hboard)
      exact ⟨"c1", sampleRequest, sampleArgs.secret, hreq, hp, (authenticated_sampleToken segment hauth).symm⟩
  have hget := Table.get_set_self u.boards "board-1" executedBoard
  have hprov : Provisioned sampleConfig executedBoard.model := by
    rw [executedBoard_eq]
    exact ⟨List.replicate 32 0, sampleArgs.secret, rfl, rfl, rfl⟩
  have hmem : sampleExecution ∈ executedBoard.executed := by
    rw [executedBoard_eq]
    exact List.mem_singleton_self _
  obtain ⟨hrequested, -⟩ := executions_are_requested hall hread hforge hget hprov
  obtain ⟨id, request, row, -, -, -, -, -, -, -, -, hpublished, hrow, -, hname, -⟩ := hrequested _ hmem
  exact ⟨_, hall, hget, _, hmem, id, row, hpublished, hrow, hname⟩

end EspClawPlatform.Provisioning
