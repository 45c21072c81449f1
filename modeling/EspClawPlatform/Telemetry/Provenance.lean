import EspClawPlatform.Commands.Answered
import EspClawPlatform.Telemetry.Agreement
import EspClawPlatform.Telemetry.PollCycle

namespace EspClawPlatform.Telemetry

open Run Bus
open Commands (AnswerInv OnRecord)

def POLL_COMMAND_TIMEOUT_MS : Nat := 8000

/-- The call of `dispatch` in `pollOne`; a timer calls back outside of any request. -/
def pollCall (pair : Pair) (correlation : String) (failure : Option String) : Commands.Call where
  deviceId := pair.1
  input := { name := pair.2.capability, timeoutMs := some POLL_COMMAND_TIMEOUT_MS }
  correlation := correlation
  failure := failure

/-- What one poll has put into the table, with the id of its command. -/
structure Snapshot where
  id : String
  pair : Pair
  recordedAt : Nat
  result : Option String
  deriving DecidableEq

def Snapshot.rows (parse : String → Option Json) (x : Snapshot) : List TelemetrySample :=
  (extractSamples parse x.result).map fun sample =>
    (sample.row x.pair.1 x.pair.2.capability x.recordedAt).held

def Snapshot.published (parse : String → Option Json) (x : Snapshot) : List Published :=
  updated parse x.pair (extractSamples parse x.result).length x.result

/-- The poller and the commands it dispatches, in one process. `awaited` is the
command that a call of `pollOnce` has dispatched last, and `taken` keeps what
has been recorded, oldest first. -/
structure Station where
  poller : State
  commands : Commands.State
  awaited : Table (Nat × String) := .empty
  taken : List Snapshot := []

/-- `ask` goes from the answer of `hasCapabilityGroup` to the first await of
`dispatch`, and `answer` takes up what `dispatch` has come to. -/
inductive StationAction
  | tick (ms : Nat)
  | poller (action : Action)
  | ask (call : Nat) (pair : Pair) (id correlation : String) (failure : Option String)
  | answer (call : Nat)
  | commands (action : Commands.Action)

def State.dispatching (s : State) (call : Nat) : Bool :=
  match s.frames.get call with
  | some (.dispatching ..) => true
  | _ => false

def State.alone (s : State) : Action → Bool
  | .tick _ | .hasGroup _ true | .response .. => false
  | .rejected call _ => !s.dispatching call
  | _ => true

def apart (action : Commands.Action) : Bool := action.ticks = 0 && !action.restarts

def reply (call : Nat) : Except String Commands.DispatchOutcome → Action
  | .ok outcome => .response call outcome.result.ok outcome.result.result
  | .error message => .rejected call (.error message)

def Station.takes (s : Station) : Action → List Snapshot
  | .recorded call =>
      match s.poller.frames.get call, s.awaited.get call with
      | some (.recording pair recordedAt result _), some id =>
          [{ id := id, pair := pair, recordedAt := recordedAt, result := result }]
      | _, _ => []
  | _ => []

def Station.step (config : Mqtt.Config) (s : Station) : StationAction → Option Station
  | .tick ms => do
      let poller ← Telemetry.step config.parse s.poller (.tick ms)
      let commands ← Commands.step config s.commands (.mqtt (.tick ms))
      some { s with poller := poller, commands := commands }
  | .poller action =>
      if s.poller.alone action then
        (Telemetry.step config.parse s.poller action).map fun poller =>
          { s with poller := poller, taken := s.taken ++ s.takes action }
      else none
  | .ask call pair id correlation failure =>
      match s.poller.frames.get call with
      | some (.asking next _) =>
          if next = pair then do
            let poller ← Telemetry.step config.parse s.poller (.hasGroup call true)
            let commands ← Commands.step config s.commands (.dispatch id (pollCall pair correlation failure))
            some { s with poller := poller, commands := commands, awaited := s.awaited.set call id }
          else none
      | _ => none
  | .answer call =>
      if s.poller.dispatching call then do
        let id ← s.awaited.get call
        let outcome ← s.commands.outcomes.get id
        let poller ← Telemetry.step config.parse s.poller (reply call outcome)
        some { s with poller := poller }
      else none
  | .commands action =>
      if apart action then
        (Commands.step config s.commands action).map fun commands => { s with commands := commands }
      else none

def Station.init (commands : Commands.State) (telemetry : Table TelemetrySample) : Station where
  poller := { now := commands.now, telemetry := telemetry }
  commands := commands

def heard : StationAction → Option Commands.Action
  | .tick ms => some (.mqtt (.tick ms))
  | .ask _ pair id correlation failure => some (.dispatch id (pollCall pair correlation failure))
  | .commands action => some action
  | .poller _ | .answer _ => none

section Poller

variable {parse : String → Option Json} {s t : State} {call : Nat}

def Frame.idle : Frame → Bool
  | .finding | .asking .. => true
  | .dispatching .. | .recording .. => false

structure Turned (s t : State) : Prop where
  now : t.now = s.now
  frames : ∀ call f, t.frames.get call = some f → s.frames.get call = some f ∨ f.idle = true

theorem turned_finish (promise : PromiseState) : Turned s (s.finish call promise) where
  now := rfl
  frames := by
    intro other f hf
    rw [State.finish, Table.get_erase] at hf
    split at hf
    · cases hf
    · exact .inl hf

theorem turned_next (s : State) (call : Nat) (rest : List Pair) : Turned s (s.next call rest) := by
  cases rest with
  | nil => exact turned_finish .fulfilled
  | cons pair rest =>
      refine ⟨rfl, fun other f hf => ?_⟩
      rw [State.next, Table.get_set] at hf
      split at hf
      · obtain rfl := Option.some.inj hf
        exact .inr rfl
      · exact .inl hf

theorem turned_rejected {f : Frame} (value : Thrown) : Turned s (f.rejected s call value) := by
  rw [rejected_eq]
  split
  · exact turned_finish .rejected
  · exact turned_next s call _

theorem alone_step {a : Action} (ha : s.alone a = true) (h : step parse s a = some t) :
    Turned s t ∧ ((∀ call, a ≠ .recorded call) → t.telemetry = s.telemetry ∧ t.events = s.events) := by
  cases poll_move h with
  | tick => cases ha
  | pollOnce ht =>
      obtain rfl := Option.some.inj ht
      split
      · exact ⟨⟨rfl, fun _ _ hf => .inl hf⟩, fun _ => ⟨rfl, rfl⟩⟩
      · refine ⟨⟨rfl, fun other f hf => ?_⟩, fun _ => ⟨rfl, rfl⟩⟩
        rw [Table.get_set] at hf
        split at hf
        · obtain rfl := Option.some.inj hf
          exact .inr rfl
        · exact .inl hf
  | online call devices hf ht =>
      subst ht
      have hturned := turned_next (s.record call fun c => { c with online := some devices }) call
        (pollPairs devices)
      exact ⟨⟨hturned.now, hturned.frames⟩, fun _ => next_keeps _ call _⟩
  | has => cases ha
  | hasNot call pair rest hf ht =>
      subst ht
      have hturned := turned_next (s.record call fun c => { c with answers := c.answers ++ [(pair, false)] })
        call rest
      exact ⟨⟨hturned.now, hturned.frames⟩, fun _ => next_keeps _ call _⟩
  | response => cases ha
  | recorded call pair recordedAt result rest hf telemetry events ht =>
      subst ht
      have hturned := turned_next { s with telemetry := telemetry, events := events } call rest
      exact ⟨⟨hturned.now, hturned.frames⟩, fun hother => absurd rfl (hother call)⟩
  | rejected call value f hf ht =>
      subst ht
      refine ⟨turned_rejected value, fun _ => ?_⟩
      rw [rejected_eq]
      split
      · exact ⟨rfl, rfl⟩
      · exact next_keeps s call _

theorem recorded_step {x : Snapshot} {rest : List Pair}
    (hf : s.frames.get call = some (.recording x.pair x.recordedAt x.result rest))
    (h : step parse s (.recorded call) = some t) :
    t.telemetry.rows = s.telemetry.rows ++ x.rows parse ∧ t.events = s.events ++ x.published parse := by
  simp only [step, hf, recordCapabilityResult_eq, Option.map_map] at h
  obtain ⟨stored, hstored, rfl⟩ := Option.map_eq_some_iff.mp h
  constructor
  · have hrows := rows_insert hstored
    rw [List.map_map] at hrows
    exact (congrArg Table.rows (next_keeps _ call rest).1).trans hrows
  · exact (next_keeps _ call rest).2

section Alone

variable {pair : Pair} {rest : List Pair} {g : Frame}

theorem idle_next (hi : PollInv s) (hf : s.frames.get call = some g) (rest : List Pair) :
    ∀ other f, (s.next call rest).frames.get other = some f → f.idle = true := by
  intro other f h
  by_cases hother : other = call
  · subst hother
    cases rest with
    | nil =>
        rw [State.next, State.finish, Table.get_erase_self] at h
        cases h
    | cons pair rest =>
        rw [State.next, Table.get_set_self] at h
        obtain rfl := Option.some.inj h
        rfl
  · rcases (turned_next s call rest).frames other f h with hold | hidle
    · exact absurd (hi.core.one other f call g hold hf) hother
    · exact hidle

theorem has_step (hi : PollInv s) (hf : s.frames.get call = some (.asking pair rest))
    (h : step parse s (.hasGroup call true) = some t) :
    t.now = s.now ∧ t.telemetry = s.telemetry ∧ t.events = s.events ∧
      ∀ other f, t.frames.get other = some f → other = call ∧ f = .dispatching pair rest := by
  cases poll_move h with
  | has _ pair' rest' hf' ht =>
      cases hf.symm.trans hf'
      subst ht
      refine ⟨rfl, rfl, rfl, fun other f hother => ?_⟩
      rw [Table.get_set] at hother
      split at hother
      · rename_i he
        exact ⟨he, (Option.some.inj hother).symm⟩
      · rename_i hne
        exact absurd (hi.core.one other f call _ hother hf) hne

theorem reply_step {outcome : Except String Commands.DispatchOutcome} (hi : PollInv s)
    (hf : s.frames.get call = some (.dispatching pair rest)) (h : step parse s (reply call outcome) = some t) :
    t.now = s.now ∧ t.telemetry = s.telemetry ∧ t.events = s.events ∧
      ∀ other f, t.frames.get other = some f → f.idle = true ∨ ∃ o, outcome = .ok o ∧ o.result.ok = true ∧
        other = call ∧ f = .recording pair s.now o.result.result rest := by
  have hnext : (s.next call rest).now = s.now ∧ (s.next call rest).telemetry = s.telemetry ∧
      (s.next call rest).events = s.events ∧
      ∀ other f, (s.next call rest).frames.get other = some f → f.idle = true :=
    ⟨(turned_next s call rest).now, (next_keeps s call rest).1, (next_keeps s call rest).2, idle_next hi hf rest⟩
  cases outcome with
  | error message =>
      obtain ⟨f, hf', rfl⟩ := Option.map_eq_some_iff.mp h
      obtain rfl := Option.some.inj (hf.symm.trans hf')
      obtain ⟨hnow, htelemetry, hevents, hidle⟩ := hnext
      exact ⟨hnow, htelemetry, hevents, fun other f hother => .inl (hidle other f hother)⟩
  | ok o =>
      cases poll_move h with
      | response _ _ _ pair' rest' hf' ht =>
          cases hf.symm.trans hf'
          subst ht
          split
          · rename_i hok
            refine ⟨rfl, rfl, rfl, fun other f hother => .inr ⟨o, rfl, hok, ?_⟩⟩
            rw [Table.get_set] at hother
            split at hother
            · rename_i he
              exact ⟨he, (Option.some.inj hother).symm⟩
            · rename_i hne
              exact absurd (hi.core.one other f call _ hother hf) hne
          · obtain ⟨hnow, htelemetry, hevents, hidle⟩ := hnext
            exact ⟨hnow, htelemetry, hevents, fun other f hother => .inl (hidle other f hother)⟩

theorem idle_recorded (hi : PollInv s) (h : step parse s (.recorded call) = some t) :
    ∀ other f, t.frames.get other = some f → f.idle = true := by
  cases poll_move h with
  | recorded _ pair recordedAt result rest hf telemetry events ht =>
      subst ht
      intro other f hother
      have hsame : ({ s with telemetry := telemetry, events := events }.next call rest).frames =
          (s.next call rest).frames := by
        cases rest <;> rfl
      rw [hsame] at hother
      exact idle_next hi hf rest other f hother

end Alone

theorem target_of_asking {pair : Pair} {rest : List Pair} (hi : PollInv s)
    (hf : s.frames.get call = some (.asking pair rest)) : pair.2 ∈ POLL_TARGETS := by
  obtain ⟨c, -, hfollows⟩ := hi.active call _ hf
  obtain ⟨devices, -, hpairs⟩ := Option.map_eq_some_iff.mp hfollows.pairs
  have hmem : pair ∈ pollPairs devices := by
    rw [hpairs]
    exact List.mem_append_right _ List.mem_cons_self
  obtain ⟨device, -, hpair⟩ := List.mem_flatMap.mp hmem
  obtain ⟨target, htarget, rfl⟩ := List.mem_map.mp hpair
  exact htarget

end Poller

section Station

variable {config : Mqtt.Config} {s t : Station} {as : List StationAction} {commands : Commands.State}
  {id : String} {pair : Pair} {result : Option String} {recordedAt : Nat}

structure Asked (as : List StationAction) (commands : Commands.State) (id : String) (pair : Pair) : Prop where
  target : pair.2 ∈ POLL_TARGETS
  record : ∃ call correlation failure, .ask call pair id correlation failure ∈ as ∧
    OnRecord id (pollCall pair correlation failure) commands

def Returned (commands : Commands.State) (id : String) (result : Option String) (recordedAt : Nat) : Prop :=
  ∃ o, commands.outcomes.get id = some (.ok o) ∧ o.result.ok = true ∧ o.result.result = result ∧
    o.result.receivedAt ≤ recordedAt

def Frame.Backed (as : List StationAction) (s : Station) (call : Nat) : Frame → Prop
  | .finding | .asking .. => True
  | .dispatching pair _ =>
      ∃ id, s.awaited.get call = some id ∧ id ∉ s.taken.map Snapshot.id ∧ Asked as s.commands id pair
  | .recording pair recordedAt result _ =>
      ∃ id, s.awaited.get call = some id ∧ id ∉ s.taken.map Snapshot.id ∧ Asked as s.commands id pair ∧
        Returned s.commands id result recordedAt ∧ recordedAt ≤ s.poller.now ∧
        ∀ x ∈ s.taken, x.recordedAt ≤ recordedAt

structure StationInv (config : Mqtt.Config) (pre : List Commands.Action) (earlier : Table TelemetrySample)
    (as : List StationAction) (s : Station) : Prop where
  poll : PollInv s.poller
  clock : s.poller.now = s.commands.now
  answers : AnswerInv config (pre ++ as.filterMap heard) s.commands
  frames : ∀ call f, s.poller.frames.get call = some f → f.Backed as s call
  taken : ∀ x ∈ s.taken, Asked as s.commands x.id x.pair ∧ Returned s.commands x.id x.result x.recordedAt ∧
    x.recordedAt ≤ s.poller.now
  once : (s.taken.map Snapshot.id).Nodup
  ordered : s.taken.Pairwise fun x y => x.recordedAt ≤ y.recordedAt
  rows : s.poller.telemetry.rows = earlier.rows ++ s.taken.flatMap (Snapshot.rows config.parse)
  events : s.poller.events = s.taken.flatMap (Snapshot.published config.parse)

theorem Asked.later (h : Asked as commands id pair) (bs : List StationAction) : Asked (as ++ bs) commands id pair where
  target := h.target
  record := by
    obtain ⟨call, correlation, failure, hmem, ho⟩ := h.record
    exact ⟨call, correlation, failure, List.mem_append_left bs hmem, ho⟩

def Moved (config : Mqtt.Config) (c d : Commands.State) : Prop :=
  d = c ∨ ∃ a, Commands.step config c a = some d

section Moved

variable {moved : Commands.State}

theorem asked_moved (hi : Commands.CompletionInv commands) (ha : Asked as commands id pair)
    (h : Moved config commands moved) : Asked as moved id pair := by
  rcases h with rfl | ⟨a, h⟩
  · exact ha
  · obtain ⟨htarget, call, correlation, failure, hmem, ho⟩ := ha
    exact ⟨htarget, call, correlation, failure, hmem, Commands.onRecord_step hi ho h⟩

theorem returned_moved (hi : Commands.OutcomeInv commands) (hr : Returned commands id result recordedAt)
    (h : Moved config commands moved) : Returned moved id result recordedAt := by
  rcases h with rfl | ⟨a, h⟩
  · exact hr
  · obtain ⟨o, ho, hrest⟩ := hr
    exact ⟨o, (Commands.outcome_kept hi h ho).1, hrest⟩

end Moved

structure Spares (config : Mqtt.Config) (s t : Station) : Prop where
  commands : Moved config s.commands t.commands
  taken : t.taken = s.taken
  now : s.poller.now ≤ t.poller.now

section Spares

variable {pre : List Commands.Action} {earlier : Table TelemetrySample} {call : Nat}

theorem backed_of_idle {f : Frame} (h : f.idle = true) : f.Backed as s call := by
  cases f with
  | finding | asking => trivial
  | dispatching | recording => cases h

theorem backed_spared {f : Frame} (hi : StationInv config pre earlier as s) (h : Spares config s t)
    (haw : t.awaited.get call = s.awaited.get call) (hf : f.Backed as s call) (b : StationAction) :
    f.Backed (as ++ [b]) t call := by
  cases f with
  | finding | asking => trivial
  | dispatching pair rest =>
      obtain ⟨id, hid, hfresh, hasked⟩ := hf
      exact ⟨id, haw.trans hid, h.taken ▸ hfresh,
        (asked_moved hi.answers.wire.completion hasked h.commands).later [b]⟩
  | recording pair recordedAt result rest =>
      obtain ⟨id, hid, hfresh, hasked, hreturned, hnow, hlast⟩ := hf
      exact ⟨id, haw.trans hid, h.taken ▸ hfresh,
        (asked_moved hi.answers.wire.completion hasked h.commands).later [b],
        returned_moved hi.answers.wire.outcomes hreturned h.commands, Nat.le_trans hnow h.now, h.taken ▸ hlast⟩

theorem taken_spared (hi : StationInv config pre earlier as s) (h : Spares config s t) (b : StationAction) :
    ∀ x ∈ t.taken, Asked (as ++ [b]) t.commands x.id x.pair ∧ Returned t.commands x.id x.result x.recordedAt ∧
      x.recordedAt ≤ t.poller.now := by
  intro x hx
  obtain ⟨hasked, hreturned, hnow⟩ := hi.taken x (h.taken ▸ hx)
  exact ⟨(asked_moved hi.answers.wire.completion hasked h.commands).later [b],
    returned_moved hi.answers.wire.outcomes hreturned h.commands, Nat.le_trans hnow h.now⟩

theorem stationInv_spared {b : StationAction} (hi : StationInv config pre earlier as s) (h : Spares config s t)
    (hpoll : PollInv t.poller) (hclock : t.poller.now = t.commands.now)
    (hanswers : AnswerInv config (pre ++ (as ++ [b]).filterMap heard) t.commands)
    (hframes : ∀ call f, t.poller.frames.get call = some f → f.Backed (as ++ [b]) t call)
    (htelemetry : t.poller.telemetry = s.poller.telemetry) (hevents : t.poller.events = s.poller.events) :
    StationInv config pre earlier (as ++ [b]) t where
  poll := hpoll
  clock := hclock
  answers := hanswers
  frames := hframes
  taken := taken_spared hi h b
  once := h.taken ▸ hi.once
  ordered := h.taken ▸ hi.ordered
  rows := by rw [htelemetry, h.taken]; exact hi.rows
  events := by rw [hevents, h.taken]; exact hi.events

end Spares

inductive StationMove (config : Mqtt.Config) (s : Station) : StationAction → Station → Prop
  | tick {ms : Nat} {poller : State} {commands : Commands.State}
      (hp : Telemetry.step config.parse s.poller (.tick ms) = some poller)
      (hc : Commands.step config s.commands (.mqtt (.tick ms)) = some commands) :
      StationMove config s (.tick ms) { s with poller := poller, commands := commands }
  | poller {action : Action} {poller : State} (ha : s.poller.alone action = true)
      (hp : Telemetry.step config.parse s.poller action = some poller) :
      StationMove config s (.poller action) { s with poller := poller, taken := s.taken ++ s.takes action }
  | ask {call : Nat} {pair : Pair} {rest : List Pair} {id correlation : String} {failure : Option String}
      {poller : State} {commands : Commands.State} (hf : s.poller.frames.get call = some (.asking pair rest))
      (hp : Telemetry.step config.parse s.poller (.hasGroup call true) = some poller)
      (hc : Commands.step config s.commands (.dispatch id (pollCall pair correlation failure)) = some commands) :
      StationMove config s (.ask call pair id correlation failure)
        { s with poller := poller, commands := commands, awaited := s.awaited.set call id }
  | answer {call : Nat} {pair : Pair} {rest : List Pair} {id : String}
      {outcome : Except String Commands.DispatchOutcome} {poller : State}
      (hf : s.poller.frames.get call = some (.dispatching pair rest)) (hid : s.awaited.get call = some id)
      (ho : s.commands.outcomes.get id = some outcome)
      (hp : Telemetry.step config.parse s.poller (reply call outcome) = some poller) :
      StationMove config s (.answer call) { s with poller := poller }
  | commands {action : Commands.Action} {commands : Commands.State} (ha : apart action = true)
      (hc : Commands.step config s.commands action = some commands) :
      StationMove config s (.commands action) { s with commands := commands }

theorem station_move {b : StationAction} (h : s.step config b = some t) : StationMove config s b t := by
  cases b with
  | tick ms =>
      simp only [Station.step, Option.bind_eq_bind] at h
      obtain ⟨poller, hp, h⟩ := Option.bind_eq_some_iff.mp h
      obtain ⟨commands, hc, h⟩ := Option.bind_eq_some_iff.mp h
      cases h
      exact .tick hp hc
  | poller action =>
      simp only [Station.step] at h
      split at h
      · rename_i ha
        obtain ⟨poller, hp, rfl⟩ := Option.map_eq_some_iff.mp h
        exact .poller ha hp
      · cases h
  | ask call pair id correlation failure =>
      simp only [Station.step, Option.bind_eq_bind] at h
      split at h
      · rename_i next rest hf
        split at h
        · rename_i hnext
          subst hnext
          obtain ⟨poller, hp, h⟩ := Option.bind_eq_some_iff.mp h
          obtain ⟨commands, hc, h⟩ := Option.bind_eq_some_iff.mp h
          cases h
          exact .ask hf hp hc
        · cases h
      · cases h
  | answer call =>
      simp only [Station.step, Option.bind_eq_bind] at h
      split at h
      · rename_i hdispatching
        obtain ⟨id, hid, h⟩ := Option.bind_eq_some_iff.mp h
        obtain ⟨outcome, ho, h⟩ := Option.bind_eq_some_iff.mp h
        obtain ⟨poller, hp, h⟩ := Option.bind_eq_some_iff.mp h
        cases h
        rw [State.dispatching] at hdispatching
        split at hdispatching
        · rename_i hf
          exact .answer hf hid ho hp
        · cases hdispatching
      · cases h
  | commands action =>
      simp only [Station.step] at h
      split at h
      · rename_i ha
        obtain ⟨commands, hc, rfl⟩ := Option.map_eq_some_iff.mp h
        exact .commands ha hc
      · cases h

theorem commands_step {b : StationAction} (h : StationMove config s b t) :
    heard b = none ∧ t.commands = s.commands ∨
      ∃ a, heard b = some a ∧ Commands.step config s.commands a = some t.commands := by
  cases h with
  | tick _ hc => exact .inr ⟨_, rfl, hc⟩
  | poller => exact .inl ⟨rfl, rfl⟩
  | ask _ _ hc => exact .inr ⟨_, rfl, hc⟩
  | answer => exact .inl ⟨rfl, rfl⟩
  | commands _ hc => exact .inr ⟨_, rfl, hc⟩

theorem moved_step {b : StationAction} (h : StationMove config s b t) : Moved config s.commands t.commands := by
  rcases commands_step h with ⟨-, hc⟩ | ⟨a, -, hc⟩
  · exact .inl hc
  · exact .inr ⟨a, hc⟩

theorem poll_step {b : StationAction} (hi : PollInv s.poller) (h : StationMove config s b t) : PollInv t.poller := by
  cases h with
  | tick hp => exact pollInv_step hi hp
  | poller _ hp => exact pollInv_step hi hp
  | ask _ hp => exact pollInv_step hi hp
  | answer _ _ _ hp => exact pollInv_step hi hp
  | commands => exact hi

theorem clock_step {b : StationAction} (hi : PollInv s.poller) (hclock : s.poller.now = s.commands.now)
    (h : StationMove config s b t) : t.poller.now = t.commands.now := by
  cases h with
  | tick hp hc =>
      cases hp
      rw [Commands.now_step hc]
      exact congrArg (· + _) hclock
  | poller ha hp => exact (alone_step ha hp).1.now.trans hclock
  | ask hf hp hc =>
      rw [Commands.now_step hc]
      exact (has_step hi hf hp).1.trans hclock
  | answer hf _ _ hp => exact (reply_step hi hf hp).1.trans hclock
  | commands ha hc =>
      rw [apart, Bool.and_eq_true, decide_eq_true_eq] at ha
      rw [Commands.now_step hc, ha.1]
      exact hclock

theorem answers_step {pre : List Commands.Action} {b : StationAction}
    (hi : AnswerInv config (pre ++ as.filterMap heard) s.commands) (h : StationMove config s b t) :
    AnswerInv config (pre ++ (as ++ [b]).filterMap heard) t.commands := by
  rw [List.filterMap_append]
  rcases commands_step h with ⟨hb, hc⟩ | ⟨a, hb, hc⟩
  · rw [hc, List.filterMap_cons_none hb, List.filterMap_nil, List.append_nil]
    exact hi
  · rw [List.filterMap_cons_some hb, List.filterMap_nil, ← List.append_assoc]
    exact Commands.answerInv_step hi hc

section Steps

variable {pre : List Commands.Action} {earlier : Table TelemetrySample} {b : StationAction}

theorem fresh_asked {correlation : String} {failure : Option String} {moved : Commands.State}
    (hi : StationInv config pre earlier as s)
    (hc : Commands.step config s.commands (.dispatch id (pollCall pair correlation failure)) = some moved) :
    id ∉ s.taken.map Snapshot.id := by
  have hnew : id ∉ s.commands.drawn := by
    intro hdrawn
    rw [Commands.step, Commands.State.dispatch, if_pos hdrawn] at hc
    cases hc
  rintro hmem
  obtain ⟨x, hx, rfl⟩ := List.mem_map.mp hmem
  obtain ⟨⟨-, _, _, _, -, ho⟩, -⟩ := hi.taken x hx
  exact hnew ho.drawn

theorem stationInv_recorded {call : Nat} {poller : State} (hi : StationInv config pre earlier as s)
    (h : StationMove config s (.poller (.recorded call))
      { s with poller := poller, taken := s.taken ++ s.takes (.recorded call) })
    (hp : Telemetry.step config.parse s.poller (.recorded call) = some poller) :
    StationInv config pre earlier (as ++ [.poller (.recorded call)])
      { s with poller := poller, taken := s.taken ++ s.takes (.recorded call) } := by
  have hidle := idle_recorded hi.poll hp
  have hnow := (alone_step rfl hp).1.now
  have hclock := clock_step hi.poll hi.clock h
  have hanswers := answers_step hi.answers h
  cases poll_move hp with
  | recorded _ pair recordedAt result rest hf =>
      obtain ⟨id, hid, hfresh, hasked, hreturned, hle, hlast⟩ := hi.frames call _ hf
      let x : Snapshot := { id := id, pair := pair, recordedAt := recordedAt, result := result }
      have htakes : s.takes (.recorded call) = [x] := by
        simp only [Station.takes, hf, hid, x]
      obtain ⟨hrows, hevents⟩ : poller.telemetry.rows = s.poller.telemetry.rows ++ x.rows config.parse ∧
          poller.events = s.poller.events ++ x.published config.parse := recorded_step hf hp
      rw [htakes]
      refine ⟨pollInv_step hi.poll hp, hclock, hanswers, fun other f hother => backed_of_idle (hidle other f hother),
        fun y hy => ?_, ?_, ?_, ?_, ?_⟩
      · rcases List.mem_append.mp hy with hy | hy
        · obtain ⟨hyasked, hyreturned, hyle⟩ := hi.taken y hy
          exact ⟨hyasked.later _, hyreturned, hnow.symm ▸ hyle⟩
        · obtain rfl := List.mem_singleton.mp hy
          exact ⟨hasked.later _, hreturned, hnow.symm ▸ hle⟩
      · rw [List.map_append, List.nodup_append]
        refine ⟨hi.once, List.nodup_singleton _, fun i hmem j hj => ?_⟩
        obtain rfl := List.mem_singleton.mp hj
        exact fun he => hfresh (he ▸ hmem)
      · rw [List.pairwise_append]
        refine ⟨hi.ordered, List.pairwise_singleton _ _, fun y hy z hz => ?_⟩
        obtain rfl := List.mem_singleton.mp hz
        exact hlast y hy
      · rw [List.flatMap_append, List.flatMap_singleton, ← List.append_assoc, ← hi.rows]
        exact hrows
      · rw [List.flatMap_append, List.flatMap_singleton, ← hi.events]
        exact hevents

theorem stationInv_step (hi : StationInv config pre earlier as s) (h : s.step config b = some t) :
    StationInv config pre earlier (as ++ [b]) t := by
  have hmove := station_move h
  have hpoll := poll_step hi.poll hmove
  have hclock := clock_step hi.poll hi.clock hmove
  have hanswers := answers_step hi.answers hmove
  have hmoved := moved_step hmove
  cases hmove with
  | tick hp hc =>
      cases hp
      have hspares : Spares config s _ := ⟨hmoved, rfl, Nat.le_add_right _ _⟩
      refine stationInv_spared hi hspares hpoll hclock hanswers (fun call f hf => ?_) rfl rfl
      exact backed_spared hi hspares rfl (hi.frames call f hf) _
  | @poller action poller ha hp =>
      by_cases hrecorded : ∃ call, action = .recorded call
      · obtain ⟨call, rfl⟩ := hrecorded
        exact stationInv_recorded hi (.poller ha hp) hp
      · obtain ⟨hturned, hkept⟩ := alone_step ha hp
        obtain ⟨htelemetry, hevents⟩ := hkept fun call he => hrecorded ⟨call, he⟩
        have hnone : s.takes action = [] := by
          cases action with
          | recorded call => exact absurd ⟨call, rfl⟩ hrecorded
          | _ => rfl
        rw [hnone, List.append_nil] at hpoll hclock hanswers hmoved ⊢
        have hspares : Spares config s { s with poller := poller } := ⟨hmoved, rfl, Nat.le_of_eq hturned.now.symm⟩
        refine stationInv_spared hi hspares hpoll hclock hanswers (fun call f hf => ?_) htelemetry hevents
        rcases hturned.frames call f hf with hold | hidle
        · exact backed_spared hi hspares rfl (hi.frames call f hold) _
        · exact backed_of_idle hidle
  | @ask call pair rest id correlation failure poller commands hf hp hc =>
      obtain ⟨hnow, htelemetry, hevents, hframes⟩ := has_step hi.poll hf hp
      have hspares : Spares config s
          { s with poller := poller, commands := commands, awaited := s.awaited.set call id } :=
        ⟨hmoved, rfl, Nat.le_of_eq hnow.symm⟩
      refine stationInv_spared hi hspares hpoll hclock hanswers (fun other f hother => ?_) htelemetry hevents
      obtain ⟨rfl, rfl⟩ := hframes other f hother
      have hrecord := Commands.onRecord_dispatch hi.answers.wire.completion hi.answers.wire.outcomes hc
      have hfresh : id ∉ s.taken.map Snapshot.id := fresh_asked hi hc
      exact ⟨id, Table.get_set_self _ _ _, hfresh, target_of_asking hi.poll hf, other,
        correlation, failure, List.mem_append_right _ (List.mem_singleton_self _), hrecord⟩
  | @answer call pair rest id outcome poller hf hid ho hp =>
      obtain ⟨hnow, htelemetry, hevents, hframes⟩ := reply_step hi.poll hf hp
      have hspares : Spares config s { s with poller := poller } := ⟨hmoved, rfl, Nat.le_of_eq hnow.symm⟩
      refine stationInv_spared hi hspares hpoll hclock hanswers (fun other f hother => ?_) htelemetry hevents
      rcases hframes other f hother with hidle | ⟨o, rfl, hok, rfl, rfl⟩
      · exact backed_of_idle hidle
      · obtain ⟨id', hid', hfresh, hasked⟩ := hi.frames other _ hf
        obtain rfl := Option.some.inj (hid.symm.trans hid')
        obtain ⟨n, -, -, hreceived⟩ := (hi.answers.outcomes id o ho).2.times
        refine ⟨id, hid, hfresh, hasked.later _, ⟨o, ho, hok, rfl, ?_⟩, Nat.le_of_eq hnow.symm, fun x hx => ?_⟩
        · rw [hi.clock]
          exact hreceived
        · exact (hi.taken x hx).2.2
  | @commands action commands ha hc =>
      have hspares : Spares config s { s with commands := commands } := ⟨hmoved, rfl, Nat.le_refl _⟩
      refine stationInv_spared hi hspares hpoll hclock hanswers (fun call f hf => ?_) rfl rfl
      exact backed_spared hi hspares rfl (hi.frames call f hf) _

theorem stationInv_init {connected : Bool}
    (hpre : run (Commands.step config) (Commands.init connected) pre = some commands)
    (earlier : Table TelemetrySample) : StationInv config pre earlier [] (Station.init commands earlier) where
  poll :=
    have h := inv_init
    ⟨⟨h.core.flag, h.core.busy, h.core.one, h.core.pending, h.core.fresh, h.core.known, h.core.ended⟩, h.active⟩
  clock := rfl
  answers := by
    rw [List.filterMap_nil, List.append_nil]
    exact Commands.answerInv_run hpre
  frames := fun _ _ hf => (by cases hf)
  taken := fun _ hx => (by cases hx)
  once := List.nodup_nil
  ordered := List.Pairwise.nil
  rows := (List.append_nil _).symm
  events := rfl

theorem stationInv_run {connected : Bool}
    (hpre : run (Commands.step config) (Commands.init connected) pre = some commands)
    (h : run (Station.step config) (Station.init commands earlier) as = some s) :
    StationInv config pre earlier as s := by
  have hlog := log_along (f := some) (I := fun as s => StationInv config pre earlier as s)
    (fun as s a t hi hs => stationInv_step hi hs) h (stationInv_init hpre earlier)
  rwa [List.nil_append, List.filterMap_some] at hlog

theorem heard_run (h : run (Station.step config) s as = some t) :
    run (Commands.step config) s.commands (as.filterMap heard) = some t.commands := by
  induction as generalizing s with
  | nil => cases h; rfl
  | cons b as ih =>
      obtain ⟨u, hu, hrest⟩ := run_cons.mp h
      rcases commands_step (station_move hu) with ⟨hb, hc⟩ | ⟨a, hb, hc⟩
      · rw [List.filterMap_cons_none hb, ← hc]
        exact ih hrest
      · rw [List.filterMap_cons_some hb]
        exact run_cons.mpr ⟨u.commands, hc, ih hrest⟩

theorem drawn_not_asked {call : Nat} {correlation : String} {failure : Option String}
    (h : run (Station.step config) s as = some t) (hid : id ∈ s.commands.drawn) :
    .ask call pair id correlation failure ∉ as := by
  intro hmem
  obtain ⟨before, after, rfl⟩ := List.append_of_mem hmem
  obtain ⟨u, hbefore, hrest⟩ := run_append.mp h
  obtain ⟨v, hv, -⟩ := run_cons.mp hrest
  have hdrawn := Commands.drawn_run (heard_run hbefore) hid
  cases station_move hv with
  | ask _ _ hc =>
      rw [Commands.step, Commands.State.dispatch, if_pos hdrawn] at hc
      cases hc

theorem heard_message {topic payload : String} (h : heard b = some (.mqtt (.message topic payload))) :
    b = .commands (.mqtt (.message topic payload)) := by
  cases b with
  | commands action => exact congrArg StationAction.commands (Option.some.inj h)
  | tick | ask => cases h
  | poller | answer => cases h

theorem heard_after_asked {connected : Bool} {call : Nat} {correlation : String} {failure : Option String}
    {response : Mqtt.ResponseEnvelope}
    (hpre : run (Commands.step config) (Commands.init connected) pre = some commands)
    (h : run (Station.step config) (Station.init commands earlier) as = some s)
    (hask : .ask call pair response.id correlation failure ∈ as)
    (hheard : Commands.Heard config (pre ++ as.filterMap heard) response) :
    ∃ before after topic payload, as = before ++ .commands (.mqtt (.message topic payload)) :: after ∧
      .ask call pair response.id correlation failure ∈ before ∧ config.response topic payload = some response := by
  obtain ⟨pre', post, call', topic, payload, hsplit, hcall, hresponse⟩ := hheard
  have hnew : .dispatch response.id call' ∉ pre :=
    fun hmem => drawn_not_asked h (Commands.drawn_of_dispatch hpre hmem) hask
  rcases List.append_eq_append_iff.mp hsplit with ⟨l, rfl, hl⟩ | ⟨l, rfl, -⟩
  · obtain ⟨first, last, rfl, rfl, hlast⟩ := List.filterMap_eq_append_iff.mp hl
    obtain ⟨silent, b, after, rfl, hsilent, hb, -⟩ := List.filterMap_eq_cons_iff.mp hlast
    obtain rfl := heard_message hb
    have hdispatched := (List.mem_append.mp hcall).resolve_left hnew
    refine ⟨first ++ silent, after, topic, payload, (List.append_assoc _ _ _).symm, ?_, hresponse⟩
    obtain ⟨u, hu, hrest⟩ := run_append.mp h
    have hdrawn : response.id ∈ u.commands.drawn := Commands.drawn_of_dispatch (heard_run hu) hdispatched
    rcases List.mem_append.mp hask with hask | hask
    · exact List.mem_append_left _ hask
    · exact absurd hask (drawn_not_asked hrest hdrawn)
  · exact absurd (List.mem_append_left _ hcall) hnew

/-- A snapshot holds what a message has brought for the command that the poller
had dispatched for it, which has succeeded with this result. -/
structure Attested (config : Mqtt.Config) (as : List StationAction) (s : Station) (x : Snapshot) : Prop where
  target : x.pair.2 ∈ POLL_TARGETS
  heard : ∃ before after call correlation failure topic payload response,
    as = before ++ .commands (.mqtt (.message topic payload)) :: after ∧
    .ask call x.pair x.id correlation failure ∈ before ∧ config.response topic payload = some response ∧
    response.id = x.id ∧ response.ok = true ∧ response.result = x.result
  record : ∃ row r n, s.commands.commands.find x.id = some row ∧ row.deviceId = x.pair.1 ∧
    row.name = x.pair.2.capability ∧ row.status = .succeeded ∧ row.resolvedAt = some n ∧
    s.commands.results.find x.id = some r ∧ r.ok = true ∧ r.result = x.result ∧
    n ≤ r.receivedAt ∧ r.receivedAt ≤ x.recordedAt

theorem attested_of_taken {connected : Bool} {x : Snapshot}
    (hpre : run (Commands.step config) (Commands.init connected) pre = some commands)
    (h : run (Station.step config) (Station.init commands earlier) as = some s)
    (hi : StationInv config pre earlier as s) (hx : x ∈ s.taken) : Attested config as s x := by
  obtain ⟨⟨htarget, call, correlation, failure, hask, ho⟩, ⟨o, houtcome, hok, hresult, hreceived⟩, -⟩ := hi.taken x hx
  obtain ⟨hstored, hanswered⟩ := hi.answers.outcomes x.id o houtcome
  have hid : o.command.id = x.id := hi.answers.wire.outcomes.named x.id o houtcome
  have hasked := ho.row o.command (hid ▸ hstored.row)
  refine ⟨htarget, ?_, ?_⟩
  · obtain ⟨response, hresponse, hrok, hrresult, hheard⟩ := hanswered.heard hok
    have hmine : response.id = x.id := hresponse.trans hid
    rw [← hmine] at hask
    obtain ⟨before, after, topic, payload, hsplit, hbefore, hparsed⟩ := heard_after_asked hpre h hask hheard
    exact ⟨before, after, call, correlation, failure, topic, payload, response, hsplit, hmine ▸ hbefore, hparsed,
      hmine, hrok, hrresult.trans hresult⟩
  · obtain ⟨n, hn, hle, -⟩ := hanswered.times
    exact ⟨o.command, o.result, n, hid ▸ hstored.row, congrArg Commands.Command.deviceId hasked,
      congrArg Commands.Command.name hasked, hanswered.succeeded.mpr hok, hn, hid ▸ hstored.result, hok, hresult, hle,
      hreceived⟩

/-- No reading is made up: the rows that a process adds to the table are those of
its snapshots, each of which is whole, is announced once, and holds what a
message has brought for a command of its own. -/
theorem readings_are_answered {connected : Bool}
    (hpre : run (Commands.step config) (Commands.init connected) pre = some commands)
    (h : run (Station.step config) (Station.init commands earlier) as = some s) :
    s.poller.telemetry.rows = earlier.rows ++ s.taken.flatMap (Snapshot.rows config.parse) ∧
    s.poller.events = s.taken.flatMap (Snapshot.published config.parse) ∧
    (s.taken.map Snapshot.id).Nodup ∧ (s.taken.Pairwise fun x y => x.recordedAt ≤ y.recordedAt) ∧
    ∀ x ∈ s.taken, Attested config as s x := by
  have hi := stationInv_run hpre h
  exact ⟨hi.rows, hi.events, hi.once, hi.ordered, fun x hx => attested_of_taken hpre h hi hx⟩

end Steps

end Station

def statusAnswer : String :=
  "\x7b\"id\":\"c1\",\"ok\":true,\"result\":\"\x7b\\\"rssi\\\":0,\\\"ssid\\\":\\\"lab\\\",\\\"connected\\\":false\x7d\"\x7d"

def reporting : Mqtt.Config where
  defaultBaseTopic := "espclaw"
  parse := fun text =>
    if text = statusAnswer then some (.obj [("id", .str "c1"), ("ok", .bool true), ("result", .str statusText)])
    else parseObject statusText status text

def registered : List Commands.Action := [.registry (Table.empty.save { id := "dev-1", baseTopic := "espclaw" })]

def pollNetwork : List StationAction :=
  [.poller .pollOnce, .poller (.online 0 ["dev-1"]), .poller (.hasGroup 0 false), .poller (.hasGroup 0 false),
    .ask 0 ("dev-1", netcfg) "c1" "corr-1" none] ++
    [.commit "c1", .resume "c1", .commit "c1", .resume "c1", .mqtt (.message "espclaw/dev-1/response" statusAnswer),
      .resume "c1", .commit "c1", .resume "c1", .commit "c1", .resume "c1"].map .commands ++
    [.tick 7, .answer 0, .poller (.recorded 0)]

theorem network_status_is_answered : ∃ c s, run (Commands.step reporting) (Commands.init true) registered = some c ∧
    run (Station.step reporting) (Station.init c .empty) pollNetwork = some s ∧
    s.poller.telemetry.rows.map TelemetrySample.metric = ["rssi", "connected"] ∧
    ∀ x ∈ s.taken, Attested reporting pollNetwork s x := by
  have hmetrics : ∀ c ∈ run (Commands.step reporting) (Commands.init true) registered,
      ∀ s ∈ run (Station.step reporting) (Station.init c .empty) pollNetwork,
        s.poller.telemetry.rows.map TelemetrySample.metric = ["rssi", "connected"] := by decide +kernel
  obtain ⟨c, hc⟩ := Option.isSome_iff_exists.mp
    (show (run (Commands.step reporting) (Commands.init true) registered).isSome by decide +kernel)
  have hsome : ∀ c ∈ run (Commands.step reporting) (Commands.init true) registered,
      (run (Station.step reporting) (Station.init c .empty) pollNetwork).isSome := by decide +kernel
  obtain ⟨s, hs⟩ := Option.isSome_iff_exists.mp (hsome c hc)
  obtain ⟨-, -, -, -, hall⟩ := readings_are_answered hc hs
  exact ⟨c, s, hc, hs, hmetrics c hc s hs, hall⟩

end EspClawPlatform.Telemetry
