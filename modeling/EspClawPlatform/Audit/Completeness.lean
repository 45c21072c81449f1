import EspClawPlatform.Audit.Recorder
import EspClawPlatform.Bus.Drain

namespace EspClawPlatform.Audit

open Bus (Attempt AttemptsShape HandlerRun Link Outcome PromiseState Timed TimedAction Watched)
open Run

variable {s t : State} {x : Execution}

@[simp]
theorem key_execution (x : Execution) : Keyed.key x = (x.link, x.target, x.attempt) := rfl

theorem find_goto (f : Frame) (k : Nat × Nat × Nat) : (s.goto x f).executions.find k =
    if k = (x.link, x.target, x.attempt) then some { x with frame := f } else s.executions.find k :=
  Table.find_save _ _ _

theorem execution_of_bind {g : Execution → Option State} {n i k : Nat}
    (h : (s.executions.find (n, i, k)).bind g = some t) :
    ∃ x, x.link = n ∧ x.target = i ∧ x.attempt = k ∧
      s.executions.find (x.link, x.target, x.attempt) = some x ∧ g x = some t := by
  obtain ⟨x, hx, hg⟩ := Option.bind_eq_some_iff.mp h
  have hkey : (x.link, x.target, x.attempt) = (n, i, k) := Table.key_of_find hx
  simp only [Prod.mk.injEq] at hkey
  obtain ⟨rfl, rfl, rfl⟩ := hkey
  exact ⟨x, rfl, rfl, rfl, hx, hg⟩

inductive Shape (s : State) : Action → State → Prop
  | bus {action : TimedAction Payload} {bus : Timed Payload} (ho : s.outside action = true)
      (h : s.bus.step action = some bus) :
      Shape s (.bus action) { s with bus := bus, executions := s.called action }
  | insert {x : Execution} (now : Nat) (failure : Option String)
      (hx : s.executions.find (x.link, x.target, x.attempt) = some x) (hf : x.frame = .inserting) :
      Shape s (.insert x.link x.target x.attempt now failure)
        ({ s with log := recordIfAudited s.log now x.event }.goto x (.returned failure))
  | refuse {x : Execution} (drew : Bool) (message : String)
      (hx : s.executions.find (x.link, x.target, x.attempt) = some x) (hf : x.frame = .inserting) :
      Shape s (.refuse x.link x.target x.attempt drew message)
        ({ s with log := { s.log with drawn := s.log.drawn + drew.toNat } }.goto x (.returned (some message)))
  | settle {x : Execution} {failure : Option String} {bus : Timed Payload}
      (hx : s.executions.find (x.link, x.target, x.attempt) = some x) (hf : x.frame = .returned failure)
      (h : s.bus.step (.ends x.link x.target x.attempt (result failure)) = some bus) :
      Shape s (.settle x.link x.target x.attempt) ({ s with bus := bus }.goto x (.settled failure))

theorem step_shape {a : Action} (h : step s a = some t) : Shape s a t := by
  cases a with
  | bus action =>
      rw [step] at h
      split at h
      · rename_i ho
        obtain ⟨bus, hbus, rfl⟩ := Option.map_eq_some_iff.mp h
        exact .bus ho hbus
      · cases h
  | insert n i k now failure =>
      obtain ⟨x, rfl, rfl, rfl, hx, hg⟩ := execution_of_bind h
      rw [State.insert] at hg
      split at hg <;> cases hg
      exact .insert now failure hx ‹_›
  | refuse n i k drew message =>
      obtain ⟨x, rfl, rfl, rfl, hx, hg⟩ := execution_of_bind h
      rw [State.refuse] at hg
      split at hg <;> cases hg
      exact .refuse drew message hx ‹_›
  | settle n i k =>
      obtain ⟨x, rfl, rfl, rfl, hx, hg⟩ := execution_of_bind h
      rw [State.settle] at hg
      split at hg
      · obtain ⟨bus, hbus, rfl⟩ := Option.map_eq_some_iff.mp hg
        exact .settle hx ‹_› hbus
      · cases hg

structure Stands (a : Attempt) (f : Frame) : Prop where
  ended : a.ended = false ↔ ∀ failure, f ≠ .settled failure
  fulfilled : a.promise = .fulfilled → f = .settled none

theorem stands_fresh (event : DomainEvent Payload) : Stands .fresh (begin event) where
  ended := by
    rw [begin]
    split <;> simp [Attempt.fresh]
  fulfilled := fun h => by cases h

theorem Stands.goes_on {a : Attempt} {f g : Frame} (hs : Stands a f) (hf : ∀ failure, f ≠ .settled failure)
    (hg : ∀ failure, g ≠ .settled failure) : Stands a g where
  ended := iff_of_true (hs.ended.mpr hf) hg
  fulfilled := fun h => absurd (hs.fulfilled h) (hf none)

theorem Stands.ends {a : Attempt} {failure : Option String} (hs : Stands a (.returned failure)) :
    Stands { a with promise := a.settle (Bus.settlement (result failure)), ended := true } (.settled failure) where
  ended := iff_of_false Bool.noConfusion fun h => h failure rfl
  fulfilled := by
    intro h
    rw [Attempt.settle] at h
    split at h
    · cases failure with
      | none => rfl
      | some message => cases h
    · cases hs.fulfilled h

/-- Every attempt of the recorder is a call of `recordIfAudited`, and the event
of a call that came back without an error is on record if it is to be. -/
structure RecorderInv (s : State) : Prop where
  serves : Bus.Serves recorder s.bus
  known : ∀ k x, s.executions.find k = some x → s.bus.bus.heardBy recorder x.link x.target = some x.event
  begun : ∀ k x, s.executions.find k = some x → Bus.Begun s.bus.bus x.link
  attended : ∀ n i k a, (s.bus.attemptsAt n i)[k]? = some a → (s.bus.bus.heardBy recorder n i).isSome →
    ∃ x, s.executions.find (n, i, k) = some x ∧ Stands a x.frame
  recorded : ∀ k x, s.executions.find k = some x → (x.frame = .returned none ∨ x.frame = .settled none) →
    isAuditedEventType x.event.eventType = true → (s.log.records.find x.event.eventId).isSome

theorem recorderInv_init (log : EventLog) : RecorderInv (init log) where
  serves := Bus.serves_first "**" { name := "audit.event-log", retries := some 3, backoffMs := some 200 }
  known := fun _ _ hx => by cases hx
  begun := fun _ _ hx => by cases hx
  attended := fun _ _ _ _ hk => by cases hk
  recorded := fun _ _ hx => by cases hx

theorem recorderInv_quiet {action : TimedAction Payload} (hi : RecorderInv s) (h : s.bus.step action = some t.bus)
    (hkeep : action ≠ .bus (.unsubscribe recorder.id)) (hx : t.executions = s.executions) (hlog : t.log = s.log)
    (hat : ∀ n i k a, (t.bus.attemptsAt n i)[k]? = some a → (s.bus.bus.heardBy recorder n i).isSome →
      ∃ x, s.executions.find (n, i, k) = some x ∧ Stands a x.frame) : RecorderInv t where
  serves := Bus.serves_step hi.serves h hkeep
  known := by
    intro k x hfind
    rw [hx] at hfind
    exact Bus.timed_heardBy_kept hi.serves.watched h (hi.known k x hfind)
  begun := by
    intro k x hfind
    rw [hx] at hfind
    exact Bus.timed_begun hi.serves.watched h (hi.begun k x hfind)
  attended := by
    intro n i k a hk hheard
    rw [Bus.heardBy_attempted hi.serves.watched h hk] at hheard
    rw [hx]
    exact hat n i k a hk hheard
  recorded := by
    intro k x hfind
    rw [hx] at hfind
    rw [hlog]
    exact hi.recorded k x hfind

theorem recorderInv_invoke {n i : Nat} {event : DomainEvent Payload} (hi : RecorderInv s)
    (h : s.bus.step (.bus (.invoke n i)) = some t.bus) (hh : s.bus.bus.heardBy recorder n i = some event)
    (hset : s.bus.Rewrites t.bus n i (s.bus.attemptsAt n i ++ [.fresh]))
    (hx : t.executions = s.executions.save
      { link := n, target := i, attempt := (s.bus.attemptsAt n i).length, event := event, frame := begin event })
    (hlog : t.log = s.log) : RecorderInv t := by
  have hfind (k : Nat × Nat × Nat) : t.executions.find k =
      if k = (n, i, (s.bus.attemptsAt n i).length) then
        some { link := n, target := i, attempt := (s.bus.attemptsAt n i).length, event := event, frame := begin event }
      else s.executions.find k := by
    rw [hx, Table.find_save, key_execution]
  constructor
  · exact Bus.serves_step hi.serves h (fun ha => by cases ha)
  · intro k x hk
    apply Bus.timed_heardBy_kept hi.serves.watched h
    rw [hfind] at hk
    split at hk
    · cases hk
      exact hh
    · exact hi.known k x hk
  · intro k x hk
    rw [hfind] at hk
    apply Bus.timed_begun hi.serves.watched h
    split at hk
    · cases hk
      obtain ⟨bus, hbus, -⟩ := Option.map_eq_some_iff.mp h
      exact Bus.begun_of_invoke hbus
    · exact hi.begun k x hk
  · intro m j k a hk hheard
    rw [Bus.heardBy_attempted hi.serves.watched h hk] at hheard
    rw [hset] at hk
    rw [hfind]
    split at hk
    · rename_i he
      obtain ⟨rfl, rfl⟩ := he
      rcases Nat.lt_or_ge k (s.bus.attemptsAt m j).length with hlt | hge
      · rw [List.getElem?_append_left hlt] at hk
        obtain ⟨x, hold, hs⟩ := hi.attended m j k a hk hheard
        rw [if_neg (by simp only [Prod.mk.injEq, not_and]; intro _ _; exact hlt.ne)]
        exact ⟨x, hold, hs⟩
      · rw [List.getElem?_append_right hge] at hk
        obtain ⟨hlt, hfresh⟩ := List.getElem?_eq_some_iff.mp hk
        simp only [List.length_singleton, Nat.lt_one_iff] at hlt
        obtain rfl : k = (s.bus.attemptsAt m j).length := by omega
        simp only [Nat.sub_self, List.getElem_cons_zero] at hfresh
        rw [if_pos rfl, ← hfresh]
        exact ⟨_, rfl, stands_fresh event⟩
    · rename_i hne
      rw [if_neg fun he => hne (by simp only [Prod.mk.injEq] at he; exact ⟨he.1, he.2.1⟩)]
      exact hi.attended m j k a hk hheard
  · intro k x hk hf ha
    rw [hfind] at hk
    rw [hlog]
    split at hk
    · cases hk
      simp only [begin, if_pos ha] at hf
      rcases hf with hf | hf <;> cases hf
    · exact hi.recorded k x hk hf ha

theorem recorderInv_bus {action : TimedAction Payload} {bus : Timed Payload} (hi : RecorderInv s)
    (ho : s.outside action = true) (h : s.bus.step action = some bus) :
    RecorderInv { s with bus := bus, executions := s.called action } := by
  have hkeep : action ≠ .bus (.unsubscribe recorder.id) := by
    rintro rfl
    simp [State.outside] at ho
  cases Bus.attempts_shape hi.serves.watched h with
  | same action hinvoke hsame =>
      have hcalled : s.called (.bus action) = s.executions := by
        cases action with
        | invoke n i => exact absurd rfl (hinvoke n i)
        | _ => rfl
      refine recorderInv_quiet (t := { s with bus := bus, executions := s.called (.bus action) }) hi h hkeep hcalled
        rfl ?_
      intro n i k a hk hheard
      exact hi.attended n i k a (hsame n i ▸ hk) hheard
  | @invoke n i _ hset =>
      cases hh : s.bus.bus.heardBy recorder n i with
      | some event => exact recorderInv_invoke hi h hh hset (by simp only [State.called, hh]) rfl
      | none =>
          have hcalled : s.called (.bus (.invoke n i)) = s.executions := by simp only [State.called, hh]
          refine recorderInv_quiet (t := { s with bus := bus, executions := s.called (.bus (.invoke n i)) }) hi h hkeep
            hcalled rfl ?_
          intro m j k a hk hheard
          rw [hset] at hk
          split at hk
          · rename_i he
            rw [he.1, he.2, hh] at hheard
            cases hheard
          · exact hi.attended m j k a hk hheard
  | @ends n i k₀ _ _ result hk₀ hended hset =>
      refine recorderInv_quiet (t := { s with bus := bus }) hi h hkeep rfl rfl ?_
      intro m j k a hk hheard
      rw [hset] at hk
      split at hk
      · rename_i he
        simp only [State.outside, Option.isNone_iff_eq_none] at ho
        rw [he.1, he.2, ho] at hheard
        cases hheard
      · exact hi.attended m j k a hk hheard
  | @fires n i k₀ a₀ _ hk₀ hfresh hset =>
      refine recorderInv_quiet (t := { s with bus := bus }) hi h hkeep rfl rfl ?_
      intro m j k a hk hheard
      rw [hset] at hk
      split at hk
      · rename_i he
        obtain ⟨rfl, rfl⟩ := he
        by_cases hkk : k = k₀
        · subst hkk
          obtain ⟨hlt, -⟩ := List.getElem?_eq_some_iff.mp hk₀
          rw [List.getElem?_set_self hlt] at hk
          obtain ⟨x, hx, hs⟩ := hi.attended m j k a₀ hk₀ hheard
          obtain rfl := Option.some.inj hk
          exact ⟨x, hx, hs.ended, fun hp => by cases hp⟩
        · rw [List.getElem?_set_ne (Ne.symm hkk)] at hk
          exact hi.attended m j k a hk hheard
      · exact hi.attended m j k a hk hheard

theorem recorderInv_goto {failure : Option String} {log : EventLog} (hi : RecorderInv s)
    (hx : s.executions.find (x.link, x.target, x.attempt) = some x) (hf : x.frame = .inserting)
    (hlog : Extends s.log log)
    (hdone : failure = none → isAuditedEventType x.event.eventType = true →
      (log.records.find x.event.eventId).isSome) :
    RecorderInv ({ s with log := log }.goto x (.returned failure)) where
  serves := hi.serves
  known := by
    intro k y hy
    rw [find_goto] at hy
    split at hy
    · cases hy
      exact hi.known _ x hx
    · exact hi.known k y hy
  begun := by
    intro k y hy
    rw [find_goto] at hy
    split at hy
    · cases hy
      exact hi.begun _ x hx
    · exact hi.begun k y hy
  attended := by
    intro n i k a hk hheard
    obtain ⟨y, hy, hs⟩ := hi.attended n i k a hk hheard
    rw [find_goto]
    split
    · rename_i hkey
      rw [hkey, hx] at hy
      obtain rfl := Option.some.inj hy
      exact ⟨_, rfl, hs.goes_on (by simp [hf]) (by simp)⟩
    · exact ⟨y, hy, hs⟩
  recorded := by
    intro k y hy hreturned ha
    rw [find_goto] at hy
    split at hy
    · cases hy
      apply hdone ?_ ha
      rcases hreturned with hr | hr
      · exact Frame.returned.inj hr
      · cases hr
    · obtain ⟨record, hrecord⟩ := Option.isSome_iff_exists.mp (hi.recorded k y hy hreturned ha)
      exact Option.isSome_iff_exists.mpr ⟨record, hlog.2 _ _ hrecord⟩

theorem recorderInv_settle {failure : Option String} {bus : Timed Payload} (hi : RecorderInv s)
    (hx : s.executions.find (x.link, x.target, x.attempt) = some x) (hf : x.frame = .returned failure)
    (h : s.bus.step (.ends x.link x.target x.attempt (result failure)) = some bus) :
    RecorderInv ({ s with bus := bus }.goto x (.settled failure)) := by
  have hw := hi.serves.watched
  cases Bus.attempts_shape hw h with
  | ends _ hk₀ hended hset =>
      constructor
      · exact Bus.serves_step hi.serves h (fun ha => by cases ha)
      · intro k y hy
        apply Bus.timed_heardBy_kept hw h
        rw [find_goto] at hy
        split at hy
        · cases hy
          exact hi.known _ x hx
        · exact hi.known k y hy
      · intro k y hy
        apply Bus.timed_begun hw h
        rw [find_goto] at hy
        split at hy
        · cases hy
          exact hi.begun _ x hx
        · exact hi.begun k y hy
      · intro n i k a hk hheard
        have hsame : bus.bus.heardBy recorder n i = s.bus.bus.heardBy recorder n i := Bus.heardBy_attempted hw h hk
        have hheard' : (s.bus.bus.heardBy recorder n i).isSome := hsame ▸ hheard
        rw [find_goto]
        change (bus.attemptsAt n i)[k]? = some a at hk
        rw [hset] at hk
        split at hk
        · rename_i he
          obtain ⟨rfl, rfl⟩ := he
          by_cases hkk : k = x.attempt
          · subst hkk
            obtain ⟨hlt, -⟩ := List.getElem?_eq_some_iff.mp hk₀
            rw [List.getElem?_set_self hlt] at hk
            obtain ⟨y, hy, hs⟩ := hi.attended _ _ _ _ hk₀ hheard'
            obtain rfl := Option.some.inj (hx.symm.trans hy)
            obtain rfl := Option.some.inj hk
            rw [hf] at hs
            rw [if_pos rfl]
            exact ⟨_, rfl, hs.ends⟩
          · rw [List.getElem?_set_ne (Ne.symm hkk)] at hk
            rw [if_neg (by simp only [Prod.mk.injEq, not_and]; intro _ _; exact hkk)]
            exact hi.attended _ _ k a hk hheard'
        · rename_i hne
          rw [if_neg fun he => hne (by simp only [Prod.mk.injEq] at he; exact ⟨he.1, he.2.1⟩)]
          exact hi.attended n i k a hk hheard'
      · intro k y hy hreturned ha
        rw [find_goto] at hy
        split at hy
        · cases hy
          apply hi.recorded _ x hx ?_ ha
          rcases hreturned with hr | hr
          · cases hr
          · rw [hf, Frame.settled.inj hr]
            exact .inl rfl
        · exact hi.recorded k y hy hreturned ha

theorem recorderInv_step {a : Action} (hi : RecorderInv s) (h : step s a = some t) : RecorderInv t := by
  cases step_shape h with
  | bus ho hbus => exact recorderInv_bus hi ho hbus
  | insert now failure hx hf => exact recorderInv_goto hi hx hf (extends_recorded _ _ _) fun _ ha => find_recorded ha
  | refuse drew message hx hf =>
      exact recorderInv_goto hi hx hf ⟨Nat.le_add_right _ _, fun _ _ h => h⟩ (fun hf => by cases hf)
  | settle hx hf hbus => exact recorderInv_settle hi hx hf hbus

theorem recorderInv_run {log : EventLog} {as : List Action} (h : run step (init log) as = some s) : RecorderInv s :=
  invariant (fun _ _ _ hi hs => recorderInv_step hi hs) h (recorderInv_init log)

def Action.Logs : Action → Prop
  | .bus action => action.LogsMessage
  | _ => True

instance : ∀ a, Decidable (Action.Logs a)
  | .bus action => inferInstanceAs (Decidable action.LogsMessage)
  | .insert .. | .refuse .. | .settle .. => inferInstanceAs (Decidable True)

theorem calm_step {a : Action} (hi : RecorderInv s) (h : step s a = some t) (hlogs : a.Logs)
    (hc : ¬ Bus.Crashed s.bus.bus) : ¬ Bus.Crashed t.bus.bus := by
  cases step_shape h with
  | bus ho hbus => exact Bus.timed_calm hi.serves.watched hbus hlogs hc
  | insert | refuse => exact hc
  | @settle x failure bus hx hf hbus =>
      apply Bus.timed_calm hi.serves.watched hbus ?_ hc
      cases failure with
      | none => trivial
      | some message => simp [result, TimedAction.LogsMessage, Bus.LogsMessage, Bus.Thrown.error, Bus.Thrown.message]

theorem calm_run {log : EventLog} {as : List Action} (h : run step (init log) as = some s)
    (hlogs : Along step (fun _ => Action.Logs) (init log) as) : ¬ Bus.Crashed s.bus.bus := by
  have hstart : RecorderInv (init log) ∧ ¬ Bus.Crashed (init log).bus.bus := by
    refine ⟨recorderInv_init log, ?_⟩
    rintro ⟨n, d, hd, -⟩
    cases hd
  refine (invariant_along (P := fun s => RecorderInv s ∧ ¬ Bus.Crashed s.bus.bus) ?_ h hlogs hstart).2
  rintro s a t ⟨hi, hc⟩ hl hs
  exact ⟨recorderInv_step hi hs, calm_step hi hs hl hc⟩

theorem recorded_or_given_up (hi : RecorderInv s) {n : Nat} {d : Link Payload}
    (hd : s.bus.bus.links.find n = some d) (hfinished : d.Finished)
    (ha : isAuditedEventType d.event.eventType = true) :
    (s.log.records.find d.event.eventId).isSome = true ∨ s.bus.bus.GivenUp recorder n := by
  obtain ⟨i, r, hr, hsub, hrun, hheard⟩ := hi.serves.listens.exists_run hd (Bus.matches_all _)
  rcases hfinished r hr with hp | hp
  · left
    have hsound := (hi.serves.delivery.sound n d hd).runs r hr
    simp only [Bus.Sound, hp] at hsound
    obtain ⟨k, a, hk, hfulfilled⟩ := Bus.exists_fulfilled hi.serves.watched hrun hsound.1
    obtain ⟨x, hx, hstands⟩ := hi.attended n i k a hk (by rw [hheard]; rfl)
    have hkey : (x.link, x.target, x.attempt) = (n, i, k) := Table.key_of_find hx
    simp only [Prod.mk.injEq] at hkey
    have hevent := hi.known _ x hx
    rw [hkey.1, hkey.2.1, hheard] at hevent
    rw [Option.some.inj hevent] at ha ⊢
    exact hi.recorded _ x hx (.inr (hstands.fulfilled hfulfilled)) ha
  · exact .inr (Bus.givenUp_of_failed hi.serves.delivery hrun hsub hp)

def published : Action → Option (DomainEvent Payload)
  | .bus action => Bus.timedPublication action
  | _ => none

theorem numbered_next {events : List (DomainEvent Payload)} {a : Action} (hi : RecorderInv s)
    (h : step s a = some t) (hn : Bus.Numbered events s.bus.bus) :
    Bus.Numbered (events ++ (published a).toList) t.bus.bus := by
  cases step_shape h with
  | bus ho hbus => exact Bus.numbered_timed hi.serves.watched hbus hn
  | insert | refuse =>
      have hsame : Bus.Numbered (events ++ []) s.bus.bus := (List.append_nil events).symm ▸ hn
      exact hsame
  | settle hx hf hbus => exact Bus.numbered_timed hi.serves.watched hbus hn

def Sourced (log : EventLog) (events : List (DomainEvent Payload)) (id : String) (record : EventLogRecord) : Prop :=
  log.records.find id = some record ∨
    ∃ event ∈ events, isAuditedEventType event.eventType = true ∧
      record = recordOf event record.seq record.recordedAt

structure ChronicleInv (log : EventLog) (events : List (DomainEvent Payload)) (s : State) : Prop where
  recorder : RecorderInv s
  numbered : Bus.Numbered events s.bus.bus
  kept : Extends log s.log
  sourced : ∀ id record, s.log.records.find id = some record → Sourced log events id record

theorem event_of_execution {log : EventLog} {events : List (DomainEvent Payload)} (hc : ChronicleInv log events s)
    (hx : s.executions.find (x.link, x.target, x.attempt) = some x) : events[x.link]? = some x.event := by
  obtain ⟨d, r, hd, -, -, he⟩ := Bus.heardBy_eq_some.mp (hc.recorder.known _ x hx)
  rw [hc.numbered.event _ d hd, he]

theorem chronicleInv_step {log : EventLog} {events : List (DomainEvent Payload)} {a : Action}
    (hc : ChronicleInv log events s) (h : step s a = some t) :
    ChronicleInv log (events ++ (published a).toList) t := by
  have hlog : Extends log t.log ∧ ∀ id record, t.log.records.find id = some record →
      Sourced log (events ++ (published a).toList) id record := by
    have hlater {id : String} {record : EventLogRecord} (hr : Sourced log events id record) :
        Sourced log (events ++ (published a).toList) id record := by
      rcases hr with hr | ⟨event, hmem, hr⟩
      · exact .inl hr
      · exact .inr ⟨event, List.mem_append_left _ hmem, hr⟩
    cases step_shape h with
    | bus | settle => exact ⟨hc.kept, fun id record hr => hlater (hc.sourced id record hr)⟩
    | refuse drew message hx hf =>
        exact ⟨⟨Nat.le_trans hc.kept.1 (Nat.le_add_right _ _), hc.kept.2⟩,
          fun id record hr => hlater (hc.sourced id record hr)⟩
    | @insert x now failure hx hf =>
        have hgrows := extends_recorded s.log now x.event
        refine ⟨⟨Nat.le_trans hc.kept.1 hgrows.1, fun id record hr => hgrows.2 id record (hc.kept.2 id record hr)⟩, ?_⟩
        intro id record hr
        change (recordIfAudited s.log now x.event).records.find id = some record at hr
        cases hold : s.log.records.find id with
        | some record' =>
            rw [hgrows.2 id record' hold] at hr
            obtain rfl := Option.some.inj hr
            exact hlater (hc.sourced id record' hold)
        | none =>
            obtain ⟨ha, rfl⟩ := find_recorded_new hr hold
            have hmem := List.mem_of_getElem? (event_of_execution hc hx)
            exact .inr ⟨x.event, List.mem_append_left _ hmem, ha, rfl⟩
  exact
    { recorder := recorderInv_step hc.recorder h
      numbered := numbered_next hc.recorder h hc.numbered
      kept := hlog.1
      sourced := hlog.2 }

theorem chronicleInv_init (log : EventLog) : ChronicleInv log [] (init log) where
  recorder := recorderInv_init log
  numbered :=
    Bus.numbered_first "**" { name := "audit.event-log", retries := some 3, backoffMs := some 200 }
  kept := ⟨Nat.le_refl _, fun _ _ h => h⟩
  sourced := fun _ _ h => .inl h

theorem chronicleInv_run {log : EventLog} {as : List Action} (h : run step (init log) as = some s) :
    ChronicleInv log (as.filterMap published) s := by
  have hrun := log_along (f := published) (I := ChronicleInv log) (fun _ _ _ _ hc hs => chronicleInv_step hc hs) h
    (chronicleInv_init log)
  rwa [List.nil_append] at hrun

theorem timed_kept {P : Timed Payload → Prop} (hstep : ∀ u b v, Watched u → Timed.step u b = some v → P u → P v)
    {a : Action} (hi : RecorderInv s) (h : step s a = some t) (hP : P s.bus) : P t.bus := by
  cases step_shape h with
  | bus ho hbus => exact hstep _ _ _ hi.serves.watched hbus hP
  | insert | refuse => exact hP
  | settle hx hf hbus => exact hstep _ _ _ hi.serves.watched hbus hP

theorem timed_kept_run {P : Timed Payload → Prop} (hstep : ∀ u b v, Watched u → Timed.step u b = some v → P u → P v)
    {as : List Action} (hi : RecorderInv s) (h : run step s as = some t) (hP : P s.bus) : P t.bus :=
  (invariant (P := fun s => RecorderInv s ∧ P s.bus) (fun _ _ _ hs h => ⟨recorderInv_step hs.1 h,
    timed_kept hstep hs.1 h hs.2⟩) h ⟨hi, hP⟩).2

theorem link_of_publish {event : DomainEvent Payload} {post : List Action} (hi : RecorderInv s)
    (h : run step s (.bus (.bus (.publish event)) :: post) = some t) :
    ∃ d, t.bus.bus.links.find s.bus.bus.counters.published = some d ∧ d.event = event := by
  obtain ⟨v, hv, hrun⟩ := run_cons.mp h
  have hlink : ∃ d, v.bus.bus.links.find s.bus.bus.counters.published = some d ∧ d.event = event := by
    obtain rfl := Option.some.inj hv
    have htargets : Bus.targets s.bus.bus event ≠ [] :=
      List.ne_nil_of_mem (hi.serves.listens.targets (Bus.matches_all _))
    have hlinks := Bus.publish_links htargets
    refine ⟨Bus.chained s.bus.bus event, ?_, rfl⟩
    change (s.bus.bus.publish event).links.find _ = _
    rw [Bus.find_publish hlinks, if_pos rfl]
  exact timed_kept_run
    (P := fun u => ∃ d, u.bus.links.find s.bus.bus.counters.published = some d ∧ d.event = event)
    (fun _ _ _ hw hs hd => Bus.timed_link hw hs hd) (recorderInv_step hi hv) hrun hlink

/-- In every run, with any failures of handlers and of queries, answers lost and
answers that come too late: the log only grows, each of its new rows is that of
an audited event that was published, and once the bus is done with an audited
event, the event is on record unless all four attempts at it failed. -/
theorem event_log_is_complete {log : EventLog} {as : List Action} (h : run step (init log) as = some s)
    (hlogs : Along step (fun _ => Action.Logs) (init log) as) :
    Extends log s.log ∧
    (∀ id record, s.log.records.find id = some record → Sourced log (as.filterMap published) id record) ∧
    ∀ pre event post u, as = pre ++ .bus (.bus (.publish event)) :: post → run step (init log) pre = some u →
      isAuditedEventType event.eventType = true → u.bus.bus.counters.published ∉ s.bus.bus.inFlight →
        (s.log.records.find event.eventId).isSome = true ∨
          s.bus.bus.GivenUp recorder u.bus.bus.counters.published := by
  have hchronicle := chronicleInv_run h
  refine ⟨hchronicle.kept, hchronicle.sourced, ?_⟩
  rintro pre event post u rfl hu ha hdone
  obtain ⟨u', hu', hrest⟩ := run_append.mp h
  obtain rfl := Option.some.inj (hu.symm.trans hu')
  obtain ⟨d, hd, rfl⟩ := link_of_publish (recorderInv_run hu) hrest
  have hfinished := (Bus.inFlight_or_finished hchronicle.recorder.serves.delivery (calm_run h hlogs) hd).resolve_left hdone
  exact recorded_or_given_up hchronicle.recorder hd hfinished ha

def registration : DomainEvent Payload :=
  createEvent none "e1" "c1" 2
    { announce "module:devices" (.deviceRegistered "espclaw") with deviceId := some "ecda3b4ff7d4" }

/-- The first query is too slow, the second one is refused, the answer to the
third one is lost, and the fourth one finds the row of the third. -/
def slowDatabase : List Action :=
  [.bus (.bus (.publish registration)), .bus (.bus (.start 0)), .bus (.bus (.invoke 0 0)), .bus (.fires 0 0 0),
   .bus (.bus (.wake 0 0)), .bus (.bus (.invoke 0 0)), .refuse 0 0 1 true "deadlock detected", .settle 0 0 1,
   .bus (.bus (.wake 0 0)), .bus (.bus (.invoke 0 0)), .insert 0 0 2 5 (some "Connection terminated"), .settle 0 0 2,
   .bus (.bus (.wake 0 0)), .bus (.bus (.invoke 0 0)), .insert 0 0 3 7 none, .settle 0 0 3,
   .insert 0 0 0 9 none, .settle 0 0 0, .bus (.bus (.finish 0)), .bus (.bus (.cleanup 0))]

theorem slow_database_records_once : ∃ s, run step (init {}) slowDatabase = some s ∧
    s.log.records.rows = [recordOf registration 2 5] ∧
    ((s.log.records.find "e1").isSome = true ∨ s.bus.bus.GivenUp recorder 0) := by
  have hrun : ∃ s, run step (init {}) slowDatabase = some s ∧ s.log.records.rows = [recordOf registration 2 5] ∧
    s.bus.bus.inFlight = [] := ⟨_, rfl, rfl, rfl⟩
  obtain ⟨s, hs, hrows, hidle⟩ := hrun
  have hlogs : Along step (fun _ => Action.Logs) (init {}) slowDatabase := by decide +kernel
  have hdone := (event_log_is_complete hs hlogs).2.2 [] registration _ (init {}) rfl rfl (by decide)
  exact ⟨s, hs, hrows, hdone (by rw [hidle]; exact List.not_mem_nil)⟩

end EspClawPlatform.Audit
