import EspClawPlatform.Devices.Steps

namespace EspClawPlatform.Devices

variable {s t : State}

/-- What a call publishes when it goes on from where it stands. -/
def Execution.emits (x : Execution) : List Published :=
  match observe x.event, x.frame with
  | some o, .saved _ => [registeredEvent o]
  | some o, .updated before =>
      let wasOnline := (before.map (·.online)).getD false
      if wasOnline ≠ o.online then [transitionEvent x.event o wasOnline] else []
  | _, _ => []

def State.published (s : State) : Action → List Published
  | .resume link target _ => ((s.executions.find (link, target)).map (·.emits)).getD []
  | _ => []

def Draw.create (draw : Draw) (input : Published) : DomainEvent Payload :=
  createEvent draw.context draw.eventId draw.correlationId draw.now input

def State.seen (s : State) : Action → List (Bus.Action Payload)
  | .bus action => [action]
  | .commit .. | .refuse .. => []
  | .resume link target draw =>
      (s.published (.resume link target draw)).map fun input => .publish (draw.create input)
  | .settle link target =>
      match (s.executions.find (link, target)).map Execution.frame with
      | some (.returned failure) =>
          if (Bus.step s.bus (.settle link target (result failure))).isSome then
            [.settle link target (result failure)]
          else []
      | _ => []

def Frame.querying : Frame → Bool
  | .findingBefore | .finding _ | .saving _ | .updating _ => true
  | _ => false

inductive Goes (devices : Table DeviceEntity) (o : Observation) : Frame → Frame → Prop
  | looks : Goes devices o .findingBefore (.foundBefore (devices.find o.deviceId))
  | asks {before : Option DeviceEntity} : Goes devices o (.foundBefore before) (.finding before)
  | finds {before : Option DeviceEntity} :
      Goes devices o (.finding before) (.found before (devices.find o.deviceId))
  | knows {before : Option DeviceEntity} {row : DeviceEntity} :
      Goes devices o (.found before (some row)) (.updating before)
  | misses {before : Option DeviceEntity} : Goes devices o (.found before none) (.saving before)
  | registers {before : Option DeviceEntity} : Goes devices o (.saved before) (.updating before)
  | announces {before : Option DeviceEntity} : Goes devices o (.updated before) (.returned none)

/-- Everything that a step can do to the calls of the handler and to the rows. -/
inductive Course (s : State) : Action → State → Prop
  | outside {a : Bus.Action Payload} {t : State} (h : Bus.step s.bus a = some t.bus)
      (hx : t.executions = s.called a) (hd : t.devices = s.devices) : Course s (.bus a) t
  | goes {a : Action} {t : State} {x : Execution} {o : Observation} {f : Frame}
      (hx : s.executions.find (x.link, x.target) = some x) (ho : observe x.event = some o)
      (hf : Goes s.devices o x.frame f) (hp : s.published a = x.emits)
      (he : t.executions = s.executions.save { x with frame := f }) (hd : t.devices = s.devices) :
      Course s a t
  | creates {a : Action} {t : State} {x : Execution} {o : Observation} {before : Option DeviceEntity}
      (hx : s.executions.find (x.link, x.target) = some x) (ho : observe x.event = some o)
      (hf : x.frame = .saving before) (hp : s.published a = [])
      (he : t.executions = s.executions.save { x with frame := .saved before })
      (hd : t.devices = saveCreated s.devices o.deviceId o.baseTopic) : Course s a t
  | applies {a : Action} {t : State} {x : Execution} {o : Observation} {before : Option DeviceEntity}
      (hx : s.executions.find (x.link, x.target) = some x) (ho : observe x.event = some o)
      (hf : x.frame = .updating before) (hp : s.published a = [])
      (he : t.executions = s.executions.save { x with frame := .updated before })
      (hd : t.devices = updatePresence s.devices o) : Course s a t
  | fails {a : Action} {t : State} {x : Execution} {message : String}
      (hx : s.executions.find (x.link, x.target) = some x) (hf : x.frame.querying)
      (hp : s.published a = []) (he : t.executions = s.executions.save
        { x with frame := .returned (some message) })
      (hd : t.devices = s.devices) : Course s a t
  | settles {a : Action} {t : State} {x : Execution} {failure : Option String}
      (hx : s.executions.find (x.link, x.target) = some x) (hf : x.frame = .returned failure)
      (hp : s.published a = []) (he : t.executions = s.executions.save { x with frame := .settled failure })
      (hd : t.devices = s.devices) : Course s a t

variable {x : Execution}

theorem emits_of_frame (hs : ∀ before, x.frame ≠ .saved before)
    (hu : ∀ before, x.frame ≠ .updated before) : x.emits = [] := by
  rw [Execution.emits]
  split
  · rename_i hf; exact absurd hf (hs _)
  · rename_i hf; exact absurd hf (hu _)
  · rfl

theorem course_commit (hx : s.executions.find (x.link, x.target) = some x) (h : s.commit x = some t) :
    Course s (.commit x.link x.target) t := by
  obtain ⟨o, ho, h⟩ := Option.bind_eq_some_iff.mp h
  have hp (hs : ∀ before, x.frame ≠ .saved before) (hu : ∀ before, x.frame ≠ .updated before) :
      s.published (.commit x.link x.target) = x.emits := (emits_of_frame hs hu).symm
  split at h
  · rename_i hf
    cases h
    exact .goes hx ho (hf ▸ .looks) (hp (by simp [hf]) (by simp [hf])) rfl rfl
  · rename_i hf
    cases h
    exact .goes hx ho (hf ▸ .finds) (hp (by simp [hf]) (by simp [hf])) rfl rfl
  · rename_i hf
    cases h
    exact .creates hx ho hf rfl rfl rfl
  · rename_i hf
    cases h
    exact .applies hx ho hf rfl rfl rfl
  · cases h

theorem course_refuse {link target : Nat} {message : String}
    (hx : s.executions.find (x.link, x.target) = some x) (h : s.refuse x message = some t) :
    Course s (.refuse link target message) t := by
  rw [State.refuse] at h
  split at h
  · rename_i hf; cases h; exact .fails hx (by rw [hf]; rfl) rfl rfl rfl
  · rename_i hf; cases h; exact .fails hx (by rw [hf]; rfl) rfl rfl rfl
  · rename_i hf; cases h; exact .fails hx (by rw [hf]; rfl) rfl rfl rfl
  · rename_i hf; cases h; exact .fails hx (by rw [hf]; rfl) rfl rfl rfl
  · cases h

theorem course_resume {draw : Draw} (hx : s.executions.find (x.link, x.target) = some x)
    (h : s.resume x draw = some t) : Course s (.resume x.link x.target draw) t := by
  have hp : s.published (.resume x.link x.target draw) = x.emits := by simp [State.published, hx]
  obtain ⟨o, ho, h⟩ := Option.bind_eq_some_iff.mp h
  split at h
  · rename_i hf
    cases h
    exact .goes hx ho (hf ▸ .asks) hp rfl rfl
  · rename_i before existing hf
    cases h
    refine .goes hx ho ?_ hp rfl rfl
    rw [hf]
    cases existing with
    | none => exact .misses
    | some row => exact .knows
  · rename_i hf
    cases h
    exact .goes hx ho (hf ▸ .registers) hp rfl rfl
  · rename_i hf
    cases h
    split
    · exact .goes hx ho (hf ▸ .announces) hp rfl rfl
    · exact .goes hx ho (hf ▸ .announces) hp rfl rfl
  · cases h

theorem step_course {a : Action} (h : step s a = some t) : Course s a t := by
  cases a with
  | bus action =>
      simp only [step] at h
      split at h
      · obtain ⟨b, hb, rfl⟩ := Option.map_eq_some_iff.mp h
        exact .outside hb rfl rfl
      · cases h
  | commit link target =>
      obtain ⟨x, rfl, rfl, hx, h⟩ := execution_of_bind h
      exact course_commit hx h
  | refuse link target message =>
      obtain ⟨x, -, -, hx, h⟩ := execution_of_bind h
      exact course_refuse hx h
  | resume link target draw =>
      obtain ⟨x, rfl, rfl, hx, h⟩ := execution_of_bind h
      exact course_resume hx h
  | settle link target =>
      obtain ⟨x, -, -, hx, h⟩ := execution_of_bind h
      rw [State.settle] at h
      split at h
      · rename_i hf; cases h; exact .settles hx hf rfl rfl rfl
      · cases h

theorem devices_publish (draw : Draw) (events : List Published) (s : State) :
    (events.foldl (fun s input => s.publish draw input) s).devices = s.devices := by
  induction events generalizing s with
  | nil => rfl
  | cons event events ih => exact (ih (s.publish draw event)).trans rfl

theorem seen_resume {draw : Draw} (hx : s.executions.find (x.link, x.target) = some x)
    (h : s.resume x draw = some t) :
    Run.run Bus.step s.bus (s.seen (.resume x.link x.target draw)) = some t.bus := by
  have hp : s.published (.resume x.link x.target draw) = x.emits := by simp [State.published, hx]
  obtain ⟨o, ho, h⟩ := Option.bind_eq_some_iff.mp h
  rw [State.seen, hp]
  split at h
  · rename_i hf; cases h; rw [emits_of_frame (by simp [hf]) (by simp [hf])]; rfl
  · rename_i hf; cases h; rw [emits_of_frame (by simp [hf]) (by simp [hf])]; rfl
  · rename_i hf; cases h; simp only [Execution.emits, ho, hf]; rfl
  · rename_i hf
    cases h
    simp only [Execution.emits, ho, hf]
    split <;> rfl
  · cases h

theorem seen_settle (hx : s.executions.find (x.link, x.target) = some x) (h : s.settle x = some t) :
    Run.run Bus.step s.bus (s.seen (.settle x.link x.target)) = some t.bus := by
  rw [State.settle] at h
  split at h
  · rename_i failure hf
    cases h
    simp only [State.seen, hx, Option.map_some, hf]
    cases hb : Bus.step s.bus (.settle x.link x.target (result failure)) with
    | none =>
        rw [Option.isSome_none, if_neg Bool.false_ne_true]
        rfl
    | some b =>
        rw [Option.isSome_some, if_pos rfl]
        exact Run.run_singleton.mpr hb
  · cases h

theorem bus_seen {a : Action} (h : step s a = some t) : Run.run Bus.step s.bus (s.seen a) = some t.bus := by
  cases a with
  | bus action =>
      simp only [step] at h
      split at h
      · obtain ⟨b, hb, rfl⟩ := Option.map_eq_some_iff.mp h
        exact Run.run_singleton.mpr hb
      · cases h
  | commit link target =>
      obtain ⟨x, -, -, -, h⟩ := execution_of_bind h
      obtain ⟨o, -, h⟩ := Option.bind_eq_some_iff.mp h
      split at h <;> cases h <;> rfl
  | refuse link target message =>
      obtain ⟨x, -, -, -, h⟩ := execution_of_bind h
      rw [State.refuse] at h
      split at h <;> cases h <;> rfl
  | resume link target draw =>
      obtain ⟨x, rfl, rfl, hx, h⟩ := execution_of_bind h
      exact seen_resume hx h
  | settle link target =>
      obtain ⟨x, rfl, rfl, hx, h⟩ := execution_of_bind h
      exact seen_settle hx h

def BusMove (s : State) (a : Action) (t : State) : Prop :=
  t.bus = s.bus ∨ ∃ b, Bus.step s.bus b = some t.bus ∧
    ∀ event, b = .publish event → a = .bus (.publish event) ∨ observe event = none

theorem busMove_publish {a : Action} {draw : Draw} {input : Published} {x : Execution} {f : Frame}
    (h : observe (createEvent draw.context draw.eventId draw.correlationId draw.now input) = none) :
    BusMove s a ((s.publish draw input).goto x f) := by
  refine .inr ⟨.publish _, rfl, fun event he => .inr ?_⟩
  cases he
  exact h

theorem observe_transition {draw : Draw} {event : DomainEvent Payload} {o : Observation} {wasOnline : Bool} :
    observe (createEvent draw.context draw.eventId draw.correlationId draw.now
      (transitionEvent event o wasOnline)) =
      none := by
  cases ho : o.online <;> simp [observe, createEvent, transitionEvent, announce, ho]

theorem bus_move {a : Action} (h : step s a = some t) : BusMove s a t := by
  cases a with
  | bus action =>
      simp only [step] at h
      split at h
      · obtain ⟨b, hb, rfl⟩ := Option.map_eq_some_iff.mp h
        exact .inr ⟨action, hb, fun event he => .inl (congrArg _ he)⟩
      · cases h
  | commit link target =>
      obtain ⟨x, -, -, -, h⟩ := execution_of_bind h
      obtain ⟨o, -, h⟩ := Option.bind_eq_some_iff.mp h
      split at h <;> cases h <;> exact .inl rfl
  | refuse link target message =>
      obtain ⟨x, -, -, -, h⟩ := execution_of_bind h
      rw [State.refuse] at h
      split at h <;> cases h <;> exact .inl rfl
  | resume link target draw =>
      obtain ⟨x, -, -, -, h⟩ := execution_of_bind h
      obtain ⟨o, -, h⟩ := Option.bind_eq_some_iff.mp h
      split at h
      · cases h; exact .inl rfl
      · cases h; exact .inl rfl
      · cases h; exact busMove_publish rfl
      · cases h
        split
        · exact busMove_publish observe_transition
        · exact .inl rfl
      · cases h
  | settle link target =>
      obtain ⟨x, -, -, -, h⟩ := execution_of_bind h
      rw [State.settle] at h
      split at h
      · cases h
        cases hb : Bus.step s.bus (.settle x.link x.target (result _)) with
        | none => exact .inl rfl
        | some b => exact .inr ⟨_, hb, fun event he => by cases he⟩
      · cases h

theorem handled_step {a : Action} {n i : Nat} {event : DomainEvent Payload} (hi : Bus.LaneInv s.bus)
    (h : step s a = some t) (hh : s.handled n i = some event) : t.handled n i = some event := by
  rcases bus_move h with hb | ⟨b, hb, -⟩
  · rwa [State.handled, hb]
  · exact Bus.heardBy_kept hi hb hh

end EspClawPlatform.Devices
