import EspClawPlatform.Lib.Run
import EspClawPlatform.Mqtt.Steps
import EspClawPlatform.Commands.CommandsService

namespace EspClawPlatform.Commands

open Run
open Devices (Device)
open Mqtt (ResponseEnvelope)

variable {config : Mqtt.Config} {s t : State}

def completion (id : String) (e : Published) : Option CommandStatus :=
  match e.payload with
  | .commandCompleted commandId _ status _ _ => if commandId = id then some status else none
  | _ => none

def State.completed (s : State) (id : String) : List CommandStatus := s.events.filterMap (completion id)

def State.published (s : State) (id : String) : Bool := s.mqtt.wire.any fun m => m.envelope.id = id

def Frame.Named (id : String) : Frame → Prop
  | .finding _ | .found .. => True
  | .creating _ _ c _ | .created _ _ c _ | .sending c _ _ | .closing c _ _ | .closed c _ _ => c.id = id
  | .recording c _ r _ | .recorded c _ r _ => c.id = id ∧ r.commandId = id

structure Linked (s : State) : Prop where
  named : ∀ id f, s.frames.get id = some f → f.Named id
  drawn : ∀ id f, s.frames.get id = some f → id ∈ s.drawn

structure Leaves (id : String) (s t : State) : Prop where
  frame : t.frames.get id = s.frames.get id
  row : t.commands.find id = s.commands.find id
  result : t.results.find id = s.results.find id
  completed : t.completed id = s.completed id
  outcome : t.outcomes.get id = s.outcomes.get id
  published : t.published id = s.published id
  drawn : id ∈ t.drawn ↔ id ∈ s.drawn

def Extends (id : String) (wire wire' : List Mqtt.Message) : Prop :=
  wire' = wire ∨ ∃ m : Mqtt.Message, m.envelope.id = id ∧ wire' = wire ++ [m]

inductive Moves (s : State) (id : String) : Frame → State → Prop
  | answered {call : Call} :
      Moves s id (.finding call) (s.goto id (.found call (s.devices.find call.deviceId)))
  | unknown {call : Call} {message : String} : Moves s id (.found call none) (s.finish id (.error message))
  | begins {call : Call} {device : Device} {n : Nat} :
      Moves s id (.found call (some device)) (s.goto id (.creating call device (call.command id) n))
  | stored {call : Call} {device : Device} {c : Command} {n : Nat} :
      Moves s id (.creating call device c n)
        ({ s with commands := s.commands.save { c with createdAt := s.now } }.goto id
          (.created call device { c with createdAt := s.now } n))
  | sent {call : Call} {device : Device} {c : Command} {n promise : Nat} {mqtt : Mqtt.State}
      (hw : Extends id s.mqtt.wire mqtt.wire) :
      Moves s id (.created call device c n)
        ({ s with mqtt := mqtt, events := s.events ++ [createdEvent call c] }.goto id (.sending c promise n))
  | threw {call : Call} {device : Device} {c : Command} {n : Nat} {mqtt : Mqtt.State}
      {response : ResponseEnvelope}
      (hw : Extends id s.mqtt.wire mqtt.wire) :
      Moves s id (.created call device c n)
        ({ s with mqtt := mqtt, events := s.events ++ [createdEvent call c] }.resolveOutcome id c response n)
  | settled {c : Command} {promise n : Nat} {response : ResponseEnvelope} :
      Moves s id (.sending c promise n) (s.resolveOutcome id c response n)
  | closes {c : Command} {response : ResponseEnvelope} {n : Nat} :
      Moves s id (.closing c response n)
        ({ s with commands := s.commands.save c }.goto id (.closed c response n))
  | records {c : Command} {response : ResponseEnvelope} {n : Nat} :
      Moves s id (.closed c response n) (s.goto id (.recording c response (s.result c response) n))
  | saves {c : Command} {response : ResponseEnvelope} {r : CommandResult} {n : Nat} :
      Moves s id (.recording c response r n)
        ({ s with results := s.results.save r }.goto id (.recorded c response r n))
  | returns {c : Command} {response : ResponseEnvelope} {r : CommandResult} {n durationMs : Nat} :
      Moves s id (.recorded c response r n)
        ({ s with events := s.events ++ [completedEvent c response.ok durationMs] }.finish id
          (.ok { command := c, result := r }))

section Moves

variable {id : String} {f : Frame}

theorem moves_of_commit (h : s.commit id f = some t) : Moves s id f t := by
  cases f with
  | finding => cases h; exact .answered
  | creating => cases h; exact .stored
  | closing => cases h; exact .closes
  | recording => cases h; exact .saves
  | _ => cases h

theorem moves_send {call : Call} {device : Device} {c : Command} {n : Nat} :
    Moves s id (.created call device c n) (s.send config id call device c n) := by
  rw [State.send]
  split
  · exact .sent (Mqtt.wire_sendCommand rfl)
  · exact .threw (Mqtt.wire_sendCommand rfl)

theorem moves_of_resume (h : s.resume config id f = some t) : Moves s id f t := by
  cases f with
  | found call device =>
      cases device with
      | none => cases h; exact .unknown
      | some device => cases h; exact .begins
  | created => cases h; exact moves_send
  | sending =>
      obtain ⟨p, -, h⟩ := Option.bind_eq_some_iff.mp h
      split at h <;> cases h
      · exact .settled
      · exact .settled
  | closed => cases h; exact .records
  | recorded => cases h; exact .returns
  | _ => cases h

def Frame.querying : Frame → Bool
  | .finding _ | .creating .. | .closing .. | .recording .. => true
  | _ => false

theorem refuse_eq {message : String} (h : s.refuse id message f = some t) :
    f.querying ∧ t = s.finish id (.error message) := by
  cases f with
  | finding | creating | closing | recording => cases h; exact ⟨rfl, rfl⟩
  | _ => cases h

end Moves

section Leaves

variable {id j : String}

theorem Leaves.refl (id : String) (s : State) : Leaves id s s := ⟨rfl, rfl, rfl, rfl, rfl, rfl, Iff.rfl⟩

theorem Leaves.goto {f : Frame} (h : Leaves id s t) (hj : id ≠ j) : Leaves id s (t.goto j f) :=
  ⟨(Table.get_set_of_ne _ _ hj).trans h.frame, h.row, h.result, h.completed, h.outcome, h.published, h.drawn⟩

theorem Leaves.finish {outcome : Except String DispatchOutcome} (h : Leaves id s t) (hj : id ≠ j) :
    Leaves id s (t.finish j outcome) where
  frame := by rw [← h.frame, State.finish, Table.get_erase, if_neg hj]
  row := h.row
  result := h.result
  completed := h.completed
  outcome := (Table.get_set_of_ne _ _ hj).trans h.outcome
  published := h.published
  drawn := h.drawn

theorem leaves_save {c : Command} (hj : id ≠ c.id) : Leaves id s { s with commands := s.commands.save c } :=
  ⟨rfl, Table.find_save_of_ne _ hj, rfl, rfl, rfl, rfl, Iff.rfl⟩

theorem leaves_record {r : CommandResult} (hj : id ≠ r.commandId) :
    Leaves id s { s with results := s.results.save r } :=
  ⟨rfl, rfl, Table.find_save_of_ne _ hj, rfl, rfl, rfl, Iff.rfl⟩

@[simp]
theorem completed_append (s : State) (es : List Published) :
    { s with events := s.events ++ es }.completed id = s.completed id ++ es.filterMap (completion id) :=
  List.filterMap_append

@[simp]
theorem completion_created {call : Call} {c : Command} : completion id (createdEvent call c) = none := rfl

@[simp]
theorem completion_completed {c : Command} {ok : Bool} {durationMs : Nat} :
    completion id (completedEvent c ok durationMs) = if c.id = id then some c.status else none := rfl

theorem published_extends {wire wire' : List Mqtt.Message} (h : Extends j wire wire') (hj : id ≠ j) :
    (wire'.any fun m => m.envelope.id = id) = wire.any fun m => m.envelope.id = id := by
  rcases h with rfl | ⟨m, hm, rfl⟩
  · rfl
  · simp [hm, Ne.symm hj]

theorem leaves_sent {call : Call} {c : Command} {mqtt : Mqtt.State} (hw : Extends j s.mqtt.wire mqtt.wire)
    (hj : id ≠ j) : Leaves id s { s with mqtt := mqtt, events := s.events ++ [createdEvent call c] } where
  frame := rfl
  row := rfl
  result := rfl
  completed := List.filterMap_append.trans (List.append_nil _)
  outcome := rfl
  published := published_extends hw hj
  drawn := Iff.rfl

theorem leaves_moves {f : Frame} (hf : f.Named j) (h : Moves s j f t) (hj : id ≠ j) : Leaves id s t := by
  cases h with
  | answered | begins | settled | records => exact (Leaves.refl id s).goto hj
  | unknown => exact (Leaves.refl id s).finish hj
  | stored => exact (leaves_save (show id ≠ _ from hf ▸ hj)).goto hj
  | closes => exact (leaves_save (show id ≠ _ from hf ▸ hj)).goto hj
  | saves => exact (leaves_record (show id ≠ _ from hf.2 ▸ hj)).goto hj
  | sent hw => exact (leaves_sent hw hj).goto hj
  | threw hw => exact (leaves_sent hw hj).goto hj
  | returns =>
      refine Leaves.finish ⟨rfl, rfl, rfl, ?_, rfl, rfl, Iff.rfl⟩ hj
      have hne : ¬ _ = id := fun he => hj (he.symm.trans hf.1)
      simp [completed_append, hne]

end Leaves

/-- The actions that end a dispatch or a command before its event is out. -/
def Action.ends : Action → Bool
  | .refuse .. | .restart _ | .sweep => true
  | _ => false

/-- What one step does: it is taken by one dispatch, begins one, or belongs to
the surroundings. -/
inductive Shape (s : State) : Action → State → Prop
  | around {a : Action} {t : State} (ha : a.ends = false) (h : ∀ id, Leaves id s t)
      (hf : t.frames = s.frames) :
      Shape s a t
  | dispatch {id : String} {call : Call} {t : State} (hnew : id ∉ s.drawn)
      (h : t = { s with drawn := id :: s.drawn }.goto id (.finding call)) : Shape s (.dispatch id call) t
  | moves {a : Action} {id : String} {f : Frame} {t : State} (ha : a.ends = false)
      (hf : s.frames.get id = some f)
      (h : Moves s id f t) : Shape s a t
  | refused {id message : String} {f : Frame} {t : State} (hf : s.frames.get id = some f) (hq : f.querying)
      (h : t = s.finish id (.error message)) : Shape s (.refuse id message) t
  | sweep {t : State} (h : t = s.sweep) : Shape s .sweep t
  | restart {connected : Bool} {t : State} (h : t = s.restart connected) : Shape s (.restart connected) t

theorem mqtt_shape {action : Mqtt.Action} (h : s.mqttStep config action = some t) :
    Shape s (.mqtt action) t := by
  rw [State.mqttStep] at h
  split at h
  · cases h
  · rename_i hown
    obtain ⟨mqtt, hm, rfl⟩ := Option.map_eq_some_iff.mp h
    have hw : mqtt.wire = s.mqtt.wire := Mqtt.wire_step hm hown
    exact .around rfl (fun id => ⟨rfl, rfl, rfl, rfl, rfl, by simp [State.published, hw], Iff.rfl⟩) rfl

theorem step_shape {a : Action} (h : step config s a = some t) : Shape s a t := by
  cases a with
  | mqtt action => exact mqtt_shape h
  | registry devices => cases h; exact .around rfl (fun id => ⟨rfl, rfl, rfl, rfl, rfl, rfl, Iff.rfl⟩) rfl
  | dispatch id call =>
      simp only [step, State.dispatch] at h
      split at h <;> cases h
      rename_i hnew
      exact .dispatch hnew rfl
  | commit id =>
      obtain ⟨f, hf, h⟩ := Option.bind_eq_some_iff.mp h
      exact .moves rfl hf (moves_of_commit h)
  | refuse id message =>
      obtain ⟨f, hf, h⟩ := Option.bind_eq_some_iff.mp h
      obtain ⟨hq, rfl⟩ := refuse_eq h
      exact .refused hf hq rfl
  | resume id =>
      obtain ⟨f, hf, h⟩ := Option.bind_eq_some_iff.mp h
      exact .moves rfl hf (moves_of_resume h)
  | sweep =>
      simp only [step] at h
      split at h <;> cases h
      exact .sweep rfl
  | sweepFails =>
      simp only [step] at h
      split at h <;> cases h
      exact .around rfl (fun id => ⟨rfl, rfl, rfl, rfl, rfl, rfl, Iff.rfl⟩) rfl
  | restart connected => cases h; exact .restart rfl

theorem named_own {id : String} {f g : Frame} (hf : f.Named id) (h : Moves s id f t)
    (hg : t.frames.get id = some g) : g.Named id := by
  have hgoto {u : State} {f' : Frame} (hg : (u.goto id f').frames.get id = some g) : f' = g := by
    rw [State.goto, Table.get_set_self] at hg
    exact Option.some.inj hg
  have hfinish {u : State} {outcome : Except String DispatchOutcome} :
      (u.finish id outcome).frames.get id ≠ some g := by
    rw [State.finish, Table.get_erase_self]
    exact nofun
  cases h with
  | answered => exact hgoto hg ▸ trivial
  | begins => exact hgoto hg ▸ (rfl : (Call.command _ id).id = id)
  | stored | sent | closes | saves => exact hgoto hg ▸ hf
  | records => exact hgoto hg ▸ ⟨hf, hf⟩
  | settled => rw [State.resolveOutcome] at hg; exact hgoto hg ▸ hf
  | threw => rw [State.resolveOutcome] at hg; exact hgoto hg ▸ hf
  | unknown | returns => exact absurd hg hfinish

theorem drawn_moves {id j : String} {f : Frame} (h : Moves s id f t) : j ∈ t.drawn ↔ j ∈ s.drawn := by
  cases h <;> exact Iff.rfl

theorem linked_init (connected : Bool) : Linked (init connected) where
  named := fun _ _ h => by cases h
  drawn := fun _ _ h => by cases h

theorem linked_step {a : Action} (hn : Linked s) (h : step config s a = some t) : Linked t := by
  suffices hall : ∀ id g, t.frames.get id = some g → g.Named id ∧ id ∈ t.drawn from
    ⟨fun id g hg => (hall id g hg).1, fun id g hg => (hall id g hg).2⟩
  intro id g hg
  cases step_shape h with
  | around _ hleaves hf =>
      rw [hf] at hg
      exact ⟨hn.named id g hg, (hleaves id).drawn.mpr (hn.drawn id g hg)⟩
  | @dispatch j call _ hnew h =>
      subst h
      rw [State.goto, Table.get_set] at hg
      split at hg
      · rename_i hj
        cases hg
        exact ⟨trivial, List.mem_cons.mpr (.inl hj)⟩
      · exact ⟨hn.named id g hg, List.mem_cons_of_mem j (hn.drawn id g hg)⟩
  | @moves _ j f _ _ hf h =>
      by_cases hj : id = j
      · subst hj
        exact ⟨named_own (hn.named id f hf) h hg, (drawn_moves h).mpr (hn.drawn id f hf)⟩
      · have hl := leaves_moves (hn.named j f hf) h hj
        rw [hl.frame] at hg
        exact ⟨hn.named id g hg, hl.drawn.mpr (hn.drawn id g hg)⟩
  | @refused j _ f _ hf hq h =>
      subst h
      rw [State.finish, Table.get_erase] at hg
      split at hg
      · cases hg
      · exact ⟨hn.named id g hg, hn.drawn id g hg⟩
  | sweep h => subst h; exact ⟨hn.named id g hg, hn.drawn id g hg⟩
  | restart h => subst h; cases hg

end EspClawPlatform.Commands
