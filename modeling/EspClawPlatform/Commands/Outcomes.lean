import EspClawPlatform.Commands.Steps

namespace EspClawPlatform.Commands

open Run

variable {config : Mqtt.Config} {s t : State} {id : String}

def Frame.unsent : Frame → Bool
  | .finding _ | .found .. | .creating .. | .created .. => true
  | _ => false

structure OutcomeInv (s : State) : Prop where
  linked : Linked s
  waits : ∀ id f, s.frames.get id = some f → s.outcomes.get id = none
  unsent : ∀ id f, s.frames.get id = some f → f.unsent → s.published id = false
  fresh : ∀ id, id ∉ s.drawn → s.outcomes.get id = none ∧ s.published id = false
  named : ∀ id outcome, s.outcomes.get id = some (.ok outcome) → outcome.command.id = id

/-- The dispatch has rejected although its message was published. -/
def Lost (s : State) (id : String) : Prop :=
  s.published id ∧ ∃ message, s.outcomes.get id = some (.error message)

/-- No query of the dispatch fails once its message is published. -/
def Undisturbed (id : String) (s : State) : Action → Prop
  | .refuse j _ => j = id → ¬ s.published id
  | _ => True

instance (id : String) : ∀ s a, Decidable (Undisturbed id s a)
  | s, .refuse j _ => inferInstanceAs (Decidable (j = id → ¬ s.published id))
  | _, .mqtt _ | _, .registry _ | _, .dispatch .. | _, .commit _ | _, .resume _ | _, .sweep | _, .sweepFails
  | _, .restart _ => inferInstanceAs (Decidable True)

theorem undisturbed_of_ends {a : Action} (h : a.ends = false) : Undisturbed id s a := by
  cases a with
  | refuse => cases h
  | _ => trivial

inductive Turn (s : State) (id : String) (f : Frame) (t : State) : Prop
  | goes {g : Frame} (hg : t.frames.get id = some g) (ho : t.outcomes.get id = s.outcomes.get id)
      (hp : t.published id = s.published id ∨ ¬ g.unsent) (hu : g.unsent → f.unsent)
  | unknown {message : String} (hu : f.unsent) (hg : t.frames.get id = none)
      (ho : t.outcomes.get id = some (.error message)) (hp : t.published id = s.published id)
  | returns {outcome : DispatchOutcome} (hg : t.frames.get id = none)
      (ho : t.outcomes.get id = some (.ok outcome))
      (hn : f.Named id → outcome.command.id = id)

theorem turn_moves {f : Frame} (h : Moves s id f t) : Turn s id f t := by
  cases h with
  | unknown => exact .unknown rfl (Table.get_erase_self _ _) (Table.get_set_self _ _ _) rfl
  | returns => exact .returns (Table.get_erase_self _ _) (Table.get_set_self _ _ _) fun hn => hn.1
  | sent => exact .goes (Table.get_set_self _ _ _) rfl (.inr nofun) nofun
  | threw => exact .goes (Table.get_set_self _ _ _) rfl (.inr nofun) nofun
  | answered | begins | stored => exact .goes (Table.get_set_self _ _ _) rfl (.inl rfl) fun _ => rfl
  | settled | closes | records | saves => exact .goes (Table.get_set_self _ _ _) rfl (.inr nofun) nofun

theorem outcomeInv_init (connected : Bool) : OutcomeInv (init connected) where
  linked := linked_init connected
  waits := fun _ _ h => by cases h
  unsent := fun _ _ h => by cases h
  fresh := fun _ _ => ⟨rfl, rfl⟩
  named := fun _ _ h => by cases h

structure Waits (s : State) (id : String) : Prop where
  waits : ∀ f, s.frames.get id = some f → s.outcomes.get id = none ∧ (f.unsent → s.published id = false)
  fresh : id ∉ s.drawn → s.outcomes.get id = none ∧ s.published id = false
  named : ∀ outcome, s.outcomes.get id = some (.ok outcome) → outcome.command.id = id

theorem waits_of_inv (hi : OutcomeInv s) (id : String) : Waits s id :=
  ⟨fun f hf => ⟨hi.waits id f hf, hi.unsent id f hf⟩, hi.fresh id, hi.named id⟩

theorem waits_leaves (h : Leaves id s t) (hw : Waits s id) : Waits t id where
  waits := by rw [h.frame, h.outcome, h.published]; exact hw.waits
  fresh := by rw [h.drawn, h.outcome, h.published]; exact hw.fresh
  named := by rw [h.outcome]; exact hw.named

theorem waits_moves {f : Frame} (hi : OutcomeInv s) (hf : s.frames.get id = some f) (h : Moves s id f t) :
    Waits t id := by
  have hd : id ∈ t.drawn := (drawn_moves h).mpr (hi.linked.drawn id f hf)
  have hover (hnone : t.frames.get id = none) (hn : ∀ outcome, t.outcomes.get id = some (.ok outcome) →
      outcome.command.id = id) : Waits t id := by
    refine ⟨fun g hg => ?_, fun hnew => absurd hd hnew, hn⟩
    cases hnone.symm.trans hg
  cases turn_moves h with
  | @goes g hg' ho hp hu =>
      have hnone := ho.trans (hi.waits id f hf)
      refine ⟨fun g' hg => ⟨hnone, fun hun => ?_⟩, fun hnew => absurd hd hnew, fun o hok => ?_⟩
      · obtain rfl := Option.some.inj (hg'.symm.trans hg)
        rcases hp with hp | hp
        · exact hp.trans (hi.unsent id f hf (hu hun))
        · exact absurd hun hp
      · cases hnone.symm.trans hok
  | unknown _ hnone hrej => exact hover hnone fun o hok => by cases hrej.symm.trans hok
  | returns hnone hok hn =>
      refine hover hnone fun o ho => ?_
      obtain rfl : _ = o := Except.ok.inj (Option.some.inj (hok.symm.trans ho))
      exact hn (hi.linked.named id f hf)

theorem waits_step {a : Action} (hi : OutcomeInv s) (h : step config s a = some t) (id : String) :
    Waits t id := by
  have hw := waits_of_inv hi id
  cases step_shape h with
  | around _ hl => exact waits_leaves (hl id) hw
  | @dispatch j call _ hnew h =>
      subst h
      by_cases hj : id = j
      · subst hj
        exact ⟨fun f hf => ⟨(hi.fresh id hnew).1, fun _ => (hi.fresh id hnew).2⟩,
          fun hd => absurd List.mem_cons_self hd, hw.named⟩
      · refine ⟨fun f hf => hw.waits f ((Table.get_set_of_ne _ _ hj).symm.trans hf),
          fun hd => hw.fresh fun hs => ?_,
          hw.named⟩
        exact hd (List.mem_cons_of_mem j hs)
  | @moves _ j f _ _ hf h =>
      by_cases hj : id = j
      · subst hj
        exact waits_moves hi hf h
      · exact waits_leaves (leaves_moves (hi.linked.named j f hf) h hj) hw
  | @refused j message f _ hf hq h =>
      subst h
      by_cases hj : id = j
      · subst hj
        refine ⟨fun g hg => ?_, fun hd => absurd (hi.linked.drawn id f hf) hd, fun o ho => ?_⟩
        · rw [State.finish, Table.get_erase_self] at hg
          cases hg
        · rw [State.finish, Table.get_set_self] at ho
          cases ho
      · exact waits_leaves ((Leaves.refl id s).finish hj) hw
  | sweep h => subst h; exact ⟨hw.waits, hw.fresh, hw.named⟩
  | restart h =>
      subst h
      refine ⟨fun f hf => ?_, hw.fresh, hw.named⟩
      cases hf

theorem outcomeInv_step {a : Action} (hi : OutcomeInv s) (h : step config s a = some t) : OutcomeInv t where
  linked := linked_step hi.linked h
  waits := fun id f hf => ((waits_step hi h id).waits f hf).1
  unsent := fun id f hf => ((waits_step hi h id).waits f hf).2
  fresh := fun id => (waits_step hi h id).fresh
  named := fun id => (waits_step hi h id).named

theorem outcome_kept {a : Action} {o : Except String DispatchOutcome} (hi : OutcomeInv s)
    (h : step config s a = some t) (ho : s.outcomes.get id = some o) :
    t.outcomes.get id = some o ∧ t.published id = s.published id := by
  have hleaves (hl : Leaves id s t) : t.outcomes.get id = some o ∧ t.published id = s.published id :=
    ⟨hl.outcome.trans ho, hl.published⟩
  have hframe {f : Frame} (hf : s.frames.get id = some f) : False := by
    cases (hi.waits id f hf).symm.trans ho
  cases step_shape h with
  | around _ hl => exact hleaves (hl id)
  | dispatch _ h => subst h; exact ⟨ho, rfl⟩
  | @moves _ j f _ _ hf h =>
      by_cases hj : id = j
      · subst hj
        exact (hframe hf).elim
      · exact hleaves (leaves_moves (hi.linked.named j f hf) h hj)
  | @refused j message f _ hf hq h =>
      subst h
      by_cases hj : id = j
      · subst hj
        exact (hframe hf).elim
      · exact hleaves ((Leaves.refl id s).finish hj)
  | sweep h => subst h; exact ⟨ho, rfl⟩
  | restart h => subst h; exact ⟨ho, rfl⟩

theorem lost_leaves (h : Leaves id s t) : Lost t id ↔ Lost s id := by
  rw [Lost, Lost, h.published, h.outcome]

theorem lost_step {a : Action} (hi : OutcomeInv s) (h : step config s a = some t) :
    Lost t id ↔ Lost s id ∨ ¬ Undisturbed id s a := by
  have hkept (hu : Undisturbed id s a) (hl : Lost t id ↔ Lost s id) : Lost t id ↔ Lost s id ∨
    ¬ Undisturbed id s a := by
    rw [hl, or_iff_left (not_not.mpr hu)]
  cases step_shape h with
  | around ha hl => exact hkept (undisturbed_of_ends ha) (lost_leaves (hl id))
  | dispatch _ h => subst h; exact hkept trivial Iff.rfl
  | @moves _ j f _ ha hf h =>
      apply hkept (undisturbed_of_ends ha)
      by_cases hj : id = j
      · subst hj
        have hwaits := hi.waits id f hf
        have hs : ¬ Lost s id := fun ⟨_, _, ho⟩ => by cases hwaits.symm.trans ho
        rw [iff_false_intro hs, iff_false]
        rintro ⟨hpub, message, ho⟩
        cases turn_moves h with
        | goes _ hsame => cases (hsame.trans hwaits).symm.trans ho
        | unknown hu _ _ hp =>
            rw [hp, hi.unsent id f hf hu] at hpub
            cases hpub
        | returns _ hok => cases hok.symm.trans ho
      · exact lost_leaves (leaves_moves (hi.linked.named j f hf) h hj)
  | @refused j message f _ hf hq h =>
      subst h
      by_cases hj : id = j
      · subst hj
        have hs : ¬ Lost s id := fun ⟨_, _, ho⟩ => by cases (hi.waits id f hf).symm.trans ho
        rw [or_iff_right hs]
        have hrejected : (s.finish id (.error message)).outcomes.get id = some (.error message) :=
          Table.get_set_self _ _ _
        constructor
        · exact fun hlost hu => hu rfl hlost.1
        · intro hu
          have hpub : s.published id = true := by simpa [Undisturbed] using hu
          exact ⟨hpub, message, hrejected⟩
      · exact hkept (fun he => absurd he.symm hj) (lost_leaves ((Leaves.refl id s).finish hj))
  | sweep h => subst h; exact hkept trivial Iff.rfl
  | restart h => subst h; exact hkept trivial Iff.rfl

end EspClawPlatform.Commands
