import EspClawPlatform.Commands.Steps

namespace EspClawPlatform.Commands

open Run

variable {config : Mqtt.Config} {s t : State}

structure View where
  row : Option Command
  result : Option CommandResult
  completed : List CommandStatus

def State.view (s : State) (id : String) : View :=
  { row := s.commands.find id, result := s.results.find id, completed := s.completed id }

def Frame.Agrees (v : View) : Frame → Prop
  | .finding _ | .found .. | .creating .. => v = ⟨none, none, []⟩
  | .created .. | .sending .. => ∃ b, v = ⟨some b, none, []⟩
  | .closing c _ _ => c.status ≠ .pending ∧ ∃ b, v = ⟨some b, none, []⟩
  | .closed c _ _ | .recording c _ _ _ => c.status ≠ .pending ∧ v = ⟨some c, none, []⟩
  | .recorded c _ r _ => c.status ≠ .pending ∧ v = ⟨some c, some r, []⟩

inductive Settled : View → Prop
  | unknown : Settled ⟨none, none, []⟩
  | abandoned {c : Command} (hc : c.status = .pending) : Settled ⟨some c, none, []⟩
  | complete {c : Command} {r : CommandResult} (hc : c.status ≠ .pending) :
      Settled ⟨some c, some r, [c.status]⟩
  | incomplete {c : Command} {r : Option CommandResult} (hc : c.status ≠ .pending) : Settled ⟨some c, r, []⟩

def Stage (v : View) : Option Frame → Prop
  | none => Settled v
  | some f => f.Agrees v

structure CompletionInv (s : State) : Prop where
  linked : Linked s
  stage : ∀ id, Stage (s.view id) (s.frames.get id)
  fresh : ∀ id, id ∉ s.drawn → s.view id = ⟨none, none, []⟩

/-- The dispatch of a command is over, which has a terminal status and no event. -/
def Flawed (s : State) (id : String) : Prop :=
  s.frames.get id = none ∧ s.completed id = [] ∧ ∃ c, s.commands.find id = some c ∧ c.status ≠ .pending

/-- No dispatch ends by a failed query or with its process once its command has
a terminal status, and a sweep closes only what is still being dispatched. -/
def Smooth (s : State) : Action → Prop
  | .refuse id _ => ∀ c ∈ s.commands.find id, c.status = .pending
  | .restart _ => ∀ e ∈ s.frames.rows, ∀ c ∈ s.commands.find e.1, c.status = .pending
  | .sweep => ∀ c ∈ s.commands.rows, c.status = .pending → (s.frames.get c.id).isSome
  | _ => True

instance : ∀ s a, Decidable (Smooth s a)
  | s, .refuse id _ => inferInstanceAs (Decidable (∀ c ∈ s.commands.find id, c.status = .pending))
  | s, .restart _ =>
      inferInstanceAs (Decidable (∀ e ∈ s.frames.rows, ∀ c ∈ s.commands.find e.1, c.status = .pending))
  | s, .sweep =>
      inferInstanceAs (Decidable (∀ c ∈ s.commands.rows, c.status = .pending → (s.frames.get c.id).isSome))
  | _, .mqtt _ | _, .registry _ | _, .dispatch .. | _, .commit _ | _, .resume _ | _, .sweepFails =>
      inferInstanceAs (Decidable True)

/-- One event announces the status of the command, and its result is stored
unless a sweep has closed it. -/
def Complete (s : State) (c : Command) : Prop :=
  s.completed c.id = [c.status] ∧ (c.id ∉ s.swept → (s.results.find c.id).isSome)

theorem classify_ne_pending (response : Mqtt.ResponseEnvelope) : classify response ≠ .pending := by
  simp only [classify]
  repeat' split
  all_goals simp

theorem settled_of_agrees {v : View} {f : Frame} (h : f.Agrees v) : Settled v := by
  have habandon (b : Command) : Settled ⟨some b, none, []⟩ := by
    by_cases hb : b.status = .pending
    · exact .abandoned hb
    · exact .incomplete hb
  cases f with
  | finding | found | creating => cases h; exact .unknown
  | created | sending => obtain ⟨b, rfl⟩ := h; exact habandon b
  | closing => obtain ⟨-, b, rfl⟩ := h; exact habandon b
  | closed | recording | recorded => obtain ⟨hc, rfl⟩ := h; exact .incomplete hc

theorem completed_of_agrees {v : View} {f : Frame} (h : f.Agrees v) : v.completed = [] := by
  cases f with
  | finding | found | creating => cases h; rfl
  | created | sending => obtain ⟨b, rfl⟩ := h; rfl
  | closing => obtain ⟨-, b, rfl⟩ := h; rfl
  | closed | recording | recorded => obtain ⟨-, rfl⟩ := h; rfl

theorem agrees_sweep {v : View} {f : Frame} (now : Nat) (h : f.Agrees v) :
    f.Agrees { v with row := v.row.map (Command.sweep now) } := by
  have hkeep {c : Command} (hc : c.status ≠ .pending) : c.sweep now = c := if_neg hc
  cases f with
  | finding | found | creating => cases h; rfl
  | created | sending => obtain ⟨b, rfl⟩ := h; exact ⟨_, rfl⟩
  | closing => obtain ⟨hc, b, rfl⟩ := h; exact ⟨hc, _, rfl⟩
  | closed | recording | recorded => obtain ⟨hc, rfl⟩ := h; exact ⟨hc, by rw [Option.map_some, hkeep hc]⟩

theorem settled_sweep {v : View} (now : Nat) (h : Settled v) :
    Settled { v with row := v.row.map (Command.sweep now) } := by
  have hkeep {c : Command} (hc : c.status ≠ .pending) : c.sweep now = c := if_neg hc
  cases h with
  | unknown => exact .unknown
  | abandoned hc =>
      refine .incomplete ?_
      rw [Command.sweep, if_pos hc]
      simp
  | complete hc => rw [Option.map_some, hkeep hc]; exact .complete hc
  | incomplete hc => rw [Option.map_some, hkeep hc]; exact .incomplete hc

theorem completed_of_settled {v : View} {c : Command} (h : Settled v) (hrow : v.row = some c)
    (hp : c.status = .pending) : v.completed = [] := by
  cases h with
  | unknown | abandoned | incomplete => rfl
  | complete hc =>
      obtain rfl := Option.some.inj hrow
      exact absurd hp hc

section Views

variable {id : String}

theorem view_leaves (h : Leaves id s t) : t.view id = s.view id := by
  rw [State.view, h.row, h.result, h.completed]
  rfl

theorem view_save {c : Command} (hc : c.id = id) :
    { s with commands := s.commands.save c }.view id = { s.view id with row := some c } := by
  subst hc
  exact congrArg (fun row => View.mk row _ _) (Table.find_save_self s.commands c)

theorem view_record {r : CommandResult} (hr : r.commandId = id) :
    { s with results := s.results.save r }.view id = { s.view id with result := some r } := by
  subst hr
  exact congrArg (fun result => View.mk _ result _) (Table.find_save_self s.results r)

theorem view_sent {call : Call} {c : Command} {mqtt : Mqtt.State} :
    { s with mqtt := mqtt, events := s.events ++ [createdEvent call c] }.view id = s.view id :=
  congrArg (View.mk _ _) (List.filterMap_append.trans (List.append_nil _))

theorem view_completed {c : Command} {ok : Bool} {durationMs : Nat} (hc : c.id = id) :
    { s with events := s.events ++ [completedEvent c ok durationMs] }.view id =
      { s.view id with completed := (s.view id).completed ++ [c.status] } :=
  congrArg (View.mk _ _) (by rw [completed_append]; simp [hc, State.view])

theorem view_sweep : s.sweep.view id = { s.view id with row := (s.view id).row.map (Command.sweep s.now) } :=
  congrArg (fun row => View.mk row _ _) (Table.find_modify _ _ (Command.id_sweep s.now) id)

end Views

theorem frame_goto (s : State) (id : String) (f : Frame) : (s.goto id f).frames.get id = some f :=
  Table.get_set_self _ _ _

theorem frame_finish (s : State) (id : String) (outcome : Except String DispatchOutcome) :
    (s.finish id outcome).frames.get id = none := Table.get_erase_self _ _

theorem agrees_goto {id : String} {f : Frame} (h : f.Agrees (s.view id)) :
    Stage ((s.goto id f).view id) ((s.goto id f).frames.get id) := by
  rw [frame_goto]
  exact h

theorem settled_finish {id : String} {outcome : Except String DispatchOutcome} (h : Settled (s.view id)) :
    Stage ((s.finish id outcome).view id) ((s.finish id outcome).frames.get id) := by
  rw [frame_finish]
  exact h

theorem stage_moves {id : String} {f : Frame} (hf : f.Named id) (ha : f.Agrees (s.view id))
    (h : Moves s id f t) :
    Stage (t.view id) (t.frames.get id) := by
  cases h with
  | answered => exact agrees_goto ha
  | unknown => exact settled_finish (settled_of_agrees ha)
  | begins => exact agrees_goto ha
  | @stored call device c n =>
      have hsave := view_save (s := s) (c := { c with createdAt := s.now }) hf
      rw [show s.view id = _ from ha] at hsave
      exact agrees_goto ⟨_, hsave⟩
  | sent =>
      obtain ⟨b, hv⟩ := ha
      exact agrees_goto ⟨b, view_sent.trans hv⟩
  | threw =>
      obtain ⟨b, hv⟩ := ha
      exact agrees_goto ⟨classify_ne_pending _, b, view_sent.trans hv⟩
  | settled => exact agrees_goto ⟨classify_ne_pending _, ha⟩
  | closes =>
      obtain ⟨hc, b, hv⟩ := ha
      exact agrees_goto ⟨hc, by rw [view_save hf, hv]⟩
  | records => exact agrees_goto ha
  | saves =>
      obtain ⟨hc, hv⟩ := ha
      exact agrees_goto ⟨hc, by rw [view_record hf.2, hv]⟩
  | returns =>
      obtain ⟨hc, hv⟩ := ha
      apply settled_finish
      rw [view_completed hf.1, hv]
      exact .complete hc

theorem completionInv_init (connected : Bool) : CompletionInv (init connected) where
  linked := linked_init connected
  stage := fun _ => .unknown
  fresh := fun _ _ => rfl

theorem stage_step {a : Action} (hi : CompletionInv s) (h : step config s a = some t) (id : String) :
    Stage (t.view id) (t.frames.get id) := by
  cases step_shape h with
  | around _ hleaves hf =>
      rw [view_leaves (hleaves id), hf]
      exact hi.stage id
  | @dispatch j call _ hnew h =>
      subst h
      by_cases hj : id = j
      · subst hj
        exact agrees_goto (hi.fresh id hnew)
      · rw [State.goto, Table.get_set_of_ne _ _ hj]
        exact hi.stage id
  | @moves _ j f _ _ hf h =>
      have hn := hi.linked.named j f hf
      by_cases hj : id = j
      · subst hj
        have hs := hi.stage id
        rw [hf] at hs
        exact stage_moves hn hs h
      · have hl := leaves_moves hn h hj
        rw [view_leaves hl, hl.frame]
        exact hi.stage id
  | @refused j _ f _ hf hq h =>
      subst h
      by_cases hj : id = j
      · subst hj
        have hs := hi.stage id
        rw [hf] at hs
        exact settled_finish (settled_of_agrees hs)
      · rw [State.finish, Table.get_erase, if_neg hj]
        exact hi.stage id
  | sweep h =>
      subst h
      have hs := hi.stage id
      rw [view_sweep]
      show Stage _ (s.frames.get id)
      cases hf : s.frames.get id with
      | none => rw [hf] at hs; exact settled_sweep s.now hs
      | some f => rw [hf] at hs; exact agrees_sweep s.now hs
  | restart h =>
      subst h
      show Settled (s.view id)
      have hs := hi.stage id
      cases hf : s.frames.get id with
      | none => rw [hf] at hs; exact hs
      | some f => rw [hf] at hs; exact settled_of_agrees hs

theorem fresh_step {a : Action} (hi : CompletionInv s) (h : step config s a = some t) {id : String}
    (hid : id ∉ t.drawn) : t.view id = ⟨none, none, []⟩ := by
  cases step_shape h with
  | around _ hleaves =>
      rw [view_leaves (hleaves id)]
      exact hi.fresh id fun hd => hid ((hleaves id).drawn.mpr hd)
  | dispatch hnew h => subst h; exact hi.fresh id fun hd => hid (List.mem_cons_of_mem _ hd)
  | @moves _ j f _ _ hf h =>
      have hd : id ∉ s.drawn := fun hd => hid ((drawn_moves h).mpr hd)
      have hj : id ≠ j := fun he => hd (he ▸ hi.linked.drawn j f hf)
      rw [view_leaves (leaves_moves (hi.linked.named j f hf) h hj)]
      exact hi.fresh id hd
  | refused hf hq h => subst h; exact hi.fresh id hid
  | sweep h =>
      subst h
      rw [view_sweep, hi.fresh id hid]
      rfl
  | restart h => subst h; exact hi.fresh id hid

theorem completionInv_step {a : Action} (hi : CompletionInv s) (h : step config s a = some t) :
    CompletionInv t :=
  ⟨linked_step hi.linked h, stage_step hi h, fun _ => fresh_step hi h⟩

theorem flawed_leaves {id : String} (h : Leaves id s t) : Flawed t id ↔ Flawed s id := by
  rw [Flawed, Flawed, h.frame, h.completed, h.row]

theorem smooth_of_ends {a : Action} (h : a.ends = false) : Smooth s a := by
  cases a with
  | refuse | restart | sweep => cases h
  | _ => trivial

theorem not_flawed_moves {id : String} {f : Frame} (hf : f.Named id) (ha : f.Agrees (s.view id))
    (h : Moves s id f t) :
    ¬ Flawed t id := by
  have hgoto (u : State) (g : Frame) : ¬ Flawed (u.goto id g) id := by
    rintro ⟨hnone, -⟩
    rw [frame_goto] at hnone
    cases hnone
  cases h with
  | unknown =>
      rintro ⟨-, -, c, hc, -⟩
      have hnone : s.commands.find id = none := congrArg View.row ha
      cases hnone.symm.trans hc
  | returns =>
      rintro ⟨-, he, -⟩
      have hlast := (List.append_eq_nil_iff.mp ((completed_append s _).symm.trans he)).2
      simp [hf.1] at hlast
  | _ => exact hgoto _ _

theorem flawed_finish {id : String} {f : Frame} (outcome : Except String DispatchOutcome)
    (ha : f.Agrees (s.view id)) :
    Flawed (s.finish id outcome) id ↔ ∃ c, s.commands.find id = some c ∧ c.status ≠ .pending :=
  ⟨fun h => h.2.2, fun h => ⟨frame_finish s id outcome, completed_of_agrees ha, h⟩⟩

theorem flawed_sweep (hi : CompletionInv s) {id : String} : Flawed s.sweep id ↔
    Flawed s id ∨ s.frames.get id = none ∧ ∃ c, s.commands.find id = some c ∧ c.status = .pending := by
  have hrow : s.sweep.commands.find id = (s.commands.find id).map (Command.sweep s.now) :=
    Table.find_modify _ _ (Command.id_sweep s.now) id
  constructor
  · rintro ⟨hf, he, c, hc, hp⟩
    obtain ⟨b, hb, rfl⟩ := Option.map_eq_some_iff.mp (hrow.symm.trans hc)
    by_cases hpending : b.status = .pending
    · exact .inr ⟨hf, b, hb, hpending⟩
    · exact .inl ⟨hf, he, b, hb, hpending⟩
  · rintro (⟨hf, he, c, hc, hp⟩ | ⟨hf, c, hc, hp⟩)
    · refine ⟨hf, he, c, ?_, hp⟩
      rw [hrow, hc, Option.map_some, Command.sweep, if_neg hp]
    · have hs := hi.stage id
      rw [hf] at hs
      refine ⟨hf, completed_of_settled hs hc hp, c.sweep s.now, by rw [hrow, hc]; rfl, ?_⟩
      rw [Command.sweep, if_pos hp]
      simp

theorem flawed_restart (hi : CompletionInv s) {connected : Bool} {id : String} :
    Flawed (s.restart connected) id ↔
    Flawed s id ∨ ∃ f, s.frames.get id = some f ∧ ∃ c, s.commands.find id = some c ∧ c.status ≠ .pending := by
  constructor
  · rintro ⟨-, he, hc⟩
    cases hf : s.frames.get id with
    | none => exact .inl ⟨hf, he, hc⟩
    | some f => exact .inr ⟨f, rfl, hc⟩
  · rintro (⟨-, he, hc⟩ | ⟨f, hf, hc⟩)
    · exact ⟨rfl, he, hc⟩
    · have hs := hi.stage id
      rw [hf] at hs
      exact ⟨rfl, completed_of_agrees hs, hc⟩

theorem not_smooth_sweep : ¬ Smooth s .sweep ↔
    ∃ id, s.frames.get id = none ∧ ∃ c, s.commands.find id = some c ∧ c.status = .pending := by
  simp only [Smooth, not_forall]
  constructor
  · rintro ⟨c, hc, hp, hf⟩
    exact ⟨c.id, Option.not_isSome_iff_eq_none.mp hf, c, Table.find_of_mem hc, hp⟩
  · rintro ⟨id, hf, c, hc, hp⟩
    obtain rfl : c.id = id := Table.key_of_find hc
    exact ⟨c, Table.mem_of_find hc, hp, by simp [hf]⟩

theorem not_smooth_restart {connected : Bool} : ¬ Smooth s (.restart connected) ↔
    ∃ id f, s.frames.get id = some f ∧ ∃ c, s.commands.find id = some c ∧ c.status ≠ .pending := by
  simp only [Smooth, not_forall]
  constructor
  · rintro ⟨⟨id, f⟩, he, c, hc, hp⟩
    exact ⟨id, f, Table.get_eq_some.mpr he, c, hc, hp⟩
  · rintro ⟨id, f, hf, c, hc, hp⟩
    exact ⟨(id, f), Table.get_eq_some.mp hf, c, hc, hp⟩

theorem flawed_kept {a : Action} (hC : Smooth s a) (h : ∀ id, Flawed t id ↔ Flawed s id) :
    (∃ id, Flawed t id) ↔ (∃ id, Flawed s id) ∨ ¬ Smooth s a := by
  simp [h, hC]

theorem flawed_refused (hi : CompletionInv s) {j message : String} {f : Frame}
    (hf : s.frames.get j = some f) :
    (∃ id, Flawed (s.finish j (.error message)) id) ↔ (∃ id, Flawed s id) ∨
      ¬ Smooth s (.refuse j message) := by
  have ha := hi.stage j
  rw [hf] at ha
  have hbad : ¬ Smooth s (.refuse j message) ↔ ∃ c, s.commands.find j = some c ∧ c.status ≠ .pending := by
    simp [Smooth]
  have hother {id : String} (hj : id ≠ j) : Flawed (s.finish j (.error message)) id ↔ Flawed s id :=
    flawed_leaves ((Leaves.refl id s).finish hj)
  rw [hbad, ← flawed_finish (.error message) ha]
  constructor
  · rintro ⟨id, hflaw⟩
    by_cases hj : id = j
    · exact .inr (hj ▸ hflaw)
    · exact .inl ⟨id, (hother hj).mp hflaw⟩
  · rintro (⟨id, hflaw⟩ | hflaw)
    · refine ⟨id, (hother ?_).mpr hflaw⟩
      rintro rfl
      cases hf.symm.trans hflaw.1
    · exact ⟨j, hflaw⟩

theorem flawed_step {a : Action} (hi : CompletionInv s) (h : step config s a = some t) :
    (∃ id, Flawed t id) ↔ (∃ id, Flawed s id) ∨ ¬ Smooth s a := by
  cases step_shape h with
  | around ha hl => exact flawed_kept (smooth_of_ends ha) fun id => flawed_leaves (hl id)
  | @dispatch j call _ hnew h =>
      subst h
      refine flawed_kept trivial fun id => ?_
      by_cases hj : id = j
      · subst hj
        constructor
        · rintro ⟨hnone, -⟩
          rw [frame_goto] at hnone
          cases hnone
        · rintro ⟨-, -, c, hc, -⟩
          cases (congrArg View.row (hi.fresh id hnew)).symm.trans hc
      · exact ⟨fun ⟨hf, hrest⟩ => ⟨(Table.get_set_of_ne _ _ hj).symm.trans hf, hrest⟩,
          fun ⟨hf, hrest⟩ => ⟨(Table.get_set_of_ne _ _ hj).trans hf, hrest⟩⟩
  | @moves _ j f _ ha hf h =>
      have hn := hi.linked.named j f hf
      refine flawed_kept (smooth_of_ends ha) fun id => ?_
      by_cases hj : id = j
      · subst hj
        have hs := hi.stage id
        rw [hf] at hs
        refine ⟨fun hflaw => absurd hflaw (not_flawed_moves hn hs h), fun hflaw => ?_⟩
        cases hf.symm.trans hflaw.1
      · exact flawed_leaves (leaves_moves hn h hj)
  | refused hf hq h => subst h; exact flawed_refused hi hf
  | sweep h =>
      subst h
      rw [not_smooth_sweep, ← exists_or]
      exact exists_congr fun id => flawed_sweep hi
  | restart h =>
      subst h
      rw [not_smooth_restart, ← exists_or]
      exact exists_congr fun id => flawed_restart hi

theorem complete_of_settled {c : Command} (h : Settled (s.view c.id)) (hc : s.commands.find c.id = some c)
    (hflaw : ¬ (c.status ≠ .pending ∧ s.completed c.id = [])) : c.status ≠ .pending ↔ Complete s c := by
  have hrow : (s.view c.id).row = some c := hc
  generalize hv : s.view c.id = v at h hrow
  cases h with
  | unknown => cases hrow
  | abandoned hp =>
      obtain rfl := Option.some.inj hrow
      have hnone : s.completed _ = [] := congrArg View.completed hv
      constructor
      · exact fun hn => absurd hp hn
      · rintro ⟨hone, -⟩
        rw [hnone] at hone
        cases hone
  | complete hp =>
      obtain rfl := Option.some.inj hrow
      have hone : s.completed _ = [_] := congrArg View.completed hv
      have hres : s.results.find _ = some _ := congrArg View.result hv
      exact ⟨fun _ => ⟨hone, fun _ => by rw [hres]; rfl⟩, fun _ => hp⟩
  | incomplete hp =>
      obtain rfl := Option.some.inj hrow
      exact absurd ⟨hp, congrArg View.completed hv⟩ hflaw

/-- When nothing is under way, every command is complete exactly when it has a
terminal status, if and only if the run was smooth. -/
theorem terminal_iff_complete {connected : Bool} {as : List Action}
    (h : run (step config) (init connected) as = some s) (hidle : s.frames = .empty) :
    (∀ c, s.commands.find c.id = some c → (c.status ≠ .pending ↔ Complete s c)) ↔
      Along (step config) Smooth (init connected) as := by
  have hi : CompletionInv s := invariant (fun _ _ _ hi hs => completionInv_step hi hs) h
    (completionInv_init connected)
  have hflaw := flaw_iff (B := fun s => ∃ id, Flawed s id) (fun _ _ _ hi hs => completionInv_step hi hs)
    (fun _ _ _ hi hs => flawed_step hi hs) h (completionInv_init connected)
  have hinit : ¬ ∃ id, Flawed (init connected) id := by
    rintro ⟨id, -, -, c, hc, -⟩
    cases hc
  have hnone (id : String) : s.frames.get id = none := by rw [hidle]; rfl
  rw [or_iff_right hinit, ← not_iff_not, not_not] at hflaw
  rw [← hflaw]
  constructor
  · rintro hall ⟨id, hf, he, c, hc, hp⟩
    obtain rfl : c.id = id := Table.key_of_find hc
    have hone := ((hall c hc).mp hp).1
    rw [he] at hone
    cases hone
  · intro hgood c hc
    have hs := hi.stage c.id
    rw [hnone] at hs
    exact complete_of_settled hs hc fun ⟨hp, he⟩ => hgood ⟨c.id, hnone c.id, he, c, hc, hp⟩

def bench : Mqtt.Config where
  defaultBaseTopic := "espclaw"
  parse := fun _ => none

def closeOne : List Action :=
  [.sweep, .registry (Table.empty.save { id := "dev-1", baseTopic := "espclaw" }),
    .dispatch "c1" { deviceId := "dev-1", input := { name := "get_system_info" } },
    .commit "c1", .resume "c1", .commit "c1", .resume "c1", .resume "c1", .commit "c1", .resume "c1"]

theorem refused_result_leaves_incomplete :
    ¬ ∀ (config : Mqtt.Config) (connected : Bool) (as : List Action) (s : State)
    (c : Command), run (step config) (init connected) as = some s → s.frames = .empty →
      s.commands.find c.id = some c → (c.status ≠ .pending ↔ Complete s c) := by
  intro h
  have hall : ∀ s ∈ run (step bench) (init false) (closeOne ++ [.refuse "c1" "connection terminated"]),
      s.frames = .empty → ∀ c ∈ s.commands.find "c1", c.status ≠ .pending → s.completed "c1" ≠ [] := by
    intro s hs hidle c hc hp he
    have hid : c.id = "c1" := Table.key_of_find hc
    have hcomplete := ((h bench false _ s c hs hidle (hid ▸ hc)).mp hp).1
    rw [hid, he] at hcomplete
    cases hcomplete
  exact absurd hall (by decide +kernel)

theorem failed_dispatch_is_complete : ∃ s,
    run (step bench) (init false) (closeOne ++ [.commit "c1", .resume "c1"]) =
    some s ∧ ∀ c, s.commands.find c.id = some c → (c.status ≠ .pending ↔ Complete s c) := by
  obtain ⟨s, hs⟩ := Option.isSome_iff_exists.mp (show (run (step bench) (init false)
    (closeOne ++ [.commit "c1", .resume "c1"])).isSome by decide +kernel)
  have hidle : ∀ s ∈ run (step bench) (init false) (closeOne ++ [.commit "c1", .resume "c1"]),
    s.frames = .empty := by
    decide +kernel
  exact ⟨s, hs, (terminal_iff_complete hs (hidle s hs)).mpr (by decide +kernel)⟩

end EspClawPlatform.Commands
