import EspClawPlatform.Devices.Course

namespace EspClawPlatform.Devices

open Run

variable {s t : State} {d : String}

def Frame.applied : Frame → Bool
  | .updated _ | .returned none | .settled none => true
  | _ => false

def Frame.stored : Frame → Bool
  | .found _ existing => existing.isSome
  | .saved _ | .updating _ => true
  | _ => false

def Frame.updates : Frame → Bool
  | .updating _ => true
  | _ => false

def Execution.sees (x : Execution) (d : String) : Option Bool :=
  (observe x.event).bind fun o => if o.deviceId = d then some o.online else none

/-- The latest observation of the device that has been stored is later than
that of the call, and says otherwise. -/
def State.Overtaken (s : State) (x : Execution) (d : String) : Prop :=
  ∃ y ∈ s.executions.rows, y.frame.applied ∧ x.link < y.link ∧ (y.sees d).isSome ∧ y.sees d ≠ x.sees d ∧
    ∀ z ∈ s.executions.rows, z.frame.applied → (z.sees d).isSome → z.link ≤ y.link

def State.GivenUp (s : State) (link target : Nat) : Prop :=
  ∃ r ∈ s.bus.runAt link target, r.phase = .failed

/-- A call that the bus has given up stores its observation only if the latest
one that has been stored is not a later one that says otherwise. -/
def Timely (s : State) : Action → Prop
  | .bus action => Bus.LogsMessage action
  | .commit link target => ∀ x ∈ s.executions.find (link, target), x.frame.updates → s.GivenUp link target →
      ∀ o ∈ observe x.event, ¬ s.Overtaken x o.deviceId
  | _ => True

instance (s : State) (x : Execution) (d : String) : Decidable (s.Overtaken x d) :=
  inferInstanceAs (Decidable (∃ y ∈ s.executions.rows, _))

instance (s : State) (link target : Nat) : Decidable (s.GivenUp link target) :=
  inferInstanceAs (Decidable (∃ r ∈ s.bus.runAt link target, _))

instance : ∀ s a, Decidable (Timely s a)
  | _, .bus action => inferInstanceAs (Decidable (Bus.LogsMessage action))
  | s, .commit link target => inferInstanceAs (Decidable (∀ x ∈ s.executions.find (link, target), _))
  | _, .refuse .. | _, .resume .. | _, .settle .. => inferInstanceAs (Decidable True)

theorem logs_of_timely {a : Action} (h : Timely s a) : a.Logs := by
  cases a with
  | bus => exact h
  | _ => trivial

structure Report where
  link : Nat
  applied : Bool
  online : Bool

def State.report (s : State) (d : String) (k : Nat × Nat) : Option Report :=
  (s.executions.find k).bind fun x => (x.sees d).map fun online =>
    { link := x.link, applied := x.frame.applied, online := online }

def Open (s : State) (d : String) : Prop := ∃ k r, s.report d k = some r ∧ r.applied = false

def Applied (s : State) (d : String) (n : Nat) (online : Bool) : Prop :=
  ∃ k, s.report d k = some { link := n, applied := true, online := online }

/-- When no call for the device is open, its row holds the latest observation. -/
def Current (s : State) (d : String) : Prop :=
  Open s d ∨ ∀ n online, Applied s d n online → (∀ m b, Applied s d m b → m ≤ n) →
    ∃ row, s.devices.find d = some row ∧ row.online = online

theorem sees_eq_some {x : Execution} {online : Bool} :
    x.sees d = some online ↔ ∃ o, observe x.event = some o ∧ o.deviceId = d ∧ o.online = online := by
  rw [Execution.sees, Option.bind_eq_some_iff]
  refine exists_congr fun o => and_congr_right fun _ => ?_
  split <;> simp_all

theorem deviceId_of_observe {event : DomainEvent Payload} {o : Observation} (h : observe event = some o) :
    event.deviceId = some o.deviceId ∧ event.payload.eventType = PRESENCE_PATTERN := by
  rw [observe] at h
  split at h
  · rename_i hp hd
    split at h <;> cases h
    exact ⟨hd, by rw [hp]; rfl⟩
  · cases h

theorem sees_of_link (hi : HandlerInv s) {k l : Nat × Nat} {x y : Execution}
    (hx : s.executions.find k = some x) (hy : s.executions.find l = some y) (h : x.link = y.link) :
    x.sees d = y.sees d := by
  obtain ⟨e, _, he, -, -, hex⟩ := Bus.heardBy_eq_some.mp (hi.known k x hx)
  obtain ⟨e', _, he', -, -, hey⟩ := Bus.heardBy_eq_some.mp (hi.known l y hy)
  rw [h] at he
  obtain rfl := Option.some.inj (he.symm.trans he')
  rw [Execution.sees, Execution.sees, ← hex, ← hey]

/-- While the bus still waits for a call, no later observation of the device has been handed over. -/
theorem running_is_last (hi : HandlerInv s) {k l : Nat × Nat} {x y : Execution}
    {online online' : Bool} (hx : s.executions.find k = some x) (hy : s.executions.find l = some y)
    (hsx : x.sees d = some online) (hsy : y.sees d = some online') (hlt : x.link < y.link)
    {r : Bus.HandlerRun} (hr : s.bus.runAt x.link x.target = some r) : r.phase ≠ .running := by
  obtain ⟨e, rx, he, hrx, -, hex⟩ := Bus.heardBy_eq_some.mp (hi.known k x hx)
  obtain ⟨e', _, he', -, -, hey⟩ := Bus.heardBy_eq_some.mp (hi.known l y hy)
  have hlane {z : Execution} {b : Bool} (h : z.sees d = some b) : Bus.lane z.event = d := by
    obtain ⟨o, ho, rfl, -⟩ := sees_eq_some.mp h
    rw [Bus.lane, (deviceId_of_observe ho).1, Option.getD_some]
  have hmx : Bus.Member s.bus d x.link := ⟨e, he, hex ▸ hlane hsx⟩
  have hmy : Bus.Member s.bus d y.link := ⟨e', he', hey ▸ hlane hsy⟩
  have hsettled := (hi.listen.delivery.lanes.chain d).settled_before hmy (hi.begun l y hy) hmx hlt
  obtain ⟨f, hf, hfin⟩ := Bus.finished_of_settled hi.listen.delivery hi.listen.calm hsettled
  obtain rfl := Option.some.inj (he.symm.trans hf)
  obtain ⟨f, hf, hrf⟩ := Bus.runAt_eq_some.mp hr
  obtain rfl := Option.some.inj (he.symm.trans hf)
  rcases (hfin r (List.mem_of_getElem? hrf)).2 with h | h
  · rw [h]; simp
  · rw [h]; simp

inductive Effect (s : State) : Action → State → Prop
  | outside {a : Bus.Action Payload} {t : State} (h : Bus.step s.bus a = some t.bus)
      (hx : t.executions = s.called a)
      (hd : t.devices = s.devices) : Effect s (.bus a) t
  | goes {a : Action} {t : State} {x : Execution} {f : Frame}
      (hx : s.executions.find (x.link, x.target) = some x)
      (he : t.executions = s.executions.save { x with frame := f }) (hd : t.devices = s.devices)
      (ha : f.applied = x.frame.applied)
      (hs : f.stored → x.frame.stored ∨ ∃ o, observe x.event = some o ∧ (s.devices.find o.deviceId).isSome) :
      Effect s a t
  | creates {a : Action} {t : State} {x : Execution} {o : Observation} {before : Option DeviceEntity}
      (hx : s.executions.find (x.link, x.target) = some x) (ho : observe x.event = some o)
      (hf : x.frame = .saving before) (he : t.executions = s.executions.save
        { x with frame := .saved before })
      (hd : t.devices = saveCreated s.devices o.deviceId o.baseTopic) : Effect s a t
  | applies {t : State} {x : Execution} {o : Observation} {before : Option DeviceEntity}
      (hx : s.executions.find (x.link, x.target) = some x) (ho : observe x.event = some o)
      (hf : x.frame = .updating before) (he : t.executions = s.executions.save
        { x with frame := .updated before })
      (hd : t.devices = updatePresence s.devices o) : Effect s (.commit x.link x.target) t

theorem effect_commit {x : Execution} (hx : s.executions.find (x.link, x.target) = some x)
    (h : s.commit x = some t) :
    Effect s (.commit x.link x.target) t := by
  obtain ⟨o, ho, h⟩ := Option.bind_eq_some_iff.mp h
  split at h
  · rename_i hf
    cases h
    exact .goes hx rfl rfl (by rw [hf]; rfl) (fun hs => by cases hs)
  · rename_i hf
    cases h
    exact .goes hx rfl rfl (by rw [hf]; rfl) (fun hs => .inr ⟨o, ho, hs⟩)
  · rename_i hf
    cases h
    exact .creates hx ho hf rfl rfl
  · rename_i hf
    cases h
    exact .applies hx ho hf rfl rfl
  · cases h

theorem effect_refuse {x : Execution} {a : Action} {message : String}
    (hx : s.executions.find (x.link, x.target) = some x) (h : s.refuse x message = some t) :
    Effect s a t := by
  have hgoes (hf : x.frame.applied = false) : Effect s a (s.goto x (.returned (some message))) :=
    .goes hx rfl rfl hf.symm (fun hs => by cases hs)
  rw [State.refuse] at h
  split at h
  · rename_i hf; cases h; exact hgoes (by rw [hf]; rfl)
  · rename_i hf; cases h; exact hgoes (by rw [hf]; rfl)
  · rename_i hf; cases h; exact hgoes (by rw [hf]; rfl)
  · rename_i hf; cases h; exact hgoes (by rw [hf]; rfl)
  · cases h

theorem effect_resume {x : Execution} {a : Action} {draw : Draw}
    (hx : s.executions.find (x.link, x.target) = some x) (h : s.resume x draw = some t) : Effect s a t := by
  obtain ⟨o, ho, h⟩ := Option.bind_eq_some_iff.mp h
  split at h
  · rename_i hf
    cases h
    exact .goes hx rfl rfl (by rw [hf]; rfl) (fun hs => by cases hs)
  · rename_i before existing hf
    cases h
    refine .goes hx rfl rfl ?_ fun hs => .inl ?_
    · rw [hf]
      split <;> rfl
    · rw [hf]
      split at hs
      · assumption
      · cases hs
  · rename_i hf
    cases h
    exact .goes hx rfl rfl (by rw [hf]; rfl) (fun _ => .inl (by rw [hf]; rfl))
  · rename_i hf
    cases h
    split
    all_goals exact .goes hx rfl rfl (by rw [hf]; rfl) (fun hs => by cases hs)
  · cases h

theorem step_effect {a : Action} (h : step s a = some t) : Effect s a t := by
  cases a with
  | bus action =>
      simp only [step] at h
      split at h
      · obtain ⟨b, hb, rfl⟩ := Option.map_eq_some_iff.mp h
        exact .outside hb rfl rfl
      · cases h
  | commit link target =>
      obtain ⟨x, rfl, rfl, hx, h⟩ := execution_of_bind h
      exact effect_commit hx h
  | refuse link target message =>
      obtain ⟨x, -, -, hx, h⟩ := execution_of_bind h
      exact effect_refuse hx h
  | resume link target draw =>
      obtain ⟨x, -, -, hx, h⟩ := execution_of_bind h
      exact effect_resume hx h
  | settle link target =>
      obtain ⟨x, -, -, hx, h⟩ := execution_of_bind h
      rw [State.settle] at h
      split at h
      · rename_i failure hf
        cases h
        refine .goes hx rfl rfl ?_ (fun hs => by cases hs)
        rw [hf]
        cases failure <;> rfl
      · cases h

theorem report_eq_some {k : Nat × Nat} {r : Report} : s.report d k = some r ↔
    ∃ x, s.executions.find k = some x ∧ x.sees d = some r.online ∧ x.link = r.link ∧
      x.frame.applied = r.applied := by
  rw [State.report, Option.bind_eq_some_iff]
  refine exists_congr fun x => and_congr_right fun _ => ?_
  rw [Option.map_eq_some_iff]
  constructor
  · rintro ⟨online, hs, rfl⟩
    exact ⟨hs, rfl, rfl⟩
  · rintro ⟨hs, hl, ha⟩
    exact ⟨r.online, hs, by rw [hl, ha]⟩

theorem find_goto {x : Execution} {f : Frame} (he : t.executions = s.executions.save { x with frame := f })
    (k : Nat × Nat) : t.executions.find k =
      if k = (x.link, x.target) then some { x with frame := f } else s.executions.find k := by
  rw [he, Table.find_save, key_execution]

theorem report_goto {x : Execution} {f : Frame} (hx : s.executions.find (x.link, x.target) = some x)
    (he : t.executions = s.executions.save { x with frame := f })
    (ha : x.sees d = none ∨ f.applied = x.frame.applied) : t.report d = s.report d := by
  funext k
  rw [State.report, State.report, find_goto he]
  split
  · rename_i hk
    rw [hk, hx, Option.bind_some, Option.bind_some,
      show ({ x with frame := f } : Execution).sees d = x.sees d from rfl]
    rcases ha with ha | ha
    · rw [ha]; rfl
    · rw [ha]
  · rfl

theorem current_same (hr : t.report d = s.report d) (hd : t.devices.find d = s.devices.find d)
    (hc : Current s d) :
    Current t d := by
  rw [Current, Open] at hc ⊢
  simp only [Applied, hr, hd] at hc ⊢
  exact hc

theorem open_goto {x : Execution} {f : Frame} {online : Bool}
    (he : t.executions = s.executions.save { x with frame := f }) (hs : x.sees d = some online)
    (ha : f.applied = false) : Open t d :=
  ⟨(x.link, x.target), { link := x.link, applied := false, online := online },
    report_eq_some.mpr ⟨{ x with frame := f }, by rw [find_goto he, if_pos rfl], hs, rfl, ha⟩, rfl⟩

theorem called_cases {a : Bus.Action Payload} {b : Bus.State Payload} (hi : HandlerInv s)
    (h : Bus.step s.bus a = some b) :
    s.called a = s.executions ∨ ∃ n i event, s.executions.find (n, i) = none ∧
      s.called a = s.executions.save { link := n, target := i, event := event, frame := begin event } := by
  cases a with
  | invoke n i =>
      cases hh : s.handled n i with
      | none => exact .inl (by rw [State.called, hh])
      | some event =>
          refine .inr ⟨n, i, event, ?_, by rw [State.called, hh]⟩
          obtain ⟨e, r, he, hr, hid, -⟩ := Bus.heardBy_eq_some.mp hh
          have hrun := Bus.runAt_eq_some.mpr ⟨e, he, hr⟩
          rcases Bus.runAt_onRun (n := n) (i := i) h with ⟨-, hne⟩ | ⟨-, -, r₀, r', hr₀, -, hm⟩
          · exact absurd ⟨rfl, rfl⟩ hne
          · obtain rfl := Option.some.inj (hrun.symm.trans hr₀)
            exact (hi.stage n i r hrun hid).uncalled (Bus.phase_invoke hm).1
  | _ => exact .inl rfl

theorem current_outside {a : Bus.Action Payload} (hi : HandlerInv s) (h : Bus.step s.bus a = some t.bus)
    (hx : t.executions = s.called a) (hd : t.devices = s.devices) (hc : Current s d) : Current t d := by
  rcases called_cases hi h with hsame | ⟨n, i, event, hnone, hnew⟩
  · exact current_same (by funext k; rw [State.report, State.report, hx, hsame]) (by rw [hd]) hc
  · rw [hnew] at hx
    cases hs : ({ link := n, target := i, event := event, frame := begin event } : Execution).sees d with
    | none =>
        refine current_same ?_ (by rw [hd]) hc
        funext k
        rw [State.report, State.report, hx, Table.find_save, key_execution]
        split
        · rename_i hk
          rw [hk, hnone, Option.bind_some, hs]
          rfl
        · rfl
    | some online =>
        obtain ⟨o, ho, -⟩ := sees_eq_some.mp hs
        refine .inl (open_goto (f := begin event) hx hs ?_)
        rw [begin, show observe event = some o from ho]
        rfl

def Stored (s : State) : Prop :=
  ∀ k x, s.executions.find k = some x → x.frame.stored → ∀ o, observe x.event = some o →
    (s.devices.find o.deviceId).isSome

theorem find_saveCreated (devices : Table DeviceEntity) (id baseTopic : String) :
    ((saveCreated devices id baseTopic).find d).isSome ↔ d = id ∨ (devices.find d).isSome := by
  rw [saveCreated, Table.find_save]
  split
  · rename_i hd
    simp [show d = id from hd]
  · rename_i hd
    rw [or_iff_right (show ¬ d = id from hd)]

theorem find_updatePresence {devices : Table DeviceEntity} {o : Observation} {row : DeviceEntity}
    (h : devices.find o.deviceId = some row) : (updatePresence devices o).find d =
      if d = o.deviceId then some { row with online := o.online, lastSeenAt := some o.timestamp }
      else devices.find d := by
  have hid : row.id = o.deviceId := Table.key_of_find h
  rw [updatePresence, h]
  exact (Table.find_save _ _ _).trans (if_congr (by rw [← hid]; rfl) rfl rfl)

theorem stored_goto {x : Execution} {f : Frame} (hs : Stored s)
    (he : t.executions = s.executions.save { x with frame := f })
    (hd : ∀ d, (s.devices.find d).isSome → (t.devices.find d).isSome)
    (hf : f.stored → ∀ o, observe x.event = some o → (t.devices.find o.deviceId).isSome) : Stored t := by
  intro k y hy hstored o ho
  rw [find_goto he] at hy
  split at hy
  · cases hy
    exact hf hstored o ho
  · exact hd _ (hs k y hy hstored o ho)

theorem stored_step {a : Action} (hi : HandlerInv s) (hs : Stored s) (h : step s a = some t) : Stored t := by
  cases step_effect h with
  | outside hb hx hd =>
      intro k y hy hstored o ho
      rw [hd]
      rcases called_cases hi hb with hsame | ⟨n, i, event, -, hnew⟩
      · exact hs k y (by rw [← hsame, ← hx, hy]) hstored o ho
      · rw [hx, hnew, Table.find_save] at hy
        split at hy
        · cases hy
          simp only [begin] at hstored
          split at hstored <;> cases hstored
        · exact hs k y hy hstored o ho
  | goes hx he hd ha hf =>
      refine stored_goto hs he (fun d => by rw [hd]; exact id) fun hstored o ho => ?_
      rw [hd]
      rcases hf hstored with hf | ⟨o', ho', hsome⟩
      · exact hs _ _ hx hf o ho
      · obtain rfl := Option.some.inj (ho.symm.trans ho')
        exact hsome
  | creates hx ho hf he hd =>
      refine stored_goto hs he (fun d hsome => ?_) fun _ o ho' => ?_
      · rw [hd]
        exact (find_saveCreated _ _ _).mpr (.inr hsome)
      · obtain rfl := Option.some.inj (ho.symm.trans ho')
        rw [hd]
        exact (find_saveCreated _ _ _).mpr (.inl rfl)
  | @applies _ x o before hx ho hf he hd =>
      obtain ⟨row, hrow⟩ := Option.isSome_iff_exists.mp (hs _ x hx (by rw [hf]; rfl) o ho)
      refine stored_goto hs he (fun d hsome => ?_) fun hstored => by cases hstored
      rw [hd, find_updatePresence hrow]
      split
      · rfl
      · exact hsome

/-- A call that the bus has not given up stores its observation before any later one is handed over. -/
theorem not_overtaken {x : Execution} {before : Option DeviceEntity} {o : Observation} (hi : HandlerInv s)
    (hx : s.executions.find (x.link, x.target) = some x) (ho : observe x.event = some o)
    (hf : x.frame = .updating before) (hK : Timely s (.commit x.link x.target)) :
    ¬ s.Overtaken x o.deviceId := by
  rintro hover
  obtain ⟨e, r, he, hr, hid, -⟩ := Bus.heardBy_eq_some.mp (hi.known _ x hx)
  have hrun := Bus.runAt_eq_some.mpr ⟨e, he, hr⟩
  have hsees : x.sees o.deviceId = some o.online := sees_eq_some.mpr ⟨o, ho, rfl, rfl⟩
  obtain ⟨y, hy, -, hlt, hsome, -⟩ := id hover
  obtain ⟨online, hsy⟩ := Option.isSome_iff_exists.mp hsome
  have hne := running_is_last hi hx (Table.find_of_mem hy) hsees hsy hlt hrun
  have hstage := hi.stage _ _ r hrun hid
  rw [hx] at hstage
  cases hstage with
  | running hp => exact hne hp
  | delivered _ hsettled => cases hf.symm.trans hsettled
  | failed hp => exact hK x hx (by rw [hf]; rfl) ⟨r, hrun, hp⟩ o ho hover

theorem current_applies {x : Execution} {o : Observation} {before : Option DeviceEntity} (hi : HandlerInv s)
    (hs : Stored s) (hx : s.executions.find (x.link, x.target) = some x) (ho : observe x.event = some o)
    (hf : x.frame = .updating before) (he : t.executions = s.executions.save
      { x with frame := .updated before })
    (hd : t.devices = updatePresence s.devices o) (hover : ¬ s.Overtaken x o.deviceId) :
    Current t o.deviceId := by
  obtain ⟨row, hrow⟩ := Option.isSome_iff_exists.mp (hs _ x hx (by rw [hf]; rfl) o ho)
  have hsees : x.sees o.deviceId = some o.online := sees_eq_some.mpr ⟨o, ho, rfl, rfl⟩
  have hmine : Applied t o.deviceId x.link o.online :=
    ⟨(x.link, x.target), report_eq_some.mpr
      ⟨{ x with frame := .updated before }, by rw [find_goto he, if_pos rfl], hsees, rfl, rfl⟩⟩
  have hkept {k : Nat × Nat} {y : Execution} (hy : s.executions.find k = some y)
    (ha : y.frame.applied = true) :
      t.executions.find k = some y := by
    rw [find_goto he, if_neg, hy]
    rintro rfl
    obtain rfl := Option.some.inj (hx.symm.trans hy)
    rw [hf] at ha
    cases ha
  refine .inr fun n online ⟨k, hk⟩ hmax => ⟨_, by rw [hd, find_updatePresence hrow, if_pos rfl], ?_⟩
  change o.online = online
  obtain ⟨y, hy, hsy, hlink, happ⟩ := report_eq_some.mp hk
  rw [find_goto he] at hy
  split at hy
  · cases hy
    exact Option.some.inj (hsees.symm.trans hsy)
  · rcases Nat.lt_or_eq_of_le (hmax _ _ hmine) with hlt | heq
    · by_contra hne
      refine hover ⟨y, Table.mem_of_find hy, happ, hlink ▸ hlt, by rw [hsy]; rfl, ?_, ?_⟩
      · rw [hsees, hsy]
        exact fun h => hne (Option.some.inj h).symm
      · intro z hz hza hzs
        obtain ⟨b, hb⟩ := Option.isSome_iff_exists.mp hzs
        rw [hlink]
        exact hmax z.link b ⟨_, report_eq_some.mpr ⟨z, hkept (Table.find_of_mem hz) hza, hb, rfl, hza⟩⟩
    · have hsame := sees_of_link (d := o.deviceId) hi hx hy (heq.trans hlink.symm)
      rw [hsees, hsy] at hsame
      exact Option.some.inj hsame

theorem current_step {a : Action} (hi : HandlerInv s) (hs : Stored s) (hc : Current s d)
    (hK : Timely s a) (h : step s a = some t) : Current t d := by
  cases step_effect h with
  | outside hb hx hd => exact current_outside hi hb hx hd hc
  | goes hx he hd ha => exact current_same (report_goto hx he (.inr ha)) (by rw [hd]) hc
  | @creates _ _ x o before hx ho hf he hd =>
      by_cases hid : o.deviceId = d
      · exact .inl (open_goto he (sees_eq_some.mpr ⟨o, ho, hid, rfl⟩) rfl)
      · refine current_same (report_goto hx he (.inr (by rw [hf]; rfl))) ?_ hc
        rw [hd]
        exact Table.find_save_of_ne _ (Ne.symm hid)
  | @applies _ x o before hx ho hf he hd =>
      by_cases hid : o.deviceId = d
      · exact hid ▸ current_applies hi hs hx ho hf he hd (not_overtaken hi hx ho hf hK)
      · obtain ⟨row, hrow⟩ := Option.isSome_iff_exists.mp (hs _ x hx (by rw [hf]; rfl) o ho)
        refine current_same (report_goto hx he (.inl ?_)) ?_ hc
        · rw [Execution.sees, ho, Option.bind_some, if_neg hid]
        · rw [hd, find_updatePresence hrow, if_neg (Ne.symm hid)]

structure PresenceInv (s : State) : Prop where
  handler : HandlerInv s
  stored : Stored s
  current : ∀ d, Current s d

theorem presenceInv_boot {devices : Table DeviceEntity} : PresenceInv (.boot devices) where
  handler := handlerInv_boot
  stored := fun _ _ hx => by cases hx
  current := fun _ => .inr fun _ _ ⟨_, hk⟩ => by cases hk

theorem presenceInv_step {a : Action} (hi : PresenceInv s) (hK : Timely s a)
    (h : step s a = some t) : PresenceInv t where
  handler := handlerInv_step hi.handler (logs_of_timely hK) h
  stored := stored_step hi.handler hi.stored h
  current := fun d => current_step hi.handler hi.stored (hi.current d) hK h

def Last (d : String) (n : Nat) (s : State) : Prop :=
  ∀ m e, s.bus.links.find m = some e → n < m → ∀ o, observe e.event = some o → o.deviceId ≠ d

def Spares (d : String) (_ : State) : Action → Prop
  | .bus (.publish event) => ∀ o, observe event = some o → o.deviceId ≠ d
  | _ => True

theorem last_step {a : Action} {n : Nat} (hl : Last d n s) (ha : Spares d s a)
    (h : step s a = some t) : Last d n t := by
  rcases bus_move h with hb | ⟨b, hb, hpub⟩
  · intro m e he
    exact hl m e (hb ▸ he)
  · intro m e he hlt o ho
    cases Bus.step_shape hb with
    | still hlinks | cleanup _ _ hlinks => exact hl m e (hlinks ▸ he) hlt o ho
    | publish event hb' hlinks =>
        rw [Bus.find_publish hlinks] at he
        split at he
        · cases he
          rcases hpub event hb' with rfl | hnone
          · exact ha o ho
          · cases hnone.symm.trans ho
        · exact hl m e he hlt o ho
    | @move e₀ e₁ hd hm hlinks =>
        rw [Bus.find_move hm hlinks] at he
        split at he
        · rename_i hid
          cases he
          rw [hm.event_eq] at ho
          exact hl m e₀ (hid ▸ hd) hlt o ho
        · exact hl m e he hlt o ho

theorem published {event : DomainEvent Payload} {o : Observation} (hi : PresenceInv s)
    (ho : observe event = some o) (h : step s (.bus (.publish event)) = some t) :
    (∃ i, t.handled s.bus.counters.published i = some event) ∧
      Last o.deviceId s.bus.counters.published t := by
  simp only [step] at h
  split at h
  · rename_i htype
    cases h
    have htype : event.eventType = event.payload.eventType := by simpa [State.outside] using htype
    have hpattern : event.eventType = PRESENCE_PATTERN := htype.trans (deviceId_of_observe ho).2
    have hmem : presence ∈ Bus.targets s.bus event := by
      refine List.mem_filter.mpr ⟨hi.handler.listen.listens.subscribed, ?_⟩
      rw [hpattern]
      decide
    have hlinks := Bus.publish_links (List.ne_nil_of_mem hmem)
    constructor
    · obtain ⟨i, hget⟩ := List.getElem?_of_mem hmem
      refine ⟨i, Bus.heardBy_eq_some.mpr ⟨Bus.chained s.bus event, { sub := presence }, ?_, ?_, rfl, rfl⟩⟩
      · exact (Bus.find_publish hlinks _).trans (if_pos rfl)
      · rw [Bus.chained, List.getElem?_map, hget]
        rfl
    · intro m e he hlt
      have hfresh := (Bus.laneInv_step hi.handler.listen.delivery.lanes
        (a := .publish event) rfl).fresh m e he
      rw [Bus.published_publish] at hfresh
      omega
  · cases h

theorem applied_of_finished {n i : Nat} {event : DomainEvent Payload} {o : Observation} (hi : PresenceInv s)
    (hdone : s.Finished) (hh : s.handled n i = some event) (ho : observe event = some o) :
    Applied s o.deviceId n o.online := by
  obtain ⟨e, r, he, hr, hid, -⟩ := Bus.heardBy_eq_some.mp hh
  have hsettled : Bus.Settled s.bus n := by
    refine ⟨e, he, fun hpending => ?_⟩
    have hflying := hi.handler.listen.delivery.lanes.flying n e he hpending
    rw [hdone.1] at hflying
    cases hflying
  obtain ⟨f, hf, hfin⟩ := Bus.finished_of_settled hi.handler.listen.delivery hi.handler.listen.calm hsettled
  obtain rfl := Option.some.inj (he.symm.trans hf)
  have hphase := (hfin r (List.mem_of_getElem? hr)).2
  have hstage := hi.handler.stage n i r (Bus.runAt_eq_some.mpr ⟨e, he, hr⟩) hid
  cases hx : s.executions.find (n, i) with
  | none =>
      rw [hx] at hstage
      cases hstage with
      | due hdue => rcases hphase with h | h <;> cases hdue.symm.trans h
  | some x =>
      obtain ⟨rfl, rfl⟩ := Prod.mk.inj (show (x.link, x.target) = (n, i) from Table.key_of_find hx)
      have hevent := Option.some.inj (hh.symm.trans (hi.handler.known _ x hx))
      refine ⟨(x.link, x.target), report_eq_some.mpr ⟨x, hx, ?_, rfl, ?_⟩⟩
      · exact sees_eq_some.mpr ⟨o, hevent ▸ ho, rfl, rfl⟩
      · rw [hdone.2 x (Table.mem_of_find hx)]
        rfl

theorem not_open_of_finished (hdone : s.Finished) : ¬ Open s d := by
  rintro ⟨k, r, hk, hr⟩
  obtain ⟨x, hx, -, -, ha⟩ := report_eq_some.mp hk
  rw [hdone.2 x (Table.mem_of_find hx), hr] at ha
  cases ha

/-- When no call that the bus has given up overwrites a later observation that
says otherwise, the table ends with the last observation of the device. -/
theorem last_observation_wins {pre post : List Action} {u : State} {event : DomainEvent Payload}
    {o : Observation} {devices : Table DeviceEntity} (hu : run step (.boot devices) pre = some u)
    (h : run step u (.bus (.publish event) :: post) = some s) (ho : observe event = some o)
    (hlast : ∀ e, .bus (.publish e) ∈ post → ∀ o', observe e = some o' → o'.deviceId ≠ o.deviceId)
    (hK : Along step Timely (.boot devices) (pre ++ .bus (.publish event) :: post)) (hdone : s.Finished) :
    ∃ row, s.devices.find o.deviceId = some row ∧ row.online = o.online := by
  obtain ⟨hKpre, hKpost⟩ := (along_append hu).mp hK
  obtain ⟨v, hv, hpost⟩ := run_cons.mp h
  obtain ⟨hKv, hKpost⟩ := (along_cons hv).mp hKpost
  have hstep (s : State) (a : Action) (t : State) (hi : PresenceInv s) (hK : Timely s a)
      (h : step s a = some t) : PresenceInv t := presenceInv_step hi hK h
  have hiu := invariant_along hstep hu hKpre presenceInv_boot
  have hiv := hstep _ _ _ hiu hKv hv
  have his := invariant_along hstep hpost hKpost hiv
  obtain ⟨⟨i, hh⟩, hlastv⟩ := published hiu ho hv
  have hspares : Along step (Spares o.deviceId) v post := by
    refine along_of_mem (fun a ha s => ?_) v
    cases a with
    | bus action =>
        cases action with
        | publish e => exact hlast e ha
        | _ => trivial
    | _ => trivial
  have hlasts := invariant_along (fun _ _ _ hl ha hs => last_step hl ha hs) hpost hspares hlastv
  have hhs : s.handled u.bus.counters.published i = some event :=
    (invariant_along (P := fun s => PresenceInv s ∧ s.handled u.bus.counters.published i = some event)
      (fun _ _ _ hi hK hs => ⟨hstep _ _ _ hi.1 hK hs,
        handled_step hi.1.handler.listen.delivery.lanes hs hi.2⟩) hpost hKpost ⟨hiv, hh⟩).2
  rcases his.current o.deviceId with hopen | hcurrent
  · exact absurd hopen (not_open_of_finished hdone)
  · refine hcurrent _ _ (applied_of_finished his hdone hhs ho) fun m b ⟨k, hk⟩ => ?_
    obtain ⟨x, hx, hsees, rfl, -⟩ := report_eq_some.mp hk
    obtain ⟨o', ho', hid, -⟩ := sees_eq_some.mp hsees
    obtain ⟨e, _, he, -, -, hevent⟩ := Bus.heardBy_eq_some.mp (his.handler.known k x hx)
    by_contra hlt
    exact hlasts _ e he (Nat.lt_of_not_le hlt) o' (hevent ▸ ho') hid

def reported (online : Bool) : DomainEvent Payload :=
  createEvent none "" "" 0
    { announce "gateway:mqtt" (.presenceReported "espclaw" online) with deviceId := some "dev-1" }

def upToUpdate (link : Nat) : List Action :=
  [.bus (.start link), .bus (.invoke link 0), .commit link 0, .resume link 0 {}, .commit link 0,
    .resume link 0 {}]

def firstSight : List Action :=
  .bus (.publish (reported true)) :: upToUpdate 0 ++ [.commit 0 0, .resume 0 0 {}]

def endOf (link : Nat) : List Action := [.resume link 0 {}, .settle link 0, .bus (.finish link),
    .bus (.cleanup link)]

/-- The bus gives the first call up, hands the second observation over, and the
update of the first call comes last. -/
def lateUpdate : List Action :=
  [.bus (.timeout 0 0), .bus (.finish 0), .bus (.cleanup 0)] ++ upToUpdate 2 ++ .commit 2 0 :: endOf 2 ++
    [.commit 0 0, .resume 0 0 {}, .settle 0 0]

instance (s : State) : Decidable s.Finished :=
  inferInstanceAs (Decidable (_ ∧ ∀ x ∈ s.executions.rows, _))

theorem late_update_wins : ¬ ∀ (devices : Table DeviceEntity) (pre post : List Action) (u s : State)
    (event : DomainEvent Payload) (o : Observation),
    run step (.boot devices) pre = some u → run step u (.bus (.publish event) :: post) = some s →
      observe event = some o →
      (∀ e, .bus (.publish e) ∈ post → ∀ o', observe e = some o' → o'.deviceId ≠ o.deviceId) → s.Finished →
        ∃ row, s.devices.find o.deviceId = some row ∧ row.online = o.online := by
  intro h
  have hend : ∀ s ∈ run step (.boot .empty) (firstSight ++ .bus (.publish (reported false)) :: lateUpdate),
      s.Finished ∧ ∀ row ∈ s.devices.find "dev-1", row.online = true := by decide +kernel
  obtain ⟨s, hs⟩ := Option.isSome_iff_exists.mp (show (run step (.boot .empty)
    (firstSight ++ .bus (.publish (reported false)) :: lateUpdate)).isSome by decide +kernel)
  obtain ⟨u, hu, hrest⟩ := run_append.mp hs
  obtain ⟨hdone, hrow⟩ := hend s hs
  obtain ⟨row, hfind, honline⟩ := h .empty firstSight lateUpdate u s (reported false)
    { deviceId := "dev-1", baseTopic := "espclaw", online := false, timestamp := 0 } hu hrest rfl
    (by simp [lateUpdate, upToUpdate, endOf]) hdone
  cases (hrow row hfind).symm.trans honline

def inOrder : List Action := firstSight ++ .commit 0 0 :: endOf 0

theorem flap_in_order : ∃ s, run step (.boot .empty) (inOrder ++ .bus (.publish (reported false)) ::
    (upToUpdate 3 ++ .commit 3 0 :: endOf 3)) = some s ∧
      ∃ row, s.devices.find "dev-1" = some row ∧ row.online = false := by
  have hdone : ∀ s ∈ run step (.boot .empty) (inOrder ++ .bus (.publish (reported false)) ::
      (upToUpdate 3 ++ .commit 3 0 :: endOf 3)), s.Finished := by decide +kernel
  obtain ⟨s, hs⟩ := Option.isSome_iff_exists.mp (show (run step (.boot .empty) (inOrder ++
    .bus (.publish (reported false)) :: (upToUpdate 3 ++ .commit 3 0 :: endOf 3))).isSome by decide +kernel)
  obtain ⟨u, hu, hrest⟩ := run_append.mp hs
  exact ⟨s, hs, last_observation_wins hu hrest
    (show observe (reported false) =
      some { deviceId := "dev-1", baseTopic := "espclaw", online := false, timestamp := 0 }
      from rfl) (by simp [upToUpdate, endOf]) (by decide +kernel) (hdone s hs)⟩

end EspClawPlatform.Devices
