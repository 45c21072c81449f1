import Mathlib.Data.List.Chain
import EspClawPlatform.Devices.Presence

namespace EspClawPlatform.Devices

open Run

variable {s t : State} {d : String} {devices : Table DeviceEntity}

/-- The online flag, which is off before there is a row. -/
def flag (row : Option DeviceEntity) : Bool := row.any (·.online)

def State.flips (d : String) (s : State) (a : Action) : List Bool :=
  (step s a).elim [] fun t =>
    if flag (t.devices.find d) = flag (s.devices.find d) then [] else [flag (t.devices.find d)]

/-- The events of a device that the bus gets from the service in a step. -/
def State.announces (d : String) (s : State) : Action → List Payload
  | .bus _ => []
  | a => (((s.seen a).filterMap Bus.publication).filter fun event => event.deviceId = some d).map (·.payload)

def transition (online : Bool) : Payload := if online then .deviceOnline false else .deviceOffline true

def registration (before after : Option DeviceEntity) : List Payload :=
  if before.isSome then [] else after.toList.map fun row => .deviceRegistered row.baseTopic

def Execution.Concerns (x : Execution) (d : String) : Prop := ∃ o ∈ observe x.event, o.deviceId = d

def Frame.working : Frame → Bool
  | .returned _ | .settled _ => false
  | _ => true

def State.Idle (s : State) (d : String) : Prop :=
  ∀ x ∈ s.executions.rows, x.Concerns d → x.frame.working = false

/-- An observation of the device is handed over only when no call for it is at work. -/
def OneByOne (d : String) (s : State) : Action → Prop
  | .bus (.invoke link target) =>
      ∀ event ∈ s.handled link target, ∀ o ∈ observe event, o.deviceId = d → s.Idle d
  | _ => True

inductive Fits (row : Option DeviceEntity) (o : Observation) : Frame → Prop
  | findingBefore : Fits row o .findingBefore
  | foundBefore : Fits row o (.foundBefore row)
  | finding : Fits row o (.finding row)
  | found : Fits row o (.found row row)
  | saving (h : row = none) : Fits row o (.saving none)
  | saved {r : DeviceEntity} (h : row = some r) (honline : r.online = false) (hbase : r.baseTopic = o.baseTopic) :
      Fits row o (.saved none)
  | updating {before : Option DeviceEntity} {r : DeviceEntity} (h : row = some r) (hflag : flag before = r.online) :
      Fits row o (.updating before)
  | updated {before : Option DeviceEntity} {r : DeviceEntity} (h : row = some r) (hflag : r.online = o.online) :
      Fits row o (.updated before)
  | idle {f : Frame} (h : f.working = false) : Fits row o f

/-- What the service should have published, for the rows and the changes of the flag so far. -/
def lifecycle (before after : Option DeviceEntity) (flips : List Bool) : List Payload :=
  registration before after ++ flips.map transition

structure FlagHistory (before after : Option DeviceEntity) (flips : List Bool) : Prop where
  kept : before.isSome → after.isSome
  fresh : after = none → flips = []
  last : (flag before :: flips).getLast? = some (flag after)
  chain : (flag before :: flips).IsChain (· ≠ ·)

theorem FlagHistory.create {before : Option DeviceEntity} {flips : List Bool} {row : DeviceEntity}
    (hh : FlagHistory before none flips) (hrow : row.online = false) :
    FlagHistory before (some row) flips where
  kept := fun _ => rfl
  fresh := fun h => by cases h
  last := by rw [hh.last, flag, flag, Option.any_some, hrow, Option.any_none]
  chain := hh.chain

theorem FlagHistory.update {before : Option DeviceEntity} {flips : List Bool} {row row' : DeviceEntity}
    (hh : FlagHistory before (some row) flips) :
    FlagHistory before (some row')
      (flips ++ if flag (some row') = flag (some row) then [] else [flag (some row')]) := by
  split
  · rename_i hsame
    rw [List.append_nil]
    exact ⟨fun _ => rfl, nofun, by rw [hsame]; exact hh.last, hh.chain⟩
  · rename_i hchange
    refine ⟨fun _ => rfl, nofun, ?_, ?_⟩
    · rw [← List.cons_append, List.getLast?_concat]
    · rw [← List.cons_append, List.isChain_append]
      refine ⟨hh.chain, List.isChain_singleton _, ?_⟩
      intro x hx y hy
      rw [hh.last] at hx
      cases hx
      cases hy
      exact Ne.symm hchange

/-- At most one call for the device is at work, and what has been published is
all but what it will publish next. -/
structure LifecycleInv (devices : Table DeviceEntity) (d : String) (l : List Payload) (m : List Bool)
    (s : State) : Prop where
  lanes : Bus.LaneInv s.bus
  known : ∀ k x, s.executions.find k = some x → s.handled x.link x.target = some x.event
  alone : ∀ k j x y, s.executions.find k = some x → s.executions.find j = some y → x.Concerns d →
    y.Concerns d → x.frame.working → y.frame.working → k = j
  fits : ∀ k x o, s.executions.find k = some x → observe x.event = some o → o.deviceId = d →
    Fits (s.devices.find d) o x.frame
  idle : (∀ k x, s.executions.find k = some x → x.Concerns d → x.emits = []) →
    l = lifecycle (devices.find d) (s.devices.find d) m
  owing : ∀ k x, s.executions.find k = some x → x.Concerns d → x.emits ≠ [] →
    l ++ x.emits.map (·.payload) = lifecycle (devices.find d) (s.devices.find d) m
  history : FlagHistory (devices.find d) (s.devices.find d) m

theorem lanes_step {a : Action} (hi : Bus.LaneInv s.bus) (h : step s a = some t) : Bus.LaneInv t.bus := by
  rcases bus_move h with hb | ⟨b, hb, -⟩
  · rwa [hb]
  · exact Bus.laneInv_step hi hb

theorem emits_of_over {x : Execution} (h : x.frame.working = false) : x.emits = [] := by
  apply emits_of_frame
  · intro before hf
    rw [hf] at h
    cases h
  · intro before hf
    rw [hf] at h
    cases h

theorem known_goto {a : Action} {x : Execution} {f : Frame} (hi : Bus.LaneInv s.bus)
    (hk : ∀ k x, s.executions.find k = some x → s.handled x.link x.target = some x.event)
    (hx : s.executions.find (x.link, x.target) = some x)
    (he : t.executions = s.executions.save { x with frame := f }) (h : step s a = some t) (k : Nat × Nat)
    (y : Execution) (hy : t.executions.find k = some y) : t.handled y.link y.target = some y.event := by
  rw [find_goto he] at hy
  split at hy
  · cases hy
    exact handled_step hi h (hk _ x hx)
  · exact handled_step hi h (hk k y hy)

section Inv

variable {l l' : List Payload} {m m' : List Bool} {a : Action} {x : Execution} {f : Frame}

theorem LifecycleInv.owes (hi : LifecycleInv devices d l m s) {k : Nat × Nat} (hx : s.executions.find k = some x)
    (hc : x.Concerns d) (hw : x.frame.working) :
    l ++ x.emits.map (·.payload) = lifecycle (devices.find d) (s.devices.find d) m := by
  by_cases hemits : x.emits = []
  · rw [hemits, List.map_nil, List.append_nil]
    apply hi.idle
    intro j y hy hcy
    by_cases hwy : y.frame.working
    · obtain rfl := hi.alone k j x y hx hy hc hcy hw hwy
      obtain rfl := Option.some.inj (hx.symm.trans hy)
      exact hemits
    · exact emits_of_over (by simpa using hwy)
  · exact hi.owing k x hx hc hemits

theorem lifecycle_goto (hi : LifecycleInv devices d l m s) (h : step s a = some t)
    (hx : s.executions.find (x.link, x.target) = some x) (hc : x.Concerns d) (hw : x.frame.working)
    (he : t.executions = s.executions.save { x with frame := f })
    (hlog : l' ++ ({ x with frame := f } : Execution).emits.map (·.payload) =
      lifecycle (devices.find d) (t.devices.find d) m')
    (hfits : ∀ o, observe x.event = some o → Fits (t.devices.find d) o f)
    (hhistory : FlagHistory (devices.find d) (t.devices.find d) m') : LifecycleInv devices d l' m' t := by
  have hother {k : Nat × Nat} {y : Execution} (hy : t.executions.find k = some y) :
      k = (x.link, x.target) ∧ y = { x with frame := f } ∨
        k ≠ (x.link, x.target) ∧ s.executions.find k = some y := by
    rw [find_goto he] at hy
    split at hy
    · rename_i hk
      exact .inl ⟨hk, (Option.some.inj hy).symm⟩
    · rename_i hk
      exact .inr ⟨hk, hy⟩
  have hrest {k : Nat × Nat} {y : Execution} (hk : k ≠ (x.link, x.target))
      (hy : s.executions.find k = some y) (hcy : y.Concerns d) : y.frame.working = false := by
    by_contra hwy
    exact hk (hi.alone k _ y x hy hx hcy hc (by simpa using hwy) hw)
  refine
    { lanes := lanes_step hi.lanes h
      known := known_goto hi.lanes hi.known hx he h
      history := hhistory
      alone := ?_, fits := ?_, idle := ?_, owing := ?_ }
  · intro k j y z hy hz hcy hcz hwy hwz
    rcases hother hy with ⟨rfl, rfl⟩ | ⟨hk, hy⟩
    · rcases hother hz with ⟨rfl, -⟩ | ⟨hj, hz⟩
      · rfl
      · rw [hrest hj hz hcz] at hwz
        cases hwz
    · rw [hrest hk hy hcy] at hwy
      cases hwy
  · intro k y o hy ho hd
    rcases hother hy with ⟨rfl, rfl⟩ | ⟨hk, hy⟩
    · exact hfits o ho
    · exact .idle (hrest hk hy ⟨o, ho, hd⟩)
  · intro hall
    have hnone := hall _ { x with frame := f } (by rw [find_goto he, if_pos rfl]) hc
    rw [hnone, List.map_nil, List.append_nil] at hlog
    exact hlog
  · intro k y hy hcy hemits
    rcases hother hy with ⟨rfl, rfl⟩ | ⟨hk, hy⟩
    · exact hlog
    · exact absurd (emits_of_over (hrest hk hy hcy)) hemits

theorem lifecycle_apart (hi : LifecycleInv devices d l m s) (h : step s a = some t)
    (hk : ∀ k x, t.executions.find k = some x → t.handled x.link x.target = some x.event)
    (hx : ∀ k x, x.Concerns d → (t.executions.find k = some x ↔ s.executions.find k = some x))
    (hd : t.devices.find d = s.devices.find d) : LifecycleInv devices d l m t where
  lanes := lanes_step hi.lanes h
  known := hk
  alone := fun k j x y hfx hfy hcx hcy =>
    hi.alone k j x y ((hx k x hcx).mp hfx) ((hx j y hcy).mp hfy) hcx hcy
  fits := by
    intro k x o hf ho hid
    rw [hd]
    exact hi.fits k x o ((hx k x ⟨o, ho, hid⟩).mp hf) ho hid
  idle := by
    intro hall
    rw [hd]
    exact hi.idle fun k x hf hc => hall k x ((hx k x hc).mpr hf) hc
  owing := by
    intro k x hf hc
    rw [hd]
    exact hi.owing k x ((hx k x hc).mp hf) hc
  history := by rw [hd]; exact hi.history

end Inv

theorem flips_of_find {a : Action} (h : step s a = some t) (hd : t.devices.find d = s.devices.find d) :
    s.flips d a = [] := by
  rw [State.flips, h, Option.elim_some, if_pos (by rw [hd])]

theorem deviceId_of_emits {x : Execution} {o : Observation} (ho : observe x.event = some o) :
    ∀ e ∈ x.emits, e.deviceId = some o.deviceId := by
  intro e he
  rw [Execution.emits, ho] at he
  cases hf : x.frame with
  | saved before =>
      rw [hf] at he
      rw [List.mem_singleton.mp he]
      rfl
  | updated before =>
      simp only [hf] at he
      split at he
      · rw [List.mem_singleton.mp he]
        rfl
      · cases he
  | _ =>
      rw [hf] at he
      cases he

theorem publications_map (create : Published → DomainEvent Payload) (inputs : List Published) :
    (inputs.map fun input => Bus.Action.publish (create input)).filterMap Bus.publication = inputs.map create := by
  rw [List.filterMap_map]
  exact congrFun List.filterMap_eq_map inputs

theorem announces_eq (d : String) (s : State) (a : Action) :
    s.announces d a = ((s.published a).filter fun e => e.deviceId = some d).map (·.payload) := by
  cases a with
  | bus | commit | refuse => rfl
  | resume link target draw =>
      simp only [State.announces, State.seen, publications_map, List.filter_map, List.map_map]
      rfl
  | settle link target =>
      simp only [State.announces, State.seen]
      repeat' split
      all_goals rfl

theorem announces_of_quiet {a : Action} (hp : s.published a = []) : s.announces d a = [] := by
  rw [announces_eq, hp]
  rfl

theorem announces_of_emits {a : Action} {x : Execution} {o : Observation} (ho : observe x.event = some o)
    (hp : s.published a = x.emits) :
    s.announces d a = if o.deviceId = d then x.emits.map (·.payload) else [] := by
  rw [announces_eq, hp]
  split
  · rename_i hd
    rw [List.filter_eq_self.mpr]
    intro e he
    rw [deviceId_of_emits ho e he, hd]
    simp
  · rename_i hd
    rw [List.filter_eq_nil_iff.mpr, List.map_nil]
    intro e he
    rw [deviceId_of_emits ho e he]
    simpa using hd

section Step

variable {l : List Payload} {m : List Bool} {a : Action} {x : Execution} {o : Observation} {f : Frame}

theorem find_goto_other (hx : s.executions.find (x.link, x.target) = some x) (hc : ¬ x.Concerns d)
    (he : t.executions = s.executions.save { x with frame := f }) (k : Nat × Nat) (y : Execution)
    (hcy : y.Concerns d) : t.executions.find k = some y ↔ s.executions.find k = some y := by
  rw [find_goto he]
  split
  · rename_i hk
    refine iff_of_false ?_ ?_
    · rintro h
      cases h
      exact hc hcy
    · rintro h
      rw [hk, hx] at h
      cases h
      exact hc hcy
  · rfl

theorem lifecycle_other (hi : LifecycleInv devices d l m s) (h : step s a = some t)
    (hx : s.executions.find (x.link, x.target) = some x) (hc : ¬ x.Concerns d)
    (he : t.executions = s.executions.save { x with frame := f })
    (hd : t.devices.find d = s.devices.find d) (hp : s.announces d a = []) :
    LifecycleInv devices d (l ++ s.announces d a) (m ++ s.flips d a) t := by
  rw [hp, flips_of_find h hd, List.append_nil, List.append_nil]
  exact lifecycle_apart hi h (known_goto hi.lanes hi.known hx he h) (find_goto_other hx hc he) hd

theorem emits_of_goes (hf : Goes devices o x.frame f) : ({ x with frame := f } : Execution).emits = [] := by
  generalize x.frame = g at hf
  cases hf <;> exact emits_of_frame (fun _ h => by cases h) (fun _ h => by cases h)

theorem working_of_goes (hf : Goes devices o x.frame f) : x.frame.working := by
  generalize x.frame = g at hf
  cases hf <;> rfl

theorem fits_of_goes (hf : Goes devices o x.frame f) (h : Fits (devices.find o.deviceId) o x.frame) :
    Fits (devices.find o.deviceId) o f := by
  generalize x.frame = g at hf h
  cases hf with
  | looks => exact .foundBefore
  | asks => cases h with
    | foundBefore => exact .finding
    | idle h => cases h
  | finds => cases h with
    | finding => exact .found
    | idle h => cases h
  | @knows before row =>
      generalize hrow : devices.find o.deviceId = found at h
      cases h with
      | found => exact .updating rfl rfl
      | idle h => cases h
  | misses =>
      generalize hrow : devices.find o.deviceId = found at h
      cases h with
      | found => exact .saving rfl
      | idle h => cases h
  | registers => cases h with
    | saved h honline hbase => exact .updating h honline.symm
    | idle h => cases h
  | announces => exact .idle rfl

theorem concerns_iff (ho : observe x.event = some o) : x.Concerns d ↔ o.deviceId = d := by
  constructor
  · rintro ⟨o', ho', hd⟩
    obtain rfl := Option.some.inj (ho.symm.trans ho')
    exact hd
  · exact fun hd => ⟨o, ho, hd⟩

theorem lifecycle_goes (hi : LifecycleInv devices d l m s) (h : step s a = some t)
    (hx : s.executions.find (x.link, x.target) = some x) (ho : observe x.event = some o)
    (hf : Goes s.devices o x.frame f) (hp : s.published a = x.emits)
    (he : t.executions = s.executions.save { x with frame := f }) (hd : t.devices = s.devices) :
    LifecycleInv devices d (l ++ s.announces d a) (m ++ s.flips d a) t := by
  have hfind : t.devices.find d = s.devices.find d := by rw [hd]
  by_cases hid : o.deviceId = d
  · subst hid
    have hc : x.Concerns o.deviceId := (concerns_iff ho).mpr rfl
    rw [announces_of_emits ho hp, if_pos rfl, flips_of_find h hfind, List.append_nil]
    refine lifecycle_goto hi h hx hc (working_of_goes hf) he ?_ ?_ (by rw [hfind]; exact hi.history)
    · rw [emits_of_goes hf, List.map_nil, List.append_nil, hfind]
      exact hi.owes hx hc (working_of_goes hf)
    · intro o' ho'
      obtain rfl := Option.some.inj (ho.symm.trans ho')
      rw [hfind]
      exact fits_of_goes hf (hi.fits _ x o hx ho rfl)
  · exact lifecycle_other hi h hx (mt (concerns_iff ho).mp hid) he hfind
      ((announces_of_emits ho hp).trans (if_neg hid))

theorem lifecycle_creates {before : Option DeviceEntity} (hi : LifecycleInv devices d l m s)
    (h : step s a = some t) (hx : s.executions.find (x.link, x.target) = some x)
    (ho : observe x.event = some o) (hf : x.frame = .saving before) (hp : s.published a = [])
    (he : t.executions = s.executions.save { x with frame := .saved before })
    (hd : t.devices = saveCreated s.devices o.deviceId o.baseTopic) :
    LifecycleInv devices d (l ++ s.announces d a) (m ++ s.flips d a) t := by
  have hannounces : s.announces d a = [] := announces_of_quiet hp
  by_cases hid : o.deviceId = d
  · subst hid
    have hc : x.Concerns o.deviceId := (concerns_iff ho).mpr rfl
    have hw : x.frame.working := by rw [hf]; rfl
    have howes := hi.owes hx hc hw
    have hfits := hi.fits _ x o hx ho rfl
    rw [hf] at hfits
    cases hfits with
    | idle hover => cases hover
    | saving hnone =>
        obtain ⟨row, hrow, honline, hbase⟩ : ∃ row, t.devices.find o.deviceId = some row ∧
            row.online = false ∧ row.baseTopic = o.baseTopic :=
          ⟨_, by rw [hd, saveCreated]; exact Table.find_save_self _ _, rfl, rfl⟩
        have hflips : s.flips o.deviceId a = [] := by
          rw [State.flips, h, Option.elim_some, if_pos]
          rw [hrow, hnone, flag, flag, Option.any_some, honline, Option.any_none]
        have hhistory := hi.history
        rw [hnone] at hhistory
        have hboot : devices.find o.deviceId = none := by
          by_contra hsome
          exact absurd (hhistory.kept (Option.isSome_iff_ne_none.mpr hsome)) (by simp)
        rw [hannounces, hflips, List.append_nil, List.append_nil]
        refine lifecycle_goto hi h hx hc hw he ?_ ?_ ?_
        · have hl : x.emits = [] := emits_of_frame (by simp [hf]) (by simp [hf])
          rw [hl, hnone, hboot, hhistory.fresh rfl, List.map_nil, List.append_nil] at howes
          rw [howes, hrow, hboot, hhistory.fresh rfl]
          simp [Execution.emits, ho, registeredEvent, lifecycle, registration, announce, hbase]
        · intro o' ho'
          obtain rfl := Option.some.inj (ho.symm.trans ho')
          exact .saved hrow honline hbase
        · rw [hrow]
          exact hhistory.create honline
  · refine lifecycle_other hi h hx (mt (concerns_iff ho).mp hid) he ?_ hannounces
    rw [hd]
    exact Table.find_save_of_ne _ (Ne.symm hid)

theorem find_updatePresence_of_ne (devices : Table DeviceEntity) (hid : o.deviceId ≠ d) :
    (updatePresence devices o).find d = devices.find d := by
  cases hrow : devices.find o.deviceId with
  | none => rw [updatePresence, hrow]
  | some row => rw [find_updatePresence hrow, if_neg (Ne.symm hid)]

theorem lifecycle_applies {before : Option DeviceEntity} (hi : LifecycleInv devices d l m s)
    (h : step s a = some t) (hx : s.executions.find (x.link, x.target) = some x)
    (ho : observe x.event = some o) (hf : x.frame = .updating before) (hp : s.published a = [])
    (he : t.executions = s.executions.save { x with frame := .updated before })
    (hd : t.devices = updatePresence s.devices o) :
    LifecycleInv devices d (l ++ s.announces d a) (m ++ s.flips d a) t := by
  have hannounces : s.announces d a = [] := announces_of_quiet hp
  by_cases hid : o.deviceId = d
  · subst hid
    have hc : x.Concerns o.deviceId := (concerns_iff ho).mpr rfl
    have hw : x.frame.working := by rw [hf]; rfl
    have howes := hi.owes hx hc hw
    have hfits := hi.fits _ x o hx ho rfl
    rw [hf] at hfits
    cases hfits with
    | idle hover => cases hover
    | @updating _ r hrow hflag =>
        have hnew : t.devices.find o.deviceId =
            some { r with online := o.online, lastSeenAt := some o.timestamp } := by
          rw [hd, find_updatePresence hrow, if_pos rfl]
        have hhistory := hi.history
        rw [hrow] at hhistory
        have hflips : s.flips o.deviceId a = if o.online = r.online then [] else [o.online] := by
          rw [State.flips, h, Option.elim_some, hnew, hrow]
          rfl
        rw [hannounces, List.append_nil]
        refine lifecycle_goto hi h hx hc hw he ?_ ?_ ?_
        · have hl : x.emits = [] := emits_of_frame (by simp [hf]) (by simp [hf])
          rw [hl, hrow, List.map_nil, List.append_nil] at howes
          have hwas : (before.map (·.online)).getD false = r.online := by
            rw [← hflag]
            cases before <;> rfl
          rw [howes, hnew, hflips]
          simp only [Execution.emits, ho, hwas, lifecycle, registration]
          cases hb : r.online <;> cases ho' : o.online <;> simp [transitionEvent, announce, transition, ho']
        · intro o' ho'
          obtain rfl := Option.some.inj (ho.symm.trans ho')
          exact .updated hnew rfl
        · rw [hnew, State.flips, h, Option.elim_some, hnew, hrow]
          exact hhistory.update
  · exact lifecycle_other hi h hx (mt (concerns_iff ho).mp hid) he
      (by rw [hd, find_updatePresence_of_ne _ hid]) hannounces

theorem lifecycle_returns (hi : LifecycleInv devices d l m s) (h : step s a = some t)
    (hx : s.executions.find (x.link, x.target) = some x) (hemits : x.emits = []) (hf : f.working = false)
    (hp : s.published a = []) (he : t.executions = s.executions.save { x with frame := f })
    (hd : t.devices = s.devices) : LifecycleInv devices d (l ++ s.announces d a) (m ++ s.flips d a) t := by
  have hannounces : s.announces d a = [] := announces_of_quiet hp
  have hfind : t.devices.find d = s.devices.find d := by rw [hd]
  have hother {k : Nat × Nat} {y : Execution} (hy : t.executions.find k = some y) :
      y = { x with frame := f } ∨ k ≠ (x.link, x.target) ∧ s.executions.find k = some y := by
    rw [find_goto he] at hy
    split at hy
    · exact .inl (Option.some.inj hy).symm
    · rename_i hk
      exact .inr ⟨hk, hy⟩
  have hkept {k : Nat × Nat} {y : Execution} (hk : k ≠ (x.link, x.target)) (hy : s.executions.find k = some y) :
      t.executions.find k = some y := by rw [find_goto he, if_neg hk, hy]
  have hover : ({ x with frame := f } : Execution).emits = [] := emits_of_over hf
  rw [hannounces, flips_of_find h hfind, List.append_nil, List.append_nil]
  refine
    { lanes := lanes_step hi.lanes h
      known := known_goto hi.lanes hi.known hx he h
      history := by rw [hfind]; exact hi.history
      alone := ?_, fits := ?_, idle := ?_, owing := ?_ }
  · intro k j y z hy hz hcy hcz hwy hwz
    rcases hother hy with rfl | ⟨-, hy⟩
    · cases hf.symm.trans hwy
    · rcases hother hz with rfl | ⟨-, hz⟩
      · cases hf.symm.trans hwz
      · exact hi.alone k j y z hy hz hcy hcz hwy hwz
  · intro k y o hy ho hid
    rw [hfind]
    rcases hother hy with rfl | ⟨-, hy⟩
    · exact .idle hf
    · exact hi.fits k y o hy ho hid
  · intro hall
    rw [hfind]
    apply hi.idle
    intro k y hy hcy
    by_cases hk : k = (x.link, x.target)
    · rw [hk, hx] at hy
      cases hy
      exact hemits
    · exact hall k y (hkept hk hy) hcy
  · intro k y hy hcy hne
    rw [hfind]
    rcases hother hy with rfl | ⟨-, hy⟩
    · exact absurd hover hne
    · exact hi.owing k y hy hcy hne

theorem lifecycle_invoke {link target : Nat} {event : DomainEvent Payload} (hi : LifecycleInv devices d l m s)
    (h : step s (.bus (.invoke link target)) = some t) (hone : OneByOne d s (.bus (.invoke link target)))
    (hh : s.handled link target = some event)
    (hx : t.executions = s.executions.save
      { link := link, target := target, event := event, frame := begin event })
    (hd : t.devices.find d = s.devices.find d) : LifecycleInv devices d l m t := by
  have hfind (k : Nat × Nat) : t.executions.find k = if k = (link, target) then
      some { link := link, target := target, event := event, frame := begin event }
      else s.executions.find k := by
    rw [hx, Table.find_save, key_execution]
  have hknown (k : Nat × Nat) (y : Execution) (hy : t.executions.find k = some y) :
      t.handled y.link y.target = some y.event := by
    rw [hfind] at hy
    split at hy
    · cases hy
      exact handled_step hi.lanes h hh
    · exact handled_step hi.lanes h (hi.known k y hy)
  by_cases hc : ∃ o ∈ observe event, o.deviceId = d
  · -- no call for the device is at work, so that the new one is alone
    obtain ⟨o, ho, hid⟩ := hc
    have hidle {k : Nat × Nat} {y : Execution} (hy : s.executions.find k = some y) (hcy : y.Concerns d) :
        y.frame.working = false := hone event hh o ho hid y (Table.mem_of_find hy) hcy
    have hbegin : begin event = .findingBefore := by rw [begin, ho]; rfl
    rw [hbegin] at hfind
    have hall : ∀ k y, t.executions.find k = some y → y.Concerns d → y.emits = [] := by
      intro k y hy hcy
      rw [hfind] at hy
      split at hy
      · cases hy
        exact emits_of_frame (fun _ h => by cases h) (fun _ h => by cases h)
      · exact emits_of_over (hidle hy hcy)
    refine
      { lanes := lanes_step hi.lanes h
        known := hknown
        history := by rw [hd]; exact hi.history
        alone := ?_, fits := ?_, idle := ?_, owing := ?_ }
    · intro k j y z hy hz hcy hcz hwy hwz
      rw [hfind] at hy hz
      split at hy
      · rename_i hk
        split at hz
        · rename_i hj
          rw [hk, hj]
        · cases (hidle hz hcz).symm.trans hwz
      · cases (hidle hy hcy).symm.trans hwy
    · intro k y o' hy ho' hid'
      rw [hfind] at hy
      split at hy
      · cases hy
        exact .findingBefore
      · exact .idle (hidle hy ⟨o', ho', hid'⟩)
    · intro _
      rw [hd]
      exact hi.idle fun k y hy hcy => emits_of_over (hidle hy hcy)
    · intro k y hy hcy hne
      exact absurd (hall k y hy hcy) hne
  · refine lifecycle_apart hi h hknown (fun k y hcy => ?_) hd
    rw [hfind]
    split
    · rename_i hk
      refine iff_of_false ?_ ?_
      · rintro hy
        cases hy
        exact hc hcy
      · rintro hy
        obtain ⟨hlink, htarget⟩ := Prod.mk.inj (hk ▸ Table.key_of_find hy)
        have hevent := hi.known k y hy
        rw [hlink, htarget, hh] at hevent
        cases hevent
        exact hc hcy
    · rfl

theorem lifecycle_outside {b : Bus.Action Payload} (hi : LifecycleInv devices d l m s)
    (h : step s (.bus b) = some t) (hone : OneByOne d s (.bus b)) (hx : t.executions = s.called b)
    (hd : t.devices = s.devices) :
    LifecycleInv devices d (l ++ s.announces d (.bus b)) (m ++ s.flips d (.bus b)) t := by
  have hannounces : s.announces d (.bus b) = [] := rfl
  have hfind : t.devices.find d = s.devices.find d := by rw [hd]
  rw [hannounces, flips_of_find h hfind, List.append_nil, List.append_nil]
  have hknown (hsame : s.called b = s.executions) (k : Nat × Nat) (y : Execution)
      (hy : t.executions.find k = some y) : t.handled y.link y.target = some y.event := by
    rw [hx, hsame] at hy
    exact handled_step hi.lanes h (hi.known k y hy)
  have hquiet (hsame : s.called b = s.executions) : LifecycleInv devices d l m t :=
    lifecycle_apart hi h (hknown hsame) (fun k y _ => by rw [hx, hsame]) hfind
  cases b with
  | invoke link target =>
      cases hh : s.handled link target with
      | none => exact hquiet (by rw [State.called, hh])
      | some event => exact lifecycle_invoke hi h hone hh (by rw [hx, State.called, hh]) hfind
  | _ => exact hquiet rfl

theorem lifecycle_step (hi : LifecycleInv devices d l m s) (hone : OneByOne d s a)
    (h : step s a = some t) :
    LifecycleInv devices d (l ++ s.announces d a) (m ++ s.flips d a) t := by
  cases step_course h with
  | outside hb hx hd => exact lifecycle_outside hi h hone hx hd
  | goes hx ho hf hp he hd => exact lifecycle_goes hi h hx ho hf hp he hd
  | creates hx ho hf hp he hd => exact lifecycle_creates hi h hx ho hf hp he hd
  | applies hx ho hf hp he hd => exact lifecycle_applies hi h hx ho hf hp he hd
  | @fails _ _ x message hx hf hp he hd =>
      refine lifecycle_returns hi h hx (emits_of_frame ?_ ?_) rfl hp he hd
      · intro before hframe
        rw [hframe] at hf
        cases hf
      · intro before hframe
        rw [hframe] at hf
        cases hf
  | settles hx hf hp he hd =>
      exact lifecycle_returns hi h hx (emits_of_frame (by simp [hf]) (by simp [hf])) rfl hp he hd

theorem lifecycleInv_boot : LifecycleInv devices d [] [] (.boot devices) where
  lanes := handlerInv_init.listen.delivery.lanes
  known := fun _ _ hx => by cases hx
  alone := fun _ _ _ _ hx => by cases hx
  fits := fun _ _ _ hx => by cases hx
  idle := by
    intro _
    change [] = lifecycle (devices.find d) (devices.find d) []
    rw [lifecycle, registration]
    cases devices.find d <;> rfl
  owing := fun _ _ hx => by cases hx
  history := ⟨id, fun _ => rfl, rfl, List.isChain_singleton _⟩

end Step

/-- In a run that handles the observations of a device one by one, what the bus
gets from the service of the device is its registration and then exactly the
changes of its flag, whichever queries fail on the way. -/
theorem lifecycle_is_presence {as : List Action} (h : run step (.boot devices) as = some s)
    (hone : Along step (OneByOne d) (.boot devices) as) (hidle : s.Idle d) :
    run Bus.step (State.boot devices).bus (trace step State.seen (.boot devices) as) = some s.bus ∧
      trace step (State.announces d) (.boot devices) as =
        registration (devices.find d) (s.devices.find d) ++
          (trace step (State.flips d) (.boot devices) as).map transition ∧
      (flag (devices.find d) :: trace step (State.flips d) (.boot devices) as).IsChain (· ≠ ·) := by
  have hi := logs_along _ _ (fun _ _ _ _ _ hi hC hs => lifecycle_step hi hC hs) h hone lifecycleInv_boot
  rw [List.nil_append, List.nil_append] at hi
  refine ⟨?_, hi.idle fun k x hx hc => emits_of_over (hidle x (Table.mem_of_find hx) hc), hi.history.chain⟩
  exact run_trace (P := fun _ => True) State.bus (fun _ _ _ _ hs => ⟨trivial, bus_seen hs⟩) h trivial

instance (x : Execution) (d : String) : Decidable (x.Concerns d) :=
  inferInstanceAs (Decidable (∃ o ∈ observe x.event, o.deviceId = d))

instance (s : State) (d : String) : Decidable (s.Idle d) :=
  inferInstanceAs (Decidable (∀ x ∈ s.executions.rows, _))

instance (d : String) (s : State) : ∀ a, Decidable (OneByOne d s a)
  | .bus (.invoke link target) => inferInstanceAs (Decidable (∀ event ∈ s.handled link target, _))
  | .bus (.publish _) | .bus (.subscribe ..) | .bus (.unsubscribe _) | .bus (.start _) | .bus (.settle ..)
  | .bus (.timeout ..) | .bus (.wake ..) | .bus (.finish _) | .bus (.cleanup _) | .commit .. | .refuse ..
  | .resume .. | .settle .. => inferInstanceAs (Decidable True)

def failedSight : List Action := firstSight ++ [.refuse 0 0 "deadlock", .settle 0 0, .bus (.finish 0), .bus (.cleanup 0)]

theorem failed_update_is_made_up_for : ∃ s, run step (.boot .empty)
    (failedSight ++ .bus (.publish (reported true)) :: (upToUpdate 2 ++ .commit 2 0 :: endOf 2)) = some s ∧
      trace step (State.announces "dev-1") (.boot .empty)
        (failedSight ++ .bus (.publish (reported true)) :: (upToUpdate 2 ++ .commit 2 0 :: endOf 2)) =
          [.deviceRegistered "espclaw", .deviceOnline false] := by
  have hall : ∀ s ∈ run step (.boot .empty)
      (failedSight ++ .bus (.publish (reported true)) :: (upToUpdate 2 ++ .commit 2 0 :: endOf 2)),
      s.Idle "dev-1" ∧ registration none (s.devices.find "dev-1") = [.deviceRegistered "espclaw"] := by
    decide +kernel
  obtain ⟨s, hs⟩ := Option.isSome_iff_exists.mp (show (run step (.boot .empty) (failedSight ++
    .bus (.publish (reported true)) :: (upToUpdate 2 ++ .commit 2 0 :: endOf 2))).isSome by decide +kernel)
  obtain ⟨hidle, hregistered⟩ := hall s hs
  refine ⟨s, hs, ?_⟩
  obtain ⟨-, hlog, -⟩ := lifecycle_is_presence hs (d := "dev-1") (by decide +kernel) hidle
  rw [hlog]
  change registration none (s.devices.find "dev-1") ++ _ = _
  rw [hregistered]
  decide +kernel

end EspClawPlatform.Devices
