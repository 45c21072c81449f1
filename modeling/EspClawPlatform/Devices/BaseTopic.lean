import EspClawPlatform.Devices.Lifecycle

namespace EspClawPlatform.Devices

open Run

variable {s t : State} {d : String} {devices : Table DeviceEntity} {a : Action} {base : Option String} {n : Nat}
  {b : String}

def reportedBase (d : String) (event : DomainEvent Payload) : Option String :=
  (observe event).bind fun o => if o.deviceId = d then some o.baseTopic else none

def heard (d : String) : Action → Option String
  | .bus (.publish event) => reportedBase d event
  | _ => none

/-- The base topic of the row that the process finds, or of the first report of a device without one. -/
def registeredUnder (devices : Table DeviceEntity) (d : String) (reports : List String) : Option String :=
  ((devices.find d).map (·.baseTopic)).or reports.head?

/-- Every report of the device has been delivered to the registry, and no delivery has broken off. -/
structure State.Processed (s : State) (d : String) : Prop where
  sound : Bus.NeverRejects s.bus
  delivered : ∀ e ∈ s.bus.links.rows, (reportedBase d e.event).isSome → ∀ r ∈ e.runs, r.sub.id = presence.id →
    r.phase = .delivered

instance (s : State) (d : String) : Decidable (s.Processed d) :=
  decidable_of_iff ((∀ e ∈ s.bus.links.rows, e.rejects = false) ∧
      ∀ e ∈ s.bus.links.rows, (reportedBase d e.event).isSome → ∀ r ∈ e.runs, r.sub.id = presence.id →
        r.phase = .delivered)
    ⟨fun h => ⟨h.1, h.2⟩, fun h => ⟨h.sound, h.delivered⟩⟩

def Frame.creating : Frame → Bool
  | .found _ existing => existing.isNone
  | .saving _ => true
  | _ => false

/-- The row of the device has this base topic, and so would each row that a call is about to make for it. -/
structure Based (s : State) (d : String) (base : Option String) : Prop where
  row : ∀ row, s.devices.find d = some row → some row.baseTopic = base
  calls : ∀ k x o, s.executions.find k = some x → x.frame.creating → observe x.event = some o →
    o.deviceId = d → some o.baseTopic = base

def Seen (s : State) : Prop :=
  ∀ k x o, s.executions.find k = some x → observe x.event = some o → x.frame.stored ∨ x.frame.applied →
    (s.devices.find o.deviceId).isSome

theorem base_updatePresence (devices : Table DeviceEntity) (o : Observation) (d : String) :
    ((updatePresence devices o).find d).map (·.baseTopic) = (devices.find d).map (·.baseTopic) := by
  cases hrow : devices.find o.deviceId with
  | none => rw [updatePresence, hrow]
  | some row =>
      rw [find_updatePresence hrow]
      split
      · rename_i hd
        rw [hd, hrow]
        rfl
      · rfl

theorem find_called {action : Bus.Action Payload} {k : Nat × Nat} {x : Execution}
    (h : (s.called action).find k = some x) : s.executions.find k = some x ∨ x.frame = begin x.event := by
  cases action with
  | invoke link target =>
      rw [State.called] at h
      split at h
      · exact .inl h
      · rw [Table.find_save] at h
        split at h
        · cases h
          exact .inr rfl
        · exact .inl h
  | _ => exact .inl h

theorem row_kept (h : step s a = some t) (hrow : (s.devices.find d).isSome) : (t.devices.find d).isSome := by
  cases step_course h with
  | outside _ _ hd | goes _ _ _ _ _ hd | fails _ _ _ _ hd | settles _ _ _ _ hd => rwa [hd]
  | creates _ _ _ _ _ hd =>
      rw [hd]
      exact (find_saveCreated _ _ _).mpr (.inr hrow)
  | @applies _ _ _ o _ _ _ _ _ _ hd =>
      have hbase := congrArg Option.isSome (base_updatePresence s.devices o d)
      rw [Option.isSome_map, Option.isSome_map] at hbase
      rwa [hd, hbase]

theorem seen_step (hs : Seen s) (h : step s a = some t) : Seen t := by
  intro k y o hy ho hseen
  have hkept {k : Nat × Nat} {y : Execution} (hy : s.executions.find k = some y) (ho : observe y.event = some o)
      (hseen : y.frame.stored ∨ y.frame.applied) : (t.devices.find o.deviceId).isSome :=
    row_kept h (hs k y o hy ho hseen)
  have hgoto {x : Execution} {f : Frame} (he : t.executions = s.executions.save { x with frame := f })
      (hown : observe x.event = some o → f.stored ∨ f.applied → (t.devices.find o.deviceId).isSome) :
      (t.devices.find o.deviceId).isSome := by
    rw [find_goto he] at hy
    split at hy
    · cases hy
      exact hown ho hseen
    · exact hkept hy ho hseen
  cases step_course h with
  | outside hb hx hd =>
      rw [hx] at hy
      rcases find_called hy with hy | hbegin
      · exact hkept hy ho hseen
      · rw [hbegin, begin, ho] at hseen
        simp [Frame.stored, Frame.applied] at hseen
  | @goes _ _ x o' f hx ho' hf hp he hd =>
      apply hgoto he
      intro ho hseen
      obtain rfl := Option.some.inj (ho'.symm.trans ho)
      generalize hframe : x.frame = g at hf
      cases hf with
      | looks | asks | misses => simp [Frame.stored, Frame.applied] at hseen
      | finds =>
          rw [hd]
          simpa [Frame.stored, Frame.applied] using hseen
      | knows | registers | announces => exact hkept hx ho' (by simp [hframe, Frame.stored, Frame.applied])
  | creates hx ho' hf hp he hd =>
      apply hgoto he
      rintro ho -
      obtain rfl := Option.some.inj (ho'.symm.trans ho)
      rw [hd]
      exact (find_saveCreated _ _ _).mpr (.inl rfl)
  | applies hx ho' hf hp he hd =>
      apply hgoto he
      rintro ho -
      exact hkept hx ho (by simp [hf, Frame.stored])
  | fails hx hf hp he hd =>
      apply hgoto he
      intro ho hseen
      simp [Frame.stored, Frame.applied] at hseen
  | @settles _ _ x failure hx hf hp he hd =>
      apply hgoto he
      intro ho hseen
      apply hkept hx ho
      rw [hf]
      cases failure with
      | none => exact .inr rfl
      | some message => simp [Frame.stored, Frame.applied] at hseen

section Base

theorem Based.or (hb : Based s d base) (other : Option String) : Based s d (base.or other) where
  row := fun row hrow => by rw [← hb.row row hrow, Option.some_or]
  calls := fun k x o hx hc ho hd => by rw [← hb.calls k x o hx hc ho hd, Option.some_or]

theorem based_create {o : Observation} (hb : Based s d base) (ho : o.deviceId = d → some o.baseTopic = base)
    {row : DeviceEntity} (hrow : (saveCreated s.devices o.deviceId o.baseTopic).find d = some row) :
    some row.baseTopic = base := by
  rw [saveCreated, Table.find_save] at hrow
  split at hrow
  · rename_i hd
    cases hrow
    exact ho hd.symm
  · exact hb.row row hrow

/-- A call that looks for the row may find none only if it reports the base topic itself. -/
theorem based_step (hb : Based s d base)
    (hfinds : s.devices.find d = none → ∀ k x o, s.executions.find k = some x → observe x.event = some o →
      o.deviceId = d → some o.baseTopic = base)
    (h : step s a = some t) : Based t d base := by
  have hcalls {x : Execution} {f : Frame} (he : t.executions = s.executions.save { x with frame := f })
      (hf : f.creating → ∀ o, observe x.event = some o → o.deviceId = d → some o.baseTopic = base) :
      ∀ k y o, t.executions.find k = some y → y.frame.creating → observe y.event = some o →
        o.deviceId = d → some o.baseTopic = base := by
    intro k y o hy hc ho hd
    rw [find_goto he] at hy
    split at hy
    · cases hy
      exact hf hc o ho hd
    · exact hb.calls k y o hy hc ho hd
  cases step_course h with
  | outside _ hx hd =>
      refine ⟨fun row hrow => hb.row row (hd ▸ hrow), fun k y o hy hc ho hid => ?_⟩
      rw [hx] at hy
      rcases find_called hy with hy | hbegin
      · exact hb.calls k y o hy hc ho hid
      · rw [hbegin, begin, ho] at hc
        cases hc
  | @goes _ _ x o f hx ho hf hp he hd =>
      refine ⟨fun row hrow => hb.row row (hd ▸ hrow), hcalls he fun hc o' ho' hid => ?_⟩
      obtain rfl := Option.some.inj (ho.symm.trans ho')
      generalize hframe : x.frame = g at hf
      cases hf with
      | finds =>
          refine hfinds ?_ _ x o hx ho hid
          rw [← hid]
          exact Option.isNone_iff_eq_none.mp hc
      | misses => exact hb.calls _ x o hx (by rw [hframe]; rfl) ho hid
      | looks | asks | knows | registers | announces => cases hc
  | @creates _ _ x o before hx ho hf hp he hd =>
      have hbase (hid : o.deviceId = d) : some o.baseTopic = base :=
        hb.calls _ x o hx (by rw [hf]; rfl) ho hid
      exact ⟨fun row hrow => based_create hb hbase (hd ▸ hrow), hcalls he fun hc => by cases hc⟩
  | @applies _ _ x o before hx ho hf hp he hd =>
      refine ⟨fun row hrow => ?_, hcalls he fun hc => by cases hc⟩
      have hsame := base_updatePresence s.devices o d
      rw [← hd, hrow] at hsame
      obtain ⟨row', hrow', heq⟩ := Option.map_eq_some_iff.mp hsame.symm
      rw [← hb.row row' hrow', heq]
  | fails hx hf hp he hd =>
      exact ⟨fun row hrow => hb.row row (hd ▸ hrow), hcalls he fun hc => by cases hc⟩
  | settles hx hf hp he hd =>
      exact ⟨fun row hrow => hb.row row (hd ▸ hrow), hcalls he fun hc => by cases hc⟩

structure Registered (s : State) (d base : String) : Prop where
  based : Based s d (some base)
  row : (s.devices.find d).isSome

theorem registered_step {base : String} (hr : Registered s d base) (h : step s a = some t) :
    Registered t d base where
  based := based_step hr.based (fun hnone => absurd hr.row (by rw [hnone]; exact Bool.false_ne_true)) h
  row := row_kept h hr.row

end Base

section Reports

def State.Reports (s : State) (d : String) (n : Nat) (b : String) : Prop :=
  ∃ e, s.bus.links.find n = some e ∧ reportedBase d e.event = some b

def State.FirstReport (s : State) (d : String) : Option String → Prop
  | none => ∀ n b, ¬ s.Reports d n b
  | some base => ∃ n, s.Reports d n base ∧ ∀ m b, s.Reports d m b → n ≤ m

theorem reportedBase_eq_some {event : DomainEvent Payload} :
    reportedBase d event = some b ↔ ∃ o, observe event = some o ∧ o.deviceId = d ∧ o.baseTopic = b := by
  rw [reportedBase, Option.bind_eq_some_iff]
  refine exists_congr fun o => and_congr_right fun _ => ?_
  split
  · rename_i hd
    rw [Option.some.injEq, and_iff_right hd]
  · rename_i hd
    exact iff_of_false (fun h => by cases h) fun h => hd h.1

theorem reports_quiet {action : Bus.Action Payload} (hi : Bus.LaneInv s.bus)
    (h : Bus.step s.bus action = some t.bus)
    (hquiet : ∀ event, action = .publish event → reportedBase d event = none) :
    t.Reports d n b ↔ s.Reports d n b := by
  cases Bus.step_shape h with
  | still hl | cleanup _ _ hl => rw [State.Reports, State.Reports, hl]
  | publish event ha hl =>
      refine Bus.exists_publish hi hl (p := fun e => reportedBase d e.event = some b) fun hreport => ?_
      cases (hquiet event ha).symm.trans hreport
  | @move e e' he hm hl =>
      rw [State.Reports, State.Reports, Bus.find_move hm hl]
      split
      · rename_i hn
        subst hn
        simp only [he, Option.some.injEq, exists_eq_left', hm.event_eq]
      · exact Iff.rfl

theorem reports_publish {event : DomainEvent Payload} (hi : ListenInv s.bus)
    (h : step s (.bus (.publish event)) = some t) :
    t.Reports d n b ↔ s.Reports d n b ∨ n = s.bus.counters.published ∧ reportedBase d event = some b := by
  simp only [step] at h
  split at h
  · rename_i htype
    cases h
    cases hbase : reportedBase d event with
    | none =>
        have hb : Bus.step s.bus (.publish event) = some (s.bus.publish event) := rfl
        refine (reports_quiet hi.delivery.lanes hb fun event' ha => ?_).trans (by simp)
        cases ha
        exact hbase
    | some b' =>
        obtain ⟨o, ho, -, -⟩ := reportedBase_eq_some.mp hbase
        have htype : event.eventType = event.payload.eventType := by simpa [State.outside] using htype
        have hmem : presence ∈ Bus.targets s.bus event := by
          refine List.mem_filter.mpr ⟨hi.listens.subscribed, ?_⟩
          rw [htype.trans (deviceId_of_observe ho).2]
          decide
        have hlinks := Bus.publish_links (List.ne_nil_of_mem hmem)
        rw [State.Reports, Bus.find_publish hlinks]
        constructor
        · rintro ⟨e, he, hreport⟩
          split at he
          · rename_i hn
            cases he
            exact .inr ⟨hn, hbase ▸ hreport⟩
          · exact .inl ⟨e, he, hreport⟩
        · rintro (⟨e, he, hreport⟩ | ⟨hn, hb⟩)
          · have hne := (hi.delivery.lanes.fresh n e he).ne
            exact ⟨e, by rw [if_neg hne, he], hreport⟩
          · exact ⟨Bus.chained s.bus event, if_pos hn, hbase.trans hb⟩
  · cases h

theorem reports_step (hi : HandlerInv s) (h : step s a = some t) :
    t.Reports d n b ↔ s.Reports d n b ∨ n = s.bus.counters.published ∧ heard d a = some b := by
  have hquiet (hnone : heard d a = none) (hsame : t.Reports d n b ↔ s.Reports d n b) :
      t.Reports d n b ↔ s.Reports d n b ∨ n = s.bus.counters.published ∧ heard d a = some b := by
    rw [hsame, hnone]
    simp
  have hlanes := hi.listen.delivery.lanes
  by_cases hpublish : ∃ event, a = .bus (.publish event)
  · obtain ⟨event, rfl⟩ := hpublish
    exact reports_publish hi.listen h
  · have hnone : heard d a = none := by
      cases a with
      | bus action =>
          cases action with
          | publish event => exact absurd ⟨event, rfl⟩ hpublish
          | _ => rfl
      | _ => rfl
    apply hquiet hnone
    rcases bus_move h with hb | ⟨action, hb, hpub⟩
    · rw [State.Reports, State.Reports, hb]
    · refine reports_quiet hlanes hb fun event ha => ?_
      rcases hpub event ha with rfl | hobserve
      · exact absurd ⟨event, rfl⟩ hpublish
      · rw [reportedBase, hobserve, Option.bind_none]

theorem firstReport_step {l : List String} (hi : HandlerInv s) (hf : s.FirstReport d l.head?)
    (h : step s a = some t) : t.FirstReport d (l ++ (heard d a).toList).head? := by
  cases l with
  | nil =>
      cases hh : heard d a with
      | none =>
          intro n b hreport
          rcases (reports_step hi h).mp hreport with hreport | ⟨-, hb⟩
          · exact hf n b hreport
          · cases hh.symm.trans hb
      | some base =>
          refine ⟨s.bus.counters.published, (reports_step hi h).mpr (.inr ⟨rfl, hh⟩), fun m b hreport => ?_⟩
          rcases (reports_step hi h).mp hreport with hreport | ⟨rfl, -⟩
          · exact absurd hreport (hf m b)
          · exact Nat.le_refl _
  | cons base l =>
      obtain ⟨n, hn, hmin⟩ := hf
      refine ⟨n, (reports_step hi h).mpr (.inl hn), fun m b hreport => ?_⟩
      rcases (reports_step hi h).mp hreport with hreport | ⟨rfl, -⟩
      · exact hmin m b hreport
      · obtain ⟨e, he, -⟩ := hn
        exact Nat.le_of_lt (hi.listen.delivery.lanes.fresh n e he)

end Reports

section Origin

def State.Lapsed (s : State) (d : String) : Prop :=
  ∃ n i event, s.handled n i = some event ∧ (reportedBase d event).isSome ∧ s.GivenUp n i

theorem lapsed_step (hi : Bus.LaneInv s.bus) (h : step s a = some t) (hl : s.Lapsed d) : t.Lapsed d := by
  obtain ⟨n, i, event, hh, hreport, r, hr, hp⟩ := hl
  refine ⟨n, i, event, handled_step hi h hh, hreport, r, ?_, hp⟩
  rcases bus_move h with hb | ⟨action, hb, -⟩
  · rwa [hb]
  · exact Bus.failed_step hi hb hr hp

theorem crashed_step (hi : Bus.LaneInv s.bus) (h : step s a = some t) (hc : Bus.Crashed s.bus) :
    Bus.Crashed t.bus := by
  rcases bus_move h with hb | ⟨action, hb, -⟩
  · rwa [hb]
  · exact Bus.crashed_step hi hb hc

theorem logs_of_not_crashed (h : step s a = some t) (hc : ¬ Bus.Crashed t.bus) : a.Logs := by
  by_contra hlogs
  cases a with
  | bus action =>
      simp only [step] at h
      split at h
      · obtain ⟨bus, hb, rfl⟩ := Option.map_eq_some_iff.mp h
        exact hc (Bus.crashed_of_not_logs hb hlogs)
      · cases h
  | _ => exact hlogs trivial

theorem handled_of_reports (hi : ListenInv s.bus) (h : s.Reports d n b) : ∃ i r event,
    s.handled n i = some event ∧ reportedBase d event = some b ∧ s.bus.runAt n i = some r ∧
      r.sub.id = presence.id := by
  obtain ⟨e, he, hreport⟩ := h
  obtain ⟨o, ho, -, -⟩ := reportedBase_eq_some.mp hreport
  have hmatches : Bus.matchesPattern presence.pattern e.event.eventType = true := by
    rw [(hi.typed n e he).trans (deviceId_of_observe ho).2]
    decide
  obtain ⟨i, r, -, hsub, hr, hheard⟩ := hi.listens.exists_run he hmatches
  exact ⟨i, r, e.event, hheard, hreport, hr, congrArg (·.id) hsub⟩

theorem row_of_delivered {i : Nat} {r : Bus.HandlerRun} {event : DomainEvent Payload} (hi : HandlerInv s)
    (hs : Seen s) (hh : s.handled n i = some event) (hreport : reportedBase d event = some b)
    (hr : s.bus.runAt n i = some r) (hid : r.sub.id = presence.id) (hp : r.phase = .delivered) :
    (s.devices.find d).isSome := by
  have hstage := hi.stage n i r hr hid
  cases hx : s.executions.find (n, i) with
  | none =>
      rw [hx] at hstage
      cases hstage with
      | due hdue => cases hdue.symm.trans hp
  | some x =>
      obtain ⟨rfl, rfl⟩ := Prod.mk.inj (show (x.link, x.target) = (n, i) from Table.key_of_find hx)
      obtain rfl := Option.some.inj (hh.symm.trans (hi.known _ x hx))
      obtain ⟨o, ho, rfl, -⟩ := reportedBase_eq_some.mp hreport
      rw [hx] at hstage
      refine hs _ x o hx ho (.inr ?_)
      cases hstage with
      | running hrun => cases hrun.symm.trans hp
      | delivered _ hf => rw [hf]; rfl
      | failed hfail => cases hfail.symm.trans hp

/-- A call for a device without a row is for the first report of it: the calls
for the reports before it have come to an end, and none of them has failed. -/
theorem base_of_rowless {k : Nat × Nat} {x : Execution} {o : Observation} (hi : HandlerInv s) (hs : Seen s)
    (hlapse : ¬ s.Lapsed d) (hfirst : s.FirstReport d base) (hrow : s.devices.find d = none)
    (hx : s.executions.find k = some x) (ho : observe x.event = some o) (hd : o.deviceId = d) :
    some o.baseTopic = base := by
  obtain ⟨e, r, he, -, -, hevent⟩ := Bus.heardBy_eq_some.mp (hi.known k x hx)
  have hreport : s.Reports d x.link o.baseTopic := ⟨e, he, reportedBase_eq_some.mpr ⟨o, hevent ▸ ho, hd, rfl⟩⟩
  cases base with
  | none => exact absurd hreport (hfirst _ _)
  | some base =>
      obtain ⟨m, hm, hmin⟩ := hfirst
      rcases Nat.lt_or_eq_of_le (hmin _ _ hreport) with hlt | rfl
      · have hmember {j : Nat} {b : String} (h : s.Reports d j b) : Bus.Member s.bus d j := by
          obtain ⟨f, hf, hbase⟩ := h
          obtain ⟨o', ho', rfl, -⟩ := reportedBase_eq_some.mp hbase
          exact ⟨f, hf, by rw [Bus.lane, (deviceId_of_observe ho').1, Option.getD_some]⟩
        have hsettled := (hi.listen.delivery.lanes.chain d).settled_before (hmember hreport) (hi.begun k x hx)
          (hmember hm) hlt
        obtain ⟨f, hf, hfinished⟩ := Bus.finished_of_settled hi.listen.delivery hi.listen.calm hsettled
        obtain ⟨i, r', event, hh, hbase, hr', hid⟩ := handled_of_reports hi.listen hm
        obtain ⟨f', hf', hget⟩ := Bus.runAt_eq_some.mp hr'
        obtain rfl := Option.some.inj (hf.symm.trans hf')
        rcases (hfinished r' (List.mem_of_getElem? hget)).2 with hp | hp
        · have hsome := row_of_delivered hi hs hh hbase hr' hid hp
          rw [hrow] at hsome
          cases hsome
        · exact absurd ⟨m, i, event, hh, by rw [hbase]; rfl, r', hr', hp⟩ hlapse
      · obtain ⟨f, hf, hbase⟩ := hm
        obtain ⟨f', hf', hbase'⟩ := hreport
        obtain rfl := Option.some.inj (hf.symm.trans hf')
        exact hbase'.symm.trans hbase

structure OriginInv (devices : Table DeviceEntity) (d : String) (l : List String) (s : State) : Prop where
  handler : HandlerInv s
  seen : Seen s
  kept : (devices.find d).isSome → (s.devices.find d).isSome
  first : s.FirstReport d l.head?
  based : Based s d (registeredUnder devices d l)

theorem registeredUnder_append (devices : Table DeviceEntity) (d : String) (l m : List String) :
    registeredUnder devices d (l ++ m) = (registeredUnder devices d l).or m.head? := by
  rw [registeredUnder, registeredUnder, List.head?_append, Option.or_assoc]

theorem originInv_step {l : List String} (hi : OriginInv devices d l s) (hlogs : a.Logs) (hlapse : ¬ s.Lapsed d)
    (h : step s a = some t) : OriginInv devices d (l ++ (heard d a).toList) t where
  handler := handlerInv_step hi.handler hlogs h
  seen := seen_step hi.seen h
  kept := fun hsome => row_kept h (hi.kept hsome)
  first := firstReport_step hi.handler hi.first h
  based := by
    rw [registeredUnder_append]
    refine (based_step hi.based (fun hrow k x o hx ho hd => ?_) h).or _
    have hboot : devices.find d = none := by
      cases hfind : devices.find d with
      | none => rfl
      | some row =>
          have hsome := hi.kept (by rw [hfind]; rfl)
          rw [hrow] at hsome
          cases hsome
    rw [registeredUnder, hboot, Option.map_none, Option.none_or]
    exact base_of_rowless hi.handler hi.seen hlapse hi.first hrow hx ho hd

theorem originInv_boot : OriginInv devices d [] (.boot devices) where
  handler := handlerInv_boot
  seen := fun _ _ _ hx => by cases hx
  kept := id
  first := fun _ _ ⟨_, he, _⟩ => by cases he
  based :=
    { row := fun row hrow => by
        rw [registeredUnder, show devices.find d = some row from hrow]
        rfl
      calls := fun _ _ _ hx => by cases hx }

theorem originInv_run {as : List Action} (h : run step (.boot devices) as = some s) (hc : ¬ Bus.Crashed s.bus)
    (hlapse : ¬ s.Lapsed d) : OriginInv devices d (as.filterMap (heard d)) s := by
  have hrun : Bus.LaneInv s.bus ∧ (¬ Bus.Crashed s.bus → ¬ s.Lapsed d →
      OriginInv devices d ([] ++ as.filterMap (heard d)) s) := by
    refine log_along (I := fun l s => Bus.LaneInv s.bus ∧ (¬ Bus.Crashed s.bus → ¬ s.Lapsed d →
      OriginInv devices d l s)) ?_ h ⟨handlerInv_boot.listen.delivery.lanes, fun _ _ => originInv_boot⟩
    rintro l s a t ⟨hlanes, hi⟩ h
    refine ⟨lanes_step hlanes h, fun hc hlapse => ?_⟩
    have hlapse' : ¬ s.Lapsed d := fun hl => hlapse (lapsed_step hlanes h hl)
    have hc' : ¬ Bus.Crashed s.bus := fun hcrash => hc (crashed_step hlanes h hcrash)
    exact originInv_step (hi hc' hlapse') (logs_of_not_crashed h hc) hlapse' h
  rw [List.nil_append] at hrun
  exact hrun.2 hc hlapse

theorem delivered_of_processed {i : Nat} {r : Bus.HandlerRun} {event : DomainEvent Payload} (hp : s.Processed d)
    (hh : s.handled n i = some event) (hreport : (reportedBase d event).isSome) (hr : s.bus.runAt n i = some r)
    (hid : r.sub.id = presence.id) : r.phase = .delivered := by
  obtain ⟨e, r', he, hget, -, rfl⟩ := Bus.heardBy_eq_some.mp hh
  obtain ⟨e', he', hget'⟩ := Bus.runAt_eq_some.mp hr
  obtain rfl := Option.some.inj (he.symm.trans he')
  exact hp.delivered e (Table.mem_of_find he) hreport r (List.mem_of_getElem? hget') hid

theorem not_lapsed_of_processed (hp : s.Processed d) : ¬ s.Lapsed d := by
  rintro ⟨n, i, event, hh, hreport, r, hr, hfailed⟩
  obtain ⟨e, r', he, hget, hid, -⟩ := Bus.heardBy_eq_some.mp hh
  obtain rfl := Option.some.inj ((Bus.runAt_eq_some.mpr ⟨e, he, hget⟩).symm.trans hr)
  cases (delivered_of_processed hp hh hreport hr hid).symm.trans hfailed

/-- Once the reports of a device are processed, its row has the base topic that
it was first registered under, whatever the later ones report. -/
theorem registered_of_processed {as : List Action} {base : String} (h : run step (.boot devices) as = some s)
    (hp : s.Processed d) (hbase : registeredUnder devices d (as.filterMap (heard d)) = some base) :
    Registered s d base := by
  have hi := originInv_run h ((Bus.neverRejects_iff s.bus).mp hp.sound) (not_lapsed_of_processed hp)
  refine ⟨hbase ▸ hi.based, ?_⟩
  cases hboot : devices.find d with
  | some row => exact hi.kept (by rw [hboot]; rfl)
  | none =>
      have hfirst := hi.first
      rw [registeredUnder, hboot, Option.map_none, Option.none_or] at hbase
      rw [hbase] at hfirst
      obtain ⟨n, hreport, -⟩ := hfirst
      obtain ⟨i, r, event, hh, hreport, hr, hid⟩ := handled_of_reports hi.handler.listen hreport
      exact row_of_delivered hi.handler hi.seen hh hreport hr hid
        (delivered_of_processed hp hh (by rw [hreport]; rfl) hr hid)

end Origin

end EspClawPlatform.Devices
