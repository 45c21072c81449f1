import EspClawPlatform.Audit.Completeness

namespace EspClawPlatform.Audit

open Run

variable {s t : State} {log : EventLog}

theorem extends_step {a : Action} (h : step s a = some t) : Extends s.log t.log := by
  cases step_shape h with
  | bus | settle => exact ⟨Nat.le_refl _, fun _ _ h => h⟩
  | insert => exact extends_recorded _ _ _
  | refuse => exact ⟨Nat.le_add_right _ _, fun _ _ h => h⟩

theorem extends_run {as : List Action} (h : run step s as = some t) : Extends s.log t.log := by
  apply invariant (P := fun t => Extends s.log t.log) ?_ h ⟨Nat.le_refl _, fun _ _ h => h⟩
  intro u a v hu hs
  have hstep := extends_step hs
  exact ⟨Nat.le_trans hu.1 hstep.1, fun id record hr => hstep.2 id record (hu.2 id record hr)⟩

def Drawn (log : EventLog) : Prop := ∀ id record, log.records.find id = some record → record.seq ≤ log.drawn

theorem drawn_recorded (hd : Drawn log) (now : Nat) (event : DomainEvent Payload) :
    Drawn (recordIfAudited log now event) := by
  have hgrows := extends_recorded log now event
  intro id record hr
  cases hold : log.records.find id with
  | some record' =>
      rw [hgrows.2 id record' hold] at hr
      obtain rfl := Option.some.inj hr
      exact Nat.le_trans (hd id record' hold) hgrows.1
  | none =>
      obtain ⟨ha, rfl⟩ := find_recorded_new hr hold
      rw [recordIfAudited_eq ha]
      exact Nat.le_refl _

theorem drawn_step {a : Action} (hd : Drawn s.log) (h : step s a = some t) : Drawn t.log := by
  cases step_shape h with
  | bus | settle => exact hd
  | refuse => exact fun id record hr => Nat.le_trans (hd id record hr) (Nat.le_add_right _ _)
  | insert => exact drawn_recorded hd _ _

theorem recorded_by_insert {a : Action} {id : String} {record : EventLogRecord} (h : step s a = some t)
    (hnone : s.log.records.find id = none) (hr : t.log.records.find id = some record) :
    s.log.drawn < record.seq ∧ ∃ x, s.executions.find (x.link, x.target, x.attempt) = some x ∧ x.event.eventId = id := by
  cases step_shape h with
  | bus | settle | refuse =>
      have hsame : s.log.records.find id = some record := hr
      rw [hnone] at hsame
      cases hsame
  | @insert x now failure hx hf =>
      have hkey : record.eventId = id := Table.key_of_find hr
      obtain ⟨-, rfl⟩ := find_recorded_new hr hnone
      exact ⟨Nat.lt_succ_self _, x, hx, hkey⟩

theorem getElem?_published {pre post : List Action} {event : DomainEvent Payload} :
    ((pre ++ .bus (.bus (.publish event)) :: post).filterMap published)[(pre.filterMap published).length]? =
      some event := by
  have hevent : published (.bus (.bus (.publish event))) = some event := rfl
  rw [List.filterMap_append, List.filterMap_cons_some hevent, List.getElem?_append_right (Nat.le_refl _), Nat.sub_self]
  rfl

theorem place_unique {events : List (DomainEvent Payload)} (hids : (events.map (·.eventId)).Nodup) {m n : Nat}
    {x y : DomainEvent Payload} (hx : events[m]? = some x) (hy : events[n]? = some y) (he : x.eventId = y.eventId) :
    m = n := by
  obtain ⟨hm, -⟩ := List.getElem?_eq_some_iff.mp hx
  have hsame : (events.map (·.eventId))[m]? = (events.map (·.eventId))[n]? := by
    rw [List.getElem?_map, List.getElem?_map, hx, hy, Option.map_some, Option.map_some, he]
  exact (List.getElem?_inj (by rwa [List.length_map]) hids).mp hsame

theorem split_published {as : List Action} {m : Nat} {event : DomainEvent Payload}
    (h : (as.filterMap published)[m]? = some event) :
    ∃ pre post, as = pre ++ .bus (.bus (.publish event)) :: post ∧ (pre.filterMap published).length = m := by
  induction as generalizing m with
  | nil => cases h
  | cons a as ih =>
      have hlater {k : Nat} (hk : (as.filterMap published)[k]? = some event)
          (hm : ((([a] : List Action).filterMap published).length + k) = m) :
          ∃ pre post, a :: as = pre ++ .bus (.bus (.publish event)) :: post ∧ (pre.filterMap published).length = m := by
        obtain ⟨pre, post, rfl, hpre⟩ := ih hk
        refine ⟨a :: pre, post, rfl, ?_⟩
        rw [← List.singleton_append, List.filterMap_append, List.length_append, hpre, hm]
      cases hp : published a with
      | none =>
          rw [List.filterMap_cons_none hp] at h
          exact hlater h (by rw [List.filterMap_cons_none hp]; exact Nat.zero_add m)
      | some first =>
          rw [List.filterMap_cons_some hp] at h
          cases m with
          | zero =>
              obtain rfl := Option.some.inj h
              refine ⟨[], as, ?_, rfl⟩
              cases a with
              | bus action =>
                  cases action with
                  | bus action => cases action <;> cases hp; rfl
                  | ends | fires => cases hp
              | insert | refuse | settle => cases hp
          | succ m =>
              exact hlater h (by rw [List.filterMap_cons_some hp]; exact Nat.add_comm 1 m)

theorem link_of_published {as : List Action} {m : Nat} {event : DomainEvent Payload}
    (h : run step (init log) as = some s) (hm : (as.filterMap published)[m]? = some event) :
    ∃ d, s.bus.bus.links.find m = some d ∧ d.event = event := by
  obtain ⟨pre, post, rfl, hlength⟩ := split_published hm
  obtain ⟨u, hu, hrun⟩ := run_append.mp h
  have hlink := link_of_publish (recorderInv_run hu) hrun
  rwa [(chronicleInv_run hu).numbered.count, hlength] at hlink

theorem recorded_before {as : List Action} {m n : Nat} {e₁ e₂ : DomainEvent Payload} {record₂ : EventLogRecord}
    (hlog : Drawn log) (h : run step (init log) as = some s) (hlogs : Along step (fun _ => Action.Logs) (init log) as)
    (hids : ((as.filterMap published).map (·.eventId)).Nodup) (hm : (as.filterMap published)[m]? = some e₁)
    (hn : (as.filterMap published)[n]? = some e₂) (hlt : m < n) (hnew : log.records.find e₂.eventId = none)
    (hdevice : e₁.deviceId = e₂.deviceId) (ha : isAuditedEventType e₁.eventType = true)
    (h₂ : s.log.records.find e₂.eventId = some record₂) :
    (∃ record₁, s.log.records.find e₁.eventId = some record₁ ∧ record₁.seq < record₂.seq) ∨
      s.bus.bus.GivenUp recorder m := by
  obtain ⟨pre, a, post, v, w, hsplit, hv, hstep, hrest, hbefore, hafter⟩ :=
    exists_step_of_change (P := fun s => (s.log.records.find e₂.eventId).isSome = true) h
      (by rw [show (init log).log = log from rfl, hnew]; exact Bool.false_ne_true) (by rw [h₂]; rfl)
  -- the insert that brings the second event on record is a call for that very event
  obtain ⟨record, hrecord⟩ := Option.isSome_iff_exists.mp hafter
  have hnone : v.log.records.find e₂.eventId = none := by simpa using hbefore
  obtain ⟨hseq, x, hx, hid⟩ := recorded_by_insert hstep hnone hrecord
  have hi := (chronicleInv_run hv).recorder
  have hplace := event_of_execution (chronicleInv_run hv) hx
  have hevents : as.filterMap published = pre.filterMap published ++ (a :: post).filterMap published := by
    rw [hsplit, List.filterMap_append]
  obtain ⟨hlink, -⟩ := List.getElem?_eq_some_iff.mp hplace
  have hx' : (as.filterMap published)[x.link]? = some x.event := by
    rw [hevents, List.getElem?_append_left hlink, hplace]
  obtain rfl := place_unique hids hx' hn hid
  have hevent : x.event = e₂ := Option.some.inj (hx'.symm.trans hn)
  -- so the first event has been published by then
  rw [hevents, List.getElem?_append_left (Nat.lt_trans hlt hlink)] at hm
  obtain ⟨d, hd, rfl⟩ := link_of_published hv hm
  -- and settled, being ahead of the second one in its lane
  have hlane : Bus.Member v.bus.bus (Bus.lane d.event) x.link := by
    obtain ⟨d₂, r, hd₂, -, -, he⟩ := Bus.heardBy_eq_some.mp (hi.known _ x hx)
    refine ⟨d₂, hd₂, ?_⟩
    rw [he, hevent, Bus.lane, Bus.lane, hdevice]
  have hsettled := (hi.serves.delivery.lanes.chain (Bus.lane d.event)).settled_before hlane (hi.begun _ x hx)
    ⟨d, hd, rfl⟩ hlt
  have hcalm : ¬ Bus.Crashed v.bus.bus := by
    rw [hsplit] at hlogs
    exact calm_run hv ((along_append hv).mp hlogs).1
  obtain ⟨d', hd', hfinished⟩ := Bus.finished_of_settled hi.serves.delivery hcalm hsettled
  obtain rfl := Option.some.inj (hd.symm.trans hd')
  have hkept := extends_run hrest
  rcases recorded_or_given_up hi hd (fun r hr => (hfinished r hr).2) ha with hon | hgiven
  · obtain ⟨record₁, h₁⟩ := Option.isSome_iff_exists.mp hon
    have hdrawn : Drawn v.log := invariant (P := fun s => Drawn s.log) (fun _ _ _ hd hs => drawn_step hd hs) hv hlog
    have hgrows := extends_step hstep
    refine .inl ⟨record₁, hkept.2 _ _ (hgrows.2 _ _ h₁), ?_⟩
    have hsame := hkept.2 _ _ hrecord
    rw [h₂] at hsame
    obtain rfl := Option.some.inj hsame
    exact Nat.lt_of_le_of_lt (hdrawn _ _ h₁) hseq
  · have hrun : run step v (a :: post) = some s := run_cons.mpr ⟨w, hstep, hrest⟩
    exact .inr (timed_kept_run (P := fun b => b.bus.GivenUp recorder m) (fun _ _ _ hw hs hg => Bus.timed_givenUp hw hs hg)
      hi hrun hgiven)

/-- The event log of a device has no gaps: when an event of it is on record,
each audited event of it that was published before is on record under a smaller
number, unless all four attempts at that one failed. -/
theorem records_follow_publication {as pre mid post : List Action} {e₁ e₂ : DomainEvent Payload} {u : State}
    {record₂ : EventLogRecord} (hlog : Drawn log) (h : run step (init log) as = some s)
    (hlogs : Along step (fun _ => Action.Logs) (init log) as)
    (has : as = (pre ++ .bus (.bus (.publish e₁)) :: mid) ++ .bus (.bus (.publish e₂)) :: post)
    (hu : run step (init log) pre = some u) (hids : ((as.filterMap published).map (·.eventId)).Nodup)
    (hnew : log.records.find e₂.eventId = none) (hdevice : e₁.deviceId = e₂.deviceId)
    (ha : isAuditedEventType e₁.eventType = true) (h₂ : s.log.records.find e₂.eventId = some record₂) :
    (∃ record₁, s.log.records.find e₁.eventId = some record₁ ∧ record₁.seq < record₂.seq) ∨
      s.bus.bus.GivenUp recorder u.bus.bus.counters.published := by
  have hfirst : (as.filterMap published)[(pre.filterMap published).length]? = some e₁ := by
    rw [has, List.append_assoc, List.cons_append]
    exact getElem?_published
  have hsecond : (as.filterMap published)[((pre ++ .bus (.bus (.publish e₁)) :: mid).filterMap published).length]? =
      some e₂ := has ▸ getElem?_published
  have hlt : (pre.filterMap published).length < ((pre ++ .bus (.bus (.publish e₁)) :: mid).filterMap published).length := by
    have he₁ : published (.bus (.bus (.publish e₁))) = some e₁ := rfl
    rw [List.filterMap_append, List.filterMap_cons_some he₁, List.length_append, List.length_cons]
    omega
  rw [(chronicleInv_run hu).numbered.count]
  exact recorded_before hlog h hlogs hids hfirst hsecond hlt hnew hdevice ha h₂

def online : DomainEvent Payload :=
  createEvent none "e2" "c2" 3 { announce "module:devices" (.deviceOnline false) with deviceId := some "ecda3b4ff7d4" }

def recording (link now : Nat) : List Action :=
  [.bus (.bus (.start link)), .bus (.bus (.invoke link 0)), .insert link 0 0 now none, .settle link 0 0,
   .bus (.bus (.finish link)), .bus (.bus (.cleanup link))]

def twoEvents : List Action :=
  ([] ++ .bus (.bus (.publish registration)) :: []) ++
    .bus (.bus (.publish online)) :: (recording 0 5 ++ recording 1 6)

theorem registration_is_recorded_first : ∃ s, run step (init {}) twoEvents = some s ∧
    ((∃ record, s.log.records.find "e1" = some record ∧ record.seq < 2) ∨ s.bus.bus.GivenUp recorder 0) := by
  have hrun : ∃ s, run step (init {}) twoEvents = some s ∧ s.log.records.find "e2" = some (recordOf online 2 6) :=
    ⟨_, rfl, rfl⟩
  obtain ⟨s, hs, h₂⟩ := hrun
  have hlogs : Along step (fun _ => Action.Logs) (init {}) twoEvents := by decide +kernel
  have hstart : run step (init {}) [] = some (init {}) := rfl
  have hdrawn : Drawn {} := fun id record hr => by cases hr
  exact ⟨s, hs, records_follow_publication hdrawn hs hlogs rfl hstart (by decide) rfl rfl (by decide) h₂⟩

end EspClawPlatform.Audit
