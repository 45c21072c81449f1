import EspClawPlatform.Lib.Journal
import EspClawPlatform.Audit.Trail

namespace EspClawPlatform.Audit

open Run

def EventLog.history (log : EventLog) : List EventLogRecord :=
  (Page.newestFirst EventLogRecord.seq log.records.rows).reverse

/-- The numbers come from a sequence that gives none of them twice. -/
structure Sequenced (log : EventLog) : Prop where
  unique : (log.records.rows.map EventLogRecord.seq).Nodup
  drawn : Drawn log

variable {log : EventLog} {s t : State} {as : List Action}

theorem sequenced_recorded (h : Sequenced log) (now : Nat) (event : DomainEvent Payload) :
    Sequenced (recordIfAudited log now event) where
  unique := by
    rw [recordIfAudited]
    split
    · rw [EventLog.insertOrIgnore]
      split
      · exact h.unique
      · rename_i hnone
        rw [Table.rows_save_of_none (Option.not_isSome_iff_eq_none.mp hnone), List.map_append, List.nodup_append]
        refine ⟨h.unique, List.nodup_singleton _, ?_⟩
        intro n hn m hm
        obtain ⟨record, hrecord, rfl⟩ := List.mem_map.mp hn
        obtain rfl := List.mem_singleton.mp hm
        have hle := h.drawn _ _ (Table.find_of_mem hrecord)
        exact (Nat.lt_succ_of_le hle).ne
    · exact h.unique
  drawn := drawn_recorded h.drawn now event

theorem sequenced_step {a : Action} (hs : Sequenced s.log) (h : step s a = some t) : Sequenced t.log := by
  cases step_shape h with
  | bus | settle => exact hs
  | refuse => exact ⟨hs.unique, drawn_step hs.drawn h⟩
  | insert => exact sequenced_recorded hs _ _

theorem history_ascending (h : Sequenced log) : log.history.Pairwise fun a b => a.seq < b.seq :=
  List.pairwise_reverse.mpr (Page.newestFirst_descending h.unique)

theorem mem_history {record : EventLogRecord} :
    record ∈ log.history ↔ log.records.find record.eventId = some record := by
  rw [EventLog.history, List.mem_reverse, (Page.newestFirst_perm _).mem_iff]
  exact ⟨Table.find_of_mem, Table.mem_of_find⟩

structure Fresh (log : EventLog) (events : List (DomainEvent Payload)) : Prop where
  distinct : (events.map (·.eventId)).Nodup
  fresh : ∀ e ∈ events, log.records.find e.eventId = none

/-- The events that are kept go through one lane and are to be recorded, and
none of the kind is in the log before. -/
structure OneLane (keep : Payload → Bool) (log : EventLog) (events : List (DomainEvent Payload)) : Prop
    extends Fresh log events where
  lane : ∀ e₁ ∈ events, ∀ e₂ ∈ events, keep e₁.payload = true → keep e₂.payload = true → e₁.deviceId = e₂.deviceId
  audited : ∀ e ∈ events, keep e.payload = true → isAuditedEventType e.eventType = true
  clean : ∀ id record, log.records.find id = some record → keep record.payload = false

section

variable {keep : Payload → Bool} {events : List (DomainEvent Payload)} {e : DomainEvent Payload}
  {record : EventLogRecord}

theorem record_of_event (hf : Fresh log events) (hc : ChronicleInv log events s) (he : e ∈ events)
    (h : s.log.records.find e.eventId = some record) : record = recordOf e record.seq record.recordedAt := by
  rcases hc.sourced _ _ h with hold | ⟨event, hmem, -, hrecord⟩
  · rw [hf.fresh e he] at hold
    cases hold
  · have hid : event.eventId = e.eventId := by
      have hkey : record.eventId = e.eventId := Table.key_of_find h
      rw [← hkey, hrecord]
      rfl
    obtain rfl := List.inj_on_of_nodup_map hf.distinct hmem he hid
    exact hrecord

theorem payload_of_event (hf : Fresh log events) (hc : ChronicleInv log events s) (he : e ∈ events)
    (h : s.log.records.find e.eventId = some record) : record.payload = e.payload := by
  rw [record_of_event hf hc he h]
  rfl

theorem recorded_of_idle {as : List Action} {n : Nat} (h : run step (init log) as = some s)
    (hlogs : Along step (fun _ => Action.Logs) (init log) as) (hidle : s.bus.bus.inFlight = [])
    (hn : (as.filterMap published)[n]? = some e) (ha : isAuditedEventType e.eventType = true) :
    (s.log.records.find e.eventId).isSome = true ∨ s.bus.bus.GivenUp recorder n := by
  have hi := recorderInv_run h
  obtain ⟨d, hd, rfl⟩ := link_of_published h hn
  exact recorded_or_given_up hi hd (Bus.finished_of_idle hi.serves.delivery (calm_run h hlogs) hidle hd) ha

theorem event_of_record (ho : OneLane keep log events) (hc : ChronicleInv log events s)
    (h : s.log.records.find record.eventId = some record) (hk : keep record.payload = true) :
    ∃ e ∈ events, keep e.payload = true ∧ s.log.records.find e.eventId = some record := by
  rcases hc.sourced _ _ h with hold | ⟨event, hmem, -, hrecord⟩
  · rw [ho.clean _ _ hold] at hk
    cases hk
  · have hid : event.eventId = record.eventId := by rw [hrecord]; rfl
    have hpayload : record.payload = event.payload := by rw [hrecord]; rfl
    exact ⟨event, hmem, hpayload ▸ hk, hid ▸ h⟩

theorem history_kept (ho : OneLane keep log events) (hc : ChronicleInv log events s) (hs : Sequenced s.log)
    (hordered : events.Pairwise fun x y => keep x.payload = true → keep y.payload = true →
      ∀ r₂, s.log.records.find y.eventId = some r₂ →
        ∃ r₁, s.log.records.find x.eventId = some r₁ ∧ r₁.seq < r₂.seq) :
    (s.log.history.filter fun record => keep record.payload) =
      (events.filter fun e => keep e.payload).filterMap fun e => s.log.records.find e.eventId := by
  have hascending := (history_ascending hs).filter fun record => keep record.payload
  have hpublished : ((events.filter fun e => keep e.payload).filterMap fun e => s.log.records.find e.eventId).Pairwise
      fun a b => a.seq < b.seq := by
    rw [List.pairwise_filterMap, List.pairwise_filter]
    refine hordered.imp fun h hx hy a ha b hb => ?_
    obtain ⟨r, hr, hlt⟩ := h hx hy b hb
    rwa [Option.some.inj (ha.symm.trans hr)]
  apply Page.eq_of_ascending hascending hpublished
  intro record
  rw [List.mem_filter, mem_history, List.mem_filterMap]
  constructor
  · rintro ⟨hrow, hk⟩
    obtain ⟨e, he, hke, hfind⟩ := event_of_record ho hc hrow hk
    exact ⟨e, List.mem_filter.mpr ⟨he, hke⟩, hfind⟩
  · rintro ⟨e, he, hfind⟩
    obtain ⟨hmem, hke⟩ := List.mem_filter.mp he
    have hid : record.eventId = e.eventId := Table.key_of_find hfind
    exact ⟨hid ▸ hfind, (payload_of_event ho.toFresh hc hmem hfind).symm ▸ hke⟩

end

section

variable {keep : Payload → Bool}

/-- The rows of a kind whose events go through one lane tell of the first events
published of it, in the order of publication, and of all of them once the bus
has delivered everything, if none was given up. -/
theorem history_follows (hlog : Sequenced log) (h : run step (init log) as = some s)
    (hlogs : Along step (fun _ => Action.Logs) (init log) as) (ho : OneLane keep log (as.filterMap published))
    (hkept : ∀ n e, (as.filterMap published)[n]? = some e → keep e.payload = true → ¬ s.bus.bus.GivenUp recorder n) :
    (s.log.history.map (·.payload)).filter keep <+: ((as.filterMap published).map (·.payload)).filter keep ∧
      (s.bus.bus.inFlight = [] →
        (s.log.history.map (·.payload)).filter keep = ((as.filterMap published).map (·.payload)).filter keep) := by
  have hc := chronicleInv_run h
  have hs : Sequenced s.log :=
    invariant (P := fun s => Sequenced s.log) (fun _ _ _ hi hs => sequenced_step hi hs) h hlog
  have hordered : (as.filterMap published).Pairwise fun x y => keep x.payload = true → keep y.payload = true →
      ∀ r₂, s.log.records.find y.eventId = some r₂ →
        ∃ r₁, s.log.records.find x.eventId = some r₁ ∧ r₁.seq < r₂.seq := by
    rw [List.pairwise_iff_getElem]
    intro i j hi hj hlt hx hy r₂ hr₂
    have hfirst := List.getElem?_eq_getElem hi
    have hsecond := List.getElem?_eq_getElem hj
    have hmem₁ := List.getElem_mem hi
    have hmem₂ := List.getElem_mem hj
    exact (recorded_before hlog.drawn h hlogs ho.distinct hfirst hsecond hlt (ho.fresh _ hmem₂)
      (ho.lane _ hmem₁ _ hmem₂ hx hy) (ho.audited _ hmem₁ hx) hr₂).resolve_right (hkept i _ hfirst hx)
  let told := ((as.filterMap published).filter fun e => keep e.payload).filter fun e =>
    (s.log.records.find e.eventId).isSome
  have htold : (s.log.history.map (·.payload)).filter keep = told.map (·.payload) := by
    have hrows : (s.log.history.filter fun record => keep record.payload).map (·.payload) = told.map (·.payload) := by
      rw [history_kept ho hc hs hordered]
      apply Journal.map_filterMap
      intro e he record hr
      exact payload_of_event ho.toFresh hc (List.mem_filter.mp he).1 hr
    rw [List.filter_map]
    exact hrows
  rw [htold, List.filter_map]
  refine ⟨(Journal.filter_isPrefix ?_).map _, fun hidle => congrArg _ ?_⟩
  · rw [List.pairwise_filter]
    refine hordered.imp fun h hx hy hr => ?_
    obtain ⟨r₂, hr₂⟩ := Option.isSome_iff_exists.mp hr
    obtain ⟨r₁, hr₁, -⟩ := h hx hy r₂ hr₂
    rw [hr₁]
    rfl
  · refine List.filter_eq_self.mpr fun e he => ?_
    obtain ⟨hmem, hk⟩ := List.mem_filter.mp he
    obtain ⟨n, hn⟩ := List.mem_iff_getElem?.mp hmem
    exact (recorded_of_idle h hlogs hidle hn (ho.audited _ hmem hk)).resolve_right (hkept n _ hn hk)

end

end EspClawPlatform.Audit
