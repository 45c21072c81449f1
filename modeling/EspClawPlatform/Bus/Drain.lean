import EspClawPlatform.Bus.Failures

namespace EspClawPlatform.Bus

open Run

variable {P : Type}

/-- A call of `drain`: it waits for the promises that it found in flight, or its
loop has ended. -/
inductive DrainCall
  | awaiting (promises : List Nat)
  | returned
  deriving DecidableEq

structure Drains (P : Type) where
  bus : State P := {}
  calls : List DrainCall := []

inductive DrainAction (P : Type)
  | bus (action : Action P)
  | drain
  | resume (call : Nat)

def State.drainLoop (s : State P) : DrainCall :=
  if s.inFlight.isEmpty then .returned else .awaiting s.inFlight

def Drains.resume (s : Drains P) (call : Nat) : Option (Drains P) := do
  match ← s.calls[call]? with
  | .returned => none
  | .awaiting promises =>
      if promises.all fun p => s.bus.promise p ≠ some .pending then
        some { s with calls := s.calls.set call s.bus.drainLoop }
      else none

def Drains.step (s : Drains P) : DrainAction P → Option (Drains P)
  | .bus action => (Bus.step s.bus action).map fun bus => { s with bus := bus }
  | .drain => some { s with calls := s.calls ++ [s.bus.drainLoop] }
  | .resume call => s.resume call

section Lanes

variable {s t : State P}

def LanesFly (s : State P) : Prop := ∀ k p, s.lanes.get k = some p → p ∈ s.inFlight

theorem lanesFly_step {a : Action P} (hi : LaneInv s) (hf : LanesFly s) (h : step s a = some t) : LanesFly t := by
  intro k p hk
  cases step_shape h with
  | still hl hn hi' | move hd hm hl hn hi' =>
      rw [hi']
      exact hf k p (hn ▸ hk)
  | publish event ha hl hn hi' =>
      rw [hi']
      rw [hn, Table.get_set] at hk
      split at hk
      · obtain rfl := Option.some.inj hk
        exact List.mem_cons_self
      · exact List.mem_cons_of_mem _ (hf k p hk)
  | @cleanup d hd hs hl hi' hn =>
      have hbefore : s.lanes.get k = some p ∧ (k = lane d.event → p ≠ d.id) := by
        rw [hn] at hk
        split at hk
        · rw [Table.get_erase] at hk
          split at hk
          · cases hk
          · rename_i hne
            exact ⟨hk, fun he => absurd he hne⟩
        · rename_i hlast
          refine ⟨hk, fun he hp => hlast ?_⟩
          rw [← he, ← hp]
          exact hk
      obtain ⟨hold, hother⟩ := hbefore
      obtain ⟨e, he, hek⟩ := (hi.last k p hold).1
      rw [hi', List.mem_filter]
      refine ⟨hf k p hold, decide_eq_true fun hp => ?_⟩
      -- the link that is cleaned up is of the lane itself
      subst hp
      obtain rfl := Option.some.inj (he.symm.trans hd)
      exact hother hek.symm rfl

theorem lanesFly_run {as : List (Action P)} (h : run step init as = some s) : LanesFly s := by
  refine (invariant (P := fun s : State P => LaneInv s ∧ LanesFly s) ?_ h ⟨.init, fun k p hk => (by cases hk)⟩).2
  exact fun s a t hi hs => ⟨laneInv_step hi.1 hs, lanesFly_step hi.1 hi.2 hs⟩

theorem lanes_of_idle (hf : LanesFly s) (h : s.inFlight = []) : s.lanes.rows = [] := by
  refine List.eq_nil_iff_forall_not_mem.mpr fun row hrow => ?_
  have hfly := hf row.1 row.2 (Table.get_eq_some.mpr hrow)
  rw [h] at hfly
  exact absurd hfly List.not_mem_nil

/-- The event has been delivered to every target, or to some of them in vain. -/
def Link.Finished (d : Link P) : Prop := ∀ r ∈ d.runs, r.phase = .delivered ∨ r.phase = .failed

theorem inFlight_or_finished (hi : DeliveryInv s) (hc : ¬ Crashed s) {n : Nat} {d : Link P}
    (hd : s.links.find n = some d) : n ∈ s.inFlight ∨ d.Finished := by
  by_cases hp : d.state = .pending
  · exact .inl (hi.lanes.flying n d hd hp)
  · obtain ⟨d', hd', hfinished⟩ := finished_of_settled hi hc ⟨d, hd, hp⟩
    obtain rfl := Option.some.inj (hd.symm.trans hd')
    exact .inr fun r hr => (hfinished r hr).2

theorem finished_of_idle (hi : DeliveryInv s) (hc : ¬ Crashed s) (hidle : s.inFlight = []) {n : Nat} {d : Link P}
    (hd : s.links.find n = some d) : d.Finished := by
  refine (inFlight_or_finished hi hc hd).resolve_left fun hin => ?_
  rw [hidle] at hin
  exact absurd hin List.not_mem_nil

end Lanes

namespace Drains

variable {s t : Drains P}

def seen (_ : Drains P) : DrainAction P → List (Action P)
  | .bus action => [action]
  | .drain | .resume _ => []

def Logs (_ : Drains P) : DrainAction P → Prop
  | .bus action => LogsMessage action
  | .drain | .resume _ => True

instance (s : Drains P) (a : DrainAction P) : Decidable (Logs s a) :=
  match a with
  | .bus action => inferInstanceAs (Decidable (LogsMessage action))
  | .drain | .resume _ => inferInstanceAs (Decidable True)

theorem resume_eq_some {call : Nat} (h : s.resume call = some t) :
    t = { s with calls := s.calls.set call s.bus.drainLoop } := by
  obtain ⟨c, -, h⟩ := Option.bind_eq_some_iff.mp h
  cases c with
  | returned => cases h
  | awaiting promises =>
      simp only at h
      split at h
      · exact (Option.some.inj h).symm
      · cases h

theorem bus_step {a : DrainAction P} (h : s.step a = some t) : run Bus.step s.bus (s.seen a) = some t.bus := by
  cases a with
  | bus action =>
      obtain ⟨bus, hbus, rfl⟩ := Option.map_eq_some_iff.mp h
      exact run_singleton.mpr hbus
  | drain =>
      obtain rfl := Option.some.inj h
      rfl
  | resume call =>
      obtain rfl := resume_eq_some h
      rfl

theorem bus_run {as : List (DrainAction P)} (h : run step s as = some t) :
    run Bus.step s.bus (trace step seen s as) = some t.bus :=
  run_trace (P := fun _ => True) Drains.bus (fun _ _ _ _ hs => ⟨trivial, bus_step hs⟩) h trivial

theorem logs_run {as : List (DrainAction P)} (h : run step s as = some t) :
    Along step Logs s as ↔ Along Bus.step (fun _ => LogsMessage) s.bus (trace step seen s as) := by
  refine along_trace (P := fun _ => True) Drains.bus (fun _ _ _ _ hs => ⟨trivial, bus_step hs⟩) ?_ h trivial
  intro s a t _ hs
  cases a with
  | bus action =>
      obtain ⟨bus, hbus, -⟩ := Option.map_eq_some_iff.mp hs
      rw [seen, along_cons hbus]
      exact (and_iff_left trivial).symm
  | drain | resume => exact iff_of_true trivial trivial

theorem idle_of_returned {a : DrainAction P} {call : Nat} (h : s.step a = some t)
    (hs : s.calls[call]? ≠ some .returned) (ht : t.calls[call]? = some .returned) :
    s.bus.inFlight = [] ∧ t.bus = s.bus := by
  have hloop : s.bus.drainLoop = .returned → s.bus.inFlight = [] := by
    rw [State.drainLoop]
    split
    · rename_i hempty
      exact fun _ => List.isEmpty_iff.mp hempty
    · exact fun hloop => by cases hloop
  cases a with
  | bus action =>
      obtain ⟨bus, -, rfl⟩ := Option.map_eq_some_iff.mp h
      exact absurd ht hs
  | drain =>
      obtain rfl := Option.some.inj h
      rw [List.getElem?_append] at ht
      split at ht
      · exact absurd ht hs
      · have hmem := List.mem_of_getElem? ht
        exact ⟨hloop (List.mem_singleton.mp hmem).symm, rfl⟩
  | resume i =>
      obtain rfl := resume_eq_some h
      rw [List.getElem?_set] at ht
      split at ht
      · split at ht
        · exact ⟨hloop (Option.some.inj ht), rfl⟩
        · cases ht
      · exact absurd ht hs

theorem link_of_publish {event : DomainEvent P} {post : List (DrainAction P)} (hi : LaneInv s.bus)
    (ht : targets s.bus event ≠ []) (h : run step s (.bus (.publish event) :: post) = some t) :
    ∃ d, t.bus.links.find s.bus.counters.published = some d ∧ d.event = event ∧
      d.runs.map (·.sub) = targets s.bus event := by
  obtain ⟨v, hv, -⟩ := run_cons.mp h
  have hbus := bus_run h
  rw [trace_cons hv, seen, List.singleton_append] at hbus
  exact link_of_published hi ht hbus

end Drains

/-- In every state each lane holds its last link and the promise it holds is in
flight, as is every link that is not finished; and when the loop of a `drain` ends,
nothing is left in either map and every event has been delivered. -/
theorem drain_leaves_nothing {as : List (DrainAction P)} {s : Drains P} (h : run Drains.step {} as = some s)
    (hlogs : Along Drains.step Drains.Logs {} as) :
    (∀ k p, s.bus.lanes.get k = some p →
      p ∈ s.bus.inFlight ∧ Member s.bus k p ∧ ∀ q, Member s.bus k q → q ≤ p) ∧
    (∀ n d, s.bus.links.find n = some d → n ∈ s.bus.inFlight ∨ d.Finished) ∧
    ∀ (a : DrainAction P) (t : Drains P) (call : Nat), s.step a = some t →
      s.calls[call]? ≠ some .returned → t.calls[call]? = some .returned →
      t.bus.inFlight = [] ∧ t.bus.lanes.rows = [] ∧
      ∀ pre event post u, as = pre ++ .bus (.publish event) :: post → run Drains.step {} pre = some u →
        targets u.bus event ≠ [] →
        ∃ d, t.bus.links.find u.bus.counters.published = some d ∧ d.event = event ∧
          d.runs.map (·.sub) = targets u.bus event ∧ d.Finished := by
  have hbus : run step init _ = some s.bus := Drains.bus_run h
  have hi := deliveryInv_run hbus
  have hc := not_crashed_run hbus ((Drains.logs_run h).mp hlogs)
  have hfly := lanesFly_run hbus
  refine ⟨fun k p hk => ⟨hfly k p hk, hi.lanes.last k p hk⟩, fun n d hd => inFlight_or_finished hi hc hd,
    fun a t call ha hs ht => ?_⟩
  obtain ⟨hidle, hsame⟩ := Drains.idle_of_returned ha hs ht
  rw [hsame]
  refine ⟨hidle, lanes_of_idle hfly hidle, ?_⟩
  rintro pre event post u rfl hu htargets
  obtain ⟨u', hu', hrest⟩ := run_append.mp h
  obtain rfl := Option.some.inj (hu.symm.trans hu')
  have hbefore : run step init _ = some u.bus := Drains.bus_run hu
  obtain ⟨d, hd, hevent, hsubs⟩ := Drains.link_of_publish (laneInv_run hbefore) htargets hrest
  exact ⟨d, hd, hevent, hsubs, finished_of_idle hi hc hidle hd⟩

/-- A handler publishes on its own lane while the bus is drained; the loop goes
round once more for it. -/
def followUp : List (DrainAction Unit) :=
  [.bus (.subscribe "x.y" { name := "h" }), .bus (.publish (sampleEvent "e1")), .drain, .bus (.start 0),
   .bus (.invoke 0 0), .bus (.publish (sampleEvent "e2")), .bus (.settle 0 0 (.ok ())), .bus (.finish 0),
   .bus (.cleanup 0), .resume 0, .bus (.start 1), .bus (.invoke 1 0), .bus (.timeout 1 0), .bus (.finish 1),
   .bus (.cleanup 1)]

theorem follow_up_is_drained : ∃ s t d, run Drains.step {} followUp = some s ∧ s.step (.resume 0) = some t ∧
    t.bus.lanes.rows = [] ∧ t.bus.links.find 1 = some d ∧ d.Finished := by
  obtain ⟨-, -, hdrained⟩ := @drain_leaves_nothing Unit followUp _ rfl (by decide)
  obtain ⟨-, hlanes, hevents⟩ := hdrained (.resume 0) _ 0 rfl (by decide) rfl
  obtain ⟨d, hd, -, -, hfinished⟩ := hevents (followUp.take 5) (sampleEvent "e2") (followUp.drop 6) _ rfl rfl
    (by decide)
  exact ⟨_, _, d, rfl, rfl, hlanes, hd, hfinished⟩

end EspClawPlatform.Bus
