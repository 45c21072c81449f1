import EspClawPlatform.Bus.Delivery

namespace EspClawPlatform.Bus

open Run

variable {P : Type}

def NeverRejects (s : State P) : Prop := ∀ d ∈ s.links.rows, d.rejects = false

/-- With no delivery in flight, every event published on the way has been
handed to every subscription that matched it when it was published. -/
def HandsOver (as : List (Action P)) (s : State P) : Prop :=
  s.inFlight = [] → ∀ pre event post u, as = pre ++ .publish event :: post → run step init pre = some u →
    ∀ sub ∈ u.subscriptions, matchesPattern sub.pattern event.eventType = true →
      ∃ d r, s.links.find u.counters.published = some d ∧ d.event = event ∧
        r ∈ d.runs ∧ r.sub = sub ∧ r.handed

theorem neverRejects_iff (s : State P) : NeverRejects s ↔ ¬ Crashed s := by
  constructor
  · rintro h ⟨n, d, hd, hr⟩
    exact absurd hr (by simp [h d (Table.mem_of_find hd)])
  · intro h d hd
    by_contra hr
    exact h ⟨d.id, d, Table.find_of_mem hd, by simpa using hr⟩

theorem not_crashed_run {s : State P} {as : List (Action P)} (h : run step init as = some s)
    (hC : Along step (fun _ => LogsMessage) init as) : ¬ Crashed s := by
  refine invariant_along (P := fun s : State P => ¬ Crashed s) ?_ h hC ?_
  · exact fun s a t hn ha hs hc => hn (crashed_of_step hs ha hc)
  · rintro ⟨n, d, hd, _⟩
    cases hd

theorem along_of_not_crashed {s : State P} {as : List (Action P)} (h : run step init as = some s)
    (hc : ¬ Crashed s) : Along step (fun _ => LogsMessage) init as :=
  along_of_persistent (fun _ _ _ hi hs => laneInv_step hi hs) (fun _ _ _ hi hs => crashed_step hi hs)
    (fun _ _ _ _ hs ha => crashed_of_not_logs hs ha) h .init hc

theorem handsOver_of_not_crashed {s : State P} {as : List (Action P)}
    (h : run step init as = some s) (hc : ¬ Crashed s) : HandsOver as s := by
  rintro hidle pre event post u rfl hu sub hsub hmatch
  have hi := deliveryInv_run h
  have hmem : sub ∈ targets u event := List.mem_filter.mpr ⟨hsub, hmatch⟩
  obtain ⟨u', hu', hpost⟩ := run_append.mp h
  obtain rfl : u = u' := Option.some.inj (hu.symm.trans hu')
  obtain ⟨d, hd, he, hs⟩ :=
    link_of_published (laneInv_run hu) (List.ne_nil_of_mem hmem) hpost
  obtain ⟨r, hr, hrs⟩ := List.mem_map.mp (hs ▸ hmem)
  have hsettled : Settled s u.counters.published := by
    refine ⟨d, hd, fun hp => ?_⟩
    have := hi.lanes.flying _ d hd hp
    rw [hidle] at this
    cases this
  obtain ⟨d', hd', hfin⟩ := finished_of_settled hi hc hsettled
  obtain rfl : d = d' := Option.some.inj (hd.symm.trans hd')
  exact ⟨d, r, hd, he, hr, hrs, handed_of_finished (hfin r hr).1 (hfin r hr).2⟩

/-- Failures stay isolated in exactly the runs in which every value that a
handler fails with has a message the log line can print. -/
theorem failures_isolated_iff {s : State P} {as : List (Action P)} (h : run step init as = some s) :
    NeverRejects s ∧ HandsOver as s ↔ Along step (fun _ => LogsMessage) init as := by
  rw [neverRejects_iff]
  constructor
  · exact fun hn => along_of_not_crashed h hn.1
  · intro hC
    have hn := not_crashed_run h hC
    exact ⟨hn, handsOver_of_not_crashed h hn⟩

def sampleEvent (id : String) : DomainEvent Unit :=
  createEvent none id id 0 { type := "x.y", source := "test", payload := (), deviceId := some "d1" }

def rejectFirst (value : Thrown) : List (Action Unit) :=
  [.subscribe "x.y" { name := "h" }, .publish (sampleEvent "e1"), .publish (sampleEvent "e2"),
   .start 0, .invoke 0 0, .settle 0 0 (.error value), .finish 0, .start 1, .cleanup 0]

instance (r : HandlerRun) : Decidable r.handed :=
  inferInstanceAs (Decidable (r.outcomes ≠ [] ∨ r.phase = .running))

theorem error_isolated : ∃ s, run step init (rejectFirst (.error "boom")) = some s ∧
    NeverRejects s ∧ HandsOver (rejectFirst (.error "boom")) s :=
  ⟨_, rfl, (failures_isolated_iff rfl).mpr (by decide)⟩

theorem undefined_stops_lane : ¬ ∀ (as : List (Action Unit)) (s : State Unit),
    run step init as = some s → NeverRejects s ∧ HandsOver as s := by
  intro h
  obtain ⟨-, hover⟩ := h (rejectFirst .undefined ++ [.cleanup 1]) _ rfl
  obtain ⟨d, r, hd, -, hr, -, hh⟩ := hover rfl
    [.subscribe "x.y" { name := "h" }, .publish (sampleEvent "e1")] (sampleEvent "e2") _ _ rfl rfl
    { id := 0, pattern := "x.y", name := "h", retries := 0, backoffMs := 100, timeoutMs := 10000 }
    (by decide) (by decide)
  obtain rfl := Option.some.inj hd
  have hnone : ∀ r ∈ [({ sub :=
      { id := 0, pattern := "x.y", name := "h", retries := 0, backoffMs := 100,
        timeoutMs := 10000 } } : HandlerRun)],
      ¬ r.handed := by decide
  exact hnone r hr hh

end EspClawPlatform.Bus
