import EspClawPlatform.Bus.Failures

namespace EspClawPlatform.Bus

open Run

variable {P : Type}

theorem begun_of_invoke {s t : State P} {l i : Nat} (h : step s (.invoke l i) = some t) : Begun s l := by
  obtain ⟨d, r, r', hd, rfl, hb, -⟩ := onRun_eq_some h
  exact ⟨d, hd, .inl hb⟩

def Advances (s t : State P) : Prop :=
  s.counters.published ≤ t.counters.published ∧
    ∀ n, n < s.counters.published → s.links.find n = none → t.links.find n = none

theorem advances_step {s t : State P} {a : Action P} (h : step s a = some t) : Advances s t := by
  cases step_shape h with
  | still hl hn hi hp => exact ⟨hp, fun n _ hf => hl ▸ hf⟩
  | cleanup hd hs hl hi hn hp => exact ⟨hp.ge, fun n _ hf => hl ▸ hf⟩
  | publish event ha hl hn hi hp =>
      refine ⟨hp ▸ Nat.le_succ _, ?_⟩
      intro n hlt hf
      rw [find_publish hl, if_neg hlt.ne, hf]
  | move hd hm hl hn hi hp =>
      refine ⟨hp.ge, ?_⟩
      intro n _ hf
      rw [find_move hm hl, if_neg, hf]
      rintro rfl
      cases hd.symm.trans hf

theorem advances_run {s t : State P} {as : List (Action P)} (h : run step s as = some t) : Advances s t := by
  refine relates_along (C := fun _ _ => True) (P := fun _ => True) (R := Advances) ?_ ?_ ?_ h
    (along_true s as) trivial
  · exact fun s => ⟨Nat.le_refl _, fun _ _ hf => hf⟩
  · intro s t u hst htu
    refine ⟨Nat.le_trans hst.1 htu.1, ?_⟩
    intro n hlt hf
    exact htu.2 n (Nat.lt_of_lt_of_le hlt hst.1) (hst.2 n hlt hf)
  · exact fun s a t _ _ hs => ⟨trivial, advances_step hs⟩

theorem published_publish (s : State P) (event : DomainEvent P) :
    (s.publish event).counters.published = s.counters.published + 1 := by
  rw [State.publish]
  split <;> rfl

theorem lt_of_published {u v : State P} {event : DomainEvent P} {mid : List (Action P)}
    (h : run step u (.publish event :: mid) = some v) : u.counters.published < v.counters.published := by
  obtain ⟨w, hw, hrun⟩ := run_cons.mp h
  cases hw
  have := (advances_run hrun).1
  rw [published_publish] at this
  exact this

theorem targets_of_link {u s : State P} {event : DomainEvent P} {post : List (Action P)}
    (hi : LaneInv u) (h : run step u (.publish event :: post) = some s) {d : Link P}
    (hd : s.links.find u.counters.published = some d) : targets u event ≠ [] := by
  intro hnil
  obtain ⟨w, hw, hrun⟩ := run_cons.mp h
  cases hw
  have hnone : (u.publish event).links.find u.counters.published = none := by
    rw [State.publish, if_pos (by simpa [targets] using hnil)]
    exact find_published hi
  have := (advances_run hrun).2 _ (by rw [published_publish]; exact Nat.lt_succ_self _) hnone
  cases this.symm.trans hd

/-- Events of one device (or of none) reach the handlers strictly one after
another in publish order, however lanes are cleaned up in between: when a
handler is called for the later event, every target of the earlier one has had
an attempt succeed, or all of its attempts fail. -/
theorem device_events_in_order {pre mid post : List (Action P)} {e₁ e₂ : DomainEvent P}
    {u₁ u₂ s t : State P} {i : Nat} (h₁ : run step init pre = some u₁)
    (h₂ : run step init (pre ++ .publish e₁ :: mid) = some u₂)
    (h : run step init ((pre ++ .publish e₁ :: mid) ++ .publish e₂ :: post) = some s)
    (hlogs : Along step (fun _ => LogsMessage) init ((pre ++ .publish e₁ :: mid) ++ .publish e₂ :: post))
    (hdevice : e₁.deviceId = e₂.deviceId) (hinvoke : step s (.invoke u₂.counters.published i) = some t) :
    ∀ sub ∈ u₁.subscriptions, matchesPattern sub.pattern e₁.eventType = true →
      ∃ d r, s.links.find u₁.counters.published = some d ∧ d.event = e₁ ∧
        r ∈ d.runs ∧ r.sub = sub ∧ r.Concluded := by
  intro sub hsub hmatch
  have hi := deliveryInv_run h
  have hmem : sub ∈ targets u₁ e₁ := List.mem_filter.mpr ⟨hsub, hmatch⟩
  obtain ⟨v₁, hv₁, hmid⟩ := run_append.mp h₂
  obtain rfl : u₁ = v₁ := Option.some.inj (h₁.symm.trans hv₁)
  obtain ⟨v₂, hv₂, hpost⟩ := run_append.mp h
  obtain rfl : u₂ = v₂ := Option.some.inj (h₂.symm.trans hv₂)
  have hrest : run step u₁ (.publish e₁ :: mid ++ .publish e₂ :: post) = some s :=
    run_append.mpr ⟨u₂, hmid, hpost⟩
  obtain ⟨d₁, hd₁, he₁, hs₁⟩ :=
    link_of_published (laneInv_run h₁) (List.ne_nil_of_mem hmem) hrest
  have hbegun := begun_of_invoke hinvoke
  have hlane : Member s (lane e₁) u₂.counters.published := by
    obtain ⟨d₂, hd₂, _⟩ := hbegun
    refine ⟨d₂, hd₂, ?_⟩
    have hsome := targets_of_link (laneInv_run h₂) hpost hd₂
    obtain ⟨d, hd, he, -⟩ := link_of_published (laneInv_run h₂) hsome hpost
    obtain rfl : d = d₂ := Option.some.inj (hd.symm.trans hd₂)
    rw [he, lane, lane, hdevice]
  have hsettled := (hi.lanes.chain (lane e₁)).settled_before hlane hbegun ⟨d₁, hd₁, by rw [he₁]⟩
    (lt_of_published hmid)
  obtain ⟨d, hd, hfin⟩ := finished_of_settled hi (not_crashed_run h hlogs) hsettled
  obtain rfl : d₁ = d := Option.some.inj (hd₁.symm.trans hd)
  obtain ⟨r, hr, hrs⟩ := List.mem_map.mp (hs₁ ▸ hmem)
  exact ⟨d₁, r, hd₁, he₁, hr, hrs, concluded_of_finished (hfin r hr).1 (hfin r hr).2⟩

/-- The handler of the first event fails, then succeeds on its one retry; only
then is the second event, published while the first one was in delivery,
handed over. -/
theorem retried_event_in_order :
    ∃ u₁ s r,
      run step (init : State Unit) [.subscribe "x.*" { name := "h", retries := some 1 }] = some u₁ ∧
      run step init [.subscribe "x.*" { name := "h", retries := some 1 }, .publish (sampleEvent "e1"),
        .start 0, .invoke 0 0, .publish (sampleEvent "e2"), .timeout 0 0, .wake 0 0, .invoke 0 0,
        .settle 0 0 (.ok ()), .finish 0, .start 1] = some s ∧
      (∃ d, s.links.find 0 = some d ∧ r ∈ d.runs) ∧ r.Concluded := by
  obtain ⟨d, r, hd, -, hr, -, hc⟩ := @device_events_in_order Unit
    [.subscribe "x.*" { name := "h", retries := some 1 }] [.start 0, .invoke 0 0]
    [.timeout 0 0, .wake 0 0, .invoke 0 0, .settle 0 0 (.ok ()), .finish 0, .start 1]
    (sampleEvent "e1") (sampleEvent "e2") _ _ _ _ 0 rfl rfl rfl (by decide) rfl rfl
    { id := 0, pattern := "x.*", name := "h", retries := 1, backoffMs := 100, timeoutMs := 10000 }
    (by decide) (by decide)
  exact ⟨_, _, r, rfl, rfl, ⟨d, hd, hr⟩, hc⟩

end EspClawPlatform.Bus
