import EspClawPlatform.Bus.InProcessEventBus

namespace EspClawPlatform.Bus

variable {P : Type}

/-- `Promise.all` in `deliver` rejects: one of the handler runs has thrown. -/
def Link.rejects (d : Link P) : Bool := d.runs.any fun r => r.phase = .crashed

/-- The action is not a handler failing with a value whose message cannot be logged. -/
def LogsMessage : Action P → Prop
  | .settle _ _ (.error value) => value.message ≠ none
  | _ => True

instance (a : Action P) : Decidable (LogsMessage a) :=
  match a with
  | .settle _ _ (.error value) => inferInstanceAs (Decidable (value.message ≠ none))
  | .settle _ _ (.ok _) | .publish _ | .subscribe .. | .unsubscribe _ | .start _ | .invoke ..
  | .timeout .. | .wake .. | .finish _ | .cleanup _ => inferInstanceAs (Decidable True)

inductive RunMove : HandlerRun → HandlerRun → Prop
  | invoke {r : HandlerRun} (h : r.phase = .due) : RunMove r { r with phase := .running }
  | succeed {r : HandlerRun} (h : r.phase = .running) :
      RunMove r { r with outcomes := r.outcomes ++ [.succeeded], phase := .delivered }
  | fail {r : HandlerRun} (h : r.phase = .running) (o : Outcome) (ho : o ≠ .succeeded)
      (message : Option String) : RunMove r (r.fail o message)
  | wake {r : HandlerRun} (h : r.phase = .backingOff) : RunMove r { r with phase := .due }

theorem RunMove.sub_eq {r r' : HandlerRun} (h : RunMove r r') : r'.sub = r.sub := by
  cases h <;> rfl

inductive LinkMove (s : State P) : Link P → Link P → Prop
  | begin {d : Link P} (hb : d.started = false) (hs : d.state = .pending)
      (hp : ∀ p, d.previous = some p → s.promise p = some .fulfilled) :
      LinkMove s d { d with started := true }
  | pass {d : Link P} (hb : d.started = false) (hs : d.state = .pending) (p : Nat)
      (hp : d.previous = some p) (hr : s.promise p = some .rejected) :
      LinkMove s d { d with state := .rejected }
  | run {d : Link P} (hb : d.started = true) (i : Nat) {r r' : HandlerRun}
      (hr : d.runs[i]? = some r) (hm : RunMove r r') : LinkMove s d { d with runs := d.runs.set i r' }
  | fulfil {d : Link P} (hb : d.started = true) (hs : d.state = .pending)
      (hr : ∀ r ∈ d.runs, r.phase = .delivered ∨ r.phase = .failed) :
      LinkMove s d { d with state := .fulfilled }
  | reject {d : Link P} (hb : d.started = true) (hs : d.state = .pending) (hr : d.rejects = true) :
      LinkMove s d { d with state := .rejected }

theorem LinkMove.id_eq {s : State P} {d d' : Link P} (h : LinkMove s d d') : d'.id = d.id := by
  cases h <;> rfl

theorem LinkMove.event_eq {s : State P} {d d' : Link P} (h : LinkMove s d d') : d'.event = d.event := by
  cases h <;> rfl

theorem LinkMove.previous_eq {s : State P} {d d' : Link P} (h : LinkMove s d d') :
    d'.previous = d.previous := by
  cases h <;> rfl

theorem LinkMove.subs_eq {s : State P} {d d' : Link P} (h : LinkMove s d d') :
    d'.runs.map (·.sub) = d.runs.map (·.sub) := by
  cases h with
  | begin | pass | fulfil | reject => rfl
  | run hb i hr hm =>
      apply List.ext_getElem?
      intro j
      rw [List.getElem?_map, List.getElem?_map, List.getElem?_set]
      by_cases hij : i = j
      · subst hij
        obtain ⟨hlt, rfl⟩ := List.getElem?_eq_some_iff.mp hr
        simp [hlt, hm.sub_eq]
      · simp [hij]

def targets (s : State P) (event : DomainEvent P) : List Subscription :=
  s.subscriptions.filter fun sub => matchesPattern sub.pattern event.eventType

def chained (s : State P) (event : DomainEvent P) : Link P where
  id := s.counters.published
  event := event
  previous := s.lanes.get (lane event)
  runs := (targets s event).map fun sub => { sub := sub }

inductive Shape (s : State P) (a : Action P) (t : State P) : Prop
  | still (hl : t.links = s.links) (hn : t.lanes = s.lanes) (hi : t.inFlight = s.inFlight)
      (hp : s.counters.published ≤ t.counters.published) (hm : LogsMessage a)
  | publish (event : DomainEvent P) (ha : a = .publish event) (hl : t.links = s.links.save (chained s event))
      (hn : t.lanes = s.lanes.set (lane event) s.counters.published)
      (hi : t.inFlight = s.counters.published :: s.inFlight)
      (hp : t.counters.published = s.counters.published + 1)
  | move {d d' : Link P} (hd : s.links.find d.id = some d) (hm : LinkMove s d d')
      (hl : t.links = s.links.save d') (hn : t.lanes = s.lanes) (hi : t.inFlight = s.inFlight)
      (hp : t.counters.published = s.counters.published)
      (hloud : ¬ LogsMessage a → d'.rejects = true)
      (hquiet : LogsMessage a → d'.rejects = true → d.rejects = true)
  | cleanup {d : Link P} (hd : s.links.find d.id = some d) (hs : d.state ≠ .pending)
      (hl : t.links = s.links) (hi : t.inFlight = s.inFlight.filter (· ≠ d.id))
      (hn : t.lanes = if s.lanes.get (lane d.event) = some d.id then s.lanes.erase
        (lane d.event) else s.lanes)
      (hp : t.counters.published = s.counters.published) (hm : LogsMessage a)

theorem publish_links {s : State P} {event : DomainEvent P} (h : targets s event ≠ []) :
    (s.publish event).links = s.links.save (chained s event) := by
  rw [State.publish, if_neg (by simpa [targets] using h)]
  rfl

theorem publish_shape (s : State P) (event : DomainEvent P) :
    Shape s (.publish event) (s.publish event) := by
  by_cases h : targets s event = []
  · have ht : s.publish event = { s with counters := { s.counters with published := s.counters.published + 1 } } := by
      unfold State.publish
      rw [if_pos]
      simpa [targets] using h
    rw [ht]
    exact .still rfl rfl rfl (Nat.le_succ _) trivial
  · have ht : s.publish event = { s with
        counters := { s.counters with published := s.counters.published + 1 }
        links := s.links.save (chained s event)
        lanes := s.lanes.set (lane event) s.counters.published
        inFlight := s.counters.published :: s.inFlight } := by
      unfold State.publish
      rw [if_neg]
      · rfl
      · simpa [targets] using h
    rw [ht]
    exact .publish event rfl rfl rfl rfl rfl

theorem start_shape {s t : State P} {l : Nat} (h : s.start l = some t) : Shape s (.start l) t := by
  obtain ⟨d, hd, hc⟩ := Option.bind_eq_some_iff.mp h
  obtain rfl := Table.key_of_find hd
  by_cases hb : d.started ∨ d.state ≠ .pending
  · rw [if_pos hb] at hc
    cases hc
  rw [if_neg hb] at hc
  simp only [not_or, Bool.not_eq_true, not_not] at hb
  split at hc
  · rename_i hf
    cases hc
    refine .move hd (.begin hb.1 hb.2 ?_) rfl rfl rfl rfl (fun hn => absurd trivial hn) fun _ hr => hr
    intro p hp
    simpa [hp] using hf
  · rename_i hr
    cases hc
    obtain ⟨p, hp, hr⟩ : ∃ p, d.previous = some p ∧ s.promise p = some .rejected := by
      cases hp : d.previous with
      | none => simp [hp] at hr
      | some p => exact ⟨p, rfl, by simpa [hp] using hr⟩
    exact .move hd (.pass hb.1 hb.2 p hp hr) rfl rfl rfl rfl (fun hn => absurd trivial hn) fun _ hr => hr
  · cases hc

theorem onRun_eq_some {s t : State P} {l i : Nat} {move : HandlerRun → Option HandlerRun}
    (h : s.onRun l i move = some t) : ∃ d r r', s.links.find d.id = some d ∧ d.id = l ∧ d.started = true ∧
      d.runs[i]? = some r ∧ move r = some r' ∧
      t = { s with links := s.links.save { d with runs := d.runs.set i r' },
                   counters := s.counters.tally r'.phase } := by
  obtain ⟨d, hd, hc⟩ := Option.bind_eq_some_iff.mp h
  obtain rfl := Table.key_of_find hd
  by_cases hb : d.started = true
  · rw [if_pos hb] at hc
    obtain ⟨r, hr, hc⟩ := Option.bind_eq_some_iff.mp hc
    obtain ⟨r', hr', hc⟩ := Option.bind_eq_some_iff.mp hc
    exact ⟨d, r, r', hd, rfl, hb, hr, hr', (Option.some.inj hc).symm⟩
  · rw [if_neg hb] at hc
    cases hc

theorem published_tally (c : EventBusStats) (phase : RunPhase) : (c.tally phase).published = c.published := by
  cases phase <;> rfl

theorem rejects_set {d : Link P} {i : Nat} {r r' : HandlerRun} (hr : d.runs[i]? = some r)
    (hc : r'.phase = .crashed → r.phase = .crashed)
    (h : ({ d with runs := d.runs.set i r' } : Link P).rejects = true) : d.rejects = true := by
  obtain ⟨x, hx, hp⟩ := List.any_eq_true.mp h
  rcases List.mem_or_eq_of_mem_set hx with hx | rfl
  · exact List.any_eq_true.mpr ⟨x, hx, hp⟩
  · exact List.any_eq_true.mpr ⟨r, List.mem_of_getElem? hr, by simpa using hc (by simpa using hp)⟩

theorem rejects_of_set {d : Link P} {i : Nat} {r r' : HandlerRun} (hr : d.runs[i]? = some r)
    (hc : r'.phase = .crashed) : ({ d with runs := d.runs.set i r' } : Link P).rejects = true := by
  obtain ⟨hlt, _⟩ := List.getElem?_eq_some_iff.mp hr
  exact List.any_eq_true.mpr ⟨r', List.mem_set hlt r', by simpa using hc⟩

theorem onRun_shape {s t : State P} {l i : Nat} {a : Action P}
    {move : HandlerRun → Option HandlerRun} (hm : ∀ r r', move r = some r' → RunMove r r')
    (hloud : ∀ r r', move r = some r' → ¬ LogsMessage a → r'.phase = .crashed)
    (hquiet : ∀ r r', move r = some r' → LogsMessage a → r'.phase ≠ .crashed)
    (h : s.onRun l i move = some t) : Shape s a t := by
  obtain ⟨d, r, r', hd, rfl, hb, hr, hr', rfl⟩ := onRun_eq_some h
  refine .move hd (.run hb i hr (hm r r' hr')) rfl rfl rfl (published_tally _ _) ?_ ?_
  · exact fun ha => rejects_of_set hr (hloud r r' hr' ha)
  · exact fun ha => rejects_set hr fun hc => absurd hc (hquiet r r' hr' ha)

theorem fail_phase (r : HandlerRun) (o : Outcome) (message : Option String) :
    (r.fail o message).phase = .crashed ↔ message = none := by
  cases message with
  | none => simp [HandlerRun.fail]
  | some m => simp only [HandlerRun.fail]; split <;> simp

theorem invoke_move {r r' : HandlerRun} (h : r.invoke = some r') : RunMove r r' ∧ r'.phase ≠ .crashed := by
  unfold HandlerRun.invoke at h
  split at h
  · rename_i hp
    cases h
    exact ⟨.invoke hp, by simp⟩
  · cases h

theorem wake_move {r r' : HandlerRun} (h : r.wake = some r') : RunMove r r' ∧ r'.phase ≠ .crashed := by
  unfold HandlerRun.wake at h
  split at h
  · rename_i hp
    cases h
    exact ⟨.wake hp, by simp⟩
  · cases h

theorem timeout_move {r r' : HandlerRun} (h : r.timeout = some r') : RunMove r r' ∧ r'.phase ≠ .crashed := by
  unfold HandlerRun.timeout at h
  split at h
  · rename_i hp
    cases h
    refine ⟨.fail hp _ (by simp) _, ?_⟩
    rw [ne_eq, fail_phase]
    simp [Thrown.error, Thrown.message]
  · cases h

theorem settle_move {r r' : HandlerRun} {result : Except Thrown Unit} (h : r.settle result = some r') :
    RunMove r r' ∧ (r'.phase = .crashed ↔ ∃ value, result = .error value ∧ value.message = none) := by
  unfold HandlerRun.settle at h
  split at h
  · rename_i hp
    cases h
    cases result with
    | ok u => exact ⟨.succeed hp, by simp⟩
    | error value =>
        refine ⟨.fail hp _ (by simp) _, ?_⟩
        rw [fail_phase]
        simp
  · cases h

theorem settle_shape {s t : State P} {l i : Nat} {result : Except Thrown Unit}
    (h : s.onRun l i (·.settle result) = some t) : Shape s (.settle l i result) t := by
  refine onRun_shape (fun r r' hr => (settle_move hr).1) ?_ ?_ h
  · intro r r' hr ha
    cases result with
    | ok u => exact absurd trivial ha
    | error value => exact (settle_move hr).2.mpr ⟨value, rfl, not_not.mp ha⟩
  · intro r r' hr ha hc
    obtain ⟨value, rfl, hv⟩ := (settle_move hr).2.mp hc
    exact ha hv

theorem finish_shape {s t : State P} {l : Nat} (h : s.finish l = some t) : Shape s (.finish l) t := by
  obtain ⟨d, hd, hc⟩ := Option.bind_eq_some_iff.mp h
  obtain rfl := Table.key_of_find hd
  by_cases hb : d.started ∧ d.state = .pending
  · rw [if_pos hb] at hc
    split at hc
    · rename_i hr
      cases hc
      exact .move hd (.reject hb.1 hb.2 hr) rfl rfl rfl rfl (fun hn => absurd trivial hn) fun _ hr => hr
    · split at hc
      · rename_i hr
        cases hc
        refine .move hd (.fulfil hb.1 hb.2 ?_) rfl rfl rfl rfl (fun hn => absurd trivial hn) fun _ hr => hr
        intro r hm
        simpa using List.all_eq_true.mp hr r hm
      · cases hc
  · rw [if_neg hb] at hc
    cases hc

theorem cleanup_shape {s t : State P} {l : Nat} (h : s.cleanup l = some t) : Shape s (.cleanup l) t := by
  obtain ⟨d, hd, hc⟩ := Option.bind_eq_some_iff.mp h
  obtain rfl := Table.key_of_find hd
  split at hc
  · rename_i hs
    cases hc
    exact .cleanup hd hs.1 rfl rfl rfl rfl trivial
  · cases hc

theorem step_shape {s t : State P} {a : Action P} (h : step s a = some t) : Shape s a t := by
  cases a with
  | publish event => cases h; exact publish_shape s event
  | subscribe pattern options => cases h; exact .still rfl rfl rfl (Nat.le_refl _) trivial
  | unsubscribe id => cases h; exact .still rfl rfl rfl (Nat.le_refl _) trivial
  | start l => exact start_shape h
  | invoke l i =>
      exact onRun_shape (fun r r' hr => (invoke_move hr).1) (fun _ _ _ ha => absurd trivial ha)
        (fun r r' hr _ => (invoke_move hr).2) h
  | settle l i result => exact settle_shape h
  | timeout l i =>
      obtain ⟨u, hu, rfl⟩ := Option.map_eq_some_iff.mp h
      have hs : Shape s (.timeout l i) u :=
        onRun_shape (fun r r' hr => (timeout_move hr).1) (fun _ _ _ ha => absurd trivial ha)
          (fun r r' hr _ => (timeout_move hr).2) hu
      cases hs with
      | still hl hn hi hp hm => exact .still hl hn hi hp hm
      | publish event ha => cases ha
      | move hd hm hl hn hi hp hloud hquiet => exact .move hd hm hl hn hi hp hloud hquiet
      | cleanup hd hs hl hi hn hp hm => exact .cleanup hd hs hl hi hn hp hm
  | wake l i =>
      exact onRun_shape (fun r r' hr => (wake_move hr).1) (fun _ _ _ ha => absurd trivial ha)
        (fun r r' hr _ => (wake_move hr).2) h
  | finish l => exact finish_shape h
  | cleanup l => exact cleanup_shape h

end EspClawPlatform.Bus
