import EspClawPlatform.Bus.Balance

namespace EspClawPlatform.Bus

open Run

variable {P : Type} {s t : State P} {a : Action P}

def publication : Action P → Option (DomainEvent P)
  | .publish event => some event
  | _ => none

structure Numbered (events : List (DomainEvent P)) (s : State P) : Prop where
  count : s.counters.published = events.length
  event : ∀ n d, s.links.find n = some d → events[n]? = some d.event

theorem numbered_first (pattern : String) (options : SubscribeOptions) :
    Numbered [] ((init : State P).subscribe pattern options) := ⟨rfl, fun _ _ hd => by cases hd⟩

theorem deliveryInv_first (pattern : String) (options : SubscribeOptions) :
    DeliveryInv ((init : State P).subscribe pattern options) :=
  deliveryInv_run (show run step init [.subscribe pattern options] = some _ from rfl)

theorem published_step (h : step s a = some t) :
    t.counters.published = s.counters.published + (publication a).toList.length := by
  have honRun {l i : Nat} {move : HandlerRun → Option HandlerRun} {u : State P} (hu : s.onRun l i move = some u) :
      u.counters.published = s.counters.published := by
    obtain ⟨d, r, r', -, -, -, -, -, rfl⟩ := onRun_eq_some hu
    exact published_tally _ _
  cases a with
  | publish event => cases h; exact published_publish s event
  | subscribe | unsubscribe => cases h; rfl
  | invoke | settle | wake => exact honRun h
  | timeout =>
      obtain ⟨u, hu, rfl⟩ := Option.map_eq_some_iff.mp h
      have hcount := honRun hu
      exact hcount
  | start l =>
      obtain ⟨d, -, hc⟩ := Option.bind_eq_some_iff.mp h
      split at hc
      · cases hc
      · split at hc <;> cases hc <;> rfl
  | finish l =>
      obtain ⟨d, -, hc⟩ := Option.bind_eq_some_iff.mp h
      split at hc
      · split at hc
        · cases hc; rfl
        · split at hc <;> cases hc
          rfl
      · cases hc
  | cleanup l =>
      obtain ⟨d, -, hc⟩ := Option.bind_eq_some_iff.mp h
      split at hc <;> cases hc
      rfl

theorem numbered_step {events : List (DomainEvent P)} (hn : Numbered events s) (h : step s a = some t) :
    Numbered (events ++ (publication a).toList) t where
  count := by rw [published_step h, hn.count, List.length_append]
  event := by
    have hlater {n : Nat} {event : DomainEvent P} (he : events[n]? = some event) :
        (events ++ (publication a).toList)[n]? = some event := by
      obtain ⟨hlt, -⟩ := List.getElem?_eq_some_iff.mp he
      rw [List.getElem?_append_left hlt, he]
    intro n e he
    cases step_shape h with
    | still hl | cleanup _ _ hl => exact hlater (hn.event n e (hl ▸ he))
    | publish event ha hl =>
        rw [find_publish hl] at he
        split at he
        · rename_i hnew
          cases he
          subst ha hnew
          rw [hn.count, List.getElem?_append_right (Nat.le_refl _), Nat.sub_self]
          rfl
        · exact hlater (hn.event n e he)
    | move hd hm hl =>
        rw [find_move hm hl] at he
        split at he
        · rename_i hid
          cases he
          rw [hm.event_eq, hid]
          exact hlater (hn.event _ _ hd)
        · exact hlater (hn.event n e he)

/-- A subscription that stays, and the handler runs of it: each published event
that it is for has one, and no other subscription goes by its identity. -/
structure Listens (sub : Subscription) (s : State P) : Prop where
  subscribed : sub ∈ s.subscriptions
  counted : ∀ other ∈ s.subscriptions, other.id < s.subscribed
  distinct : (s.subscriptions.map (·.id)).Nodup
  heard : ∀ n d, s.links.find n = some d → matchesPattern sub.pattern d.event.eventType = true →
    ∃ r ∈ d.runs, r.sub = sub
  own : ∀ n d, s.links.find n = some d → ∀ r ∈ d.runs, r.sub.id = sub.id → r.sub = sub
  once : ∀ n d, s.links.find n = some d → (d.runs.map (·.sub.id)).Nodup

variable {sub : Subscription}

theorem listens_first (pattern : String) (options : SubscribeOptions) :
    Listens
      { id := 0, pattern := pattern, name := options.name, retries := options.retries.getD 0
        backoffMs := options.backoffMs.getD DEFAULT_BACKOFF_MS
        timeoutMs := options.timeoutMs.getD DEFAULT_TIMEOUT_MS }
      ((init : State P).subscribe pattern options) where
  subscribed := List.mem_singleton.mpr rfl
  counted := by
    intro other hother
    cases List.mem_singleton.mp hother
    exact Nat.one_pos
  distinct := List.nodup_singleton _
  heard := fun _ _ hd => by cases hd
  own := fun _ _ hd => by cases hd
  once := fun _ _ hd => by cases hd

theorem Listens.only (hs : Listens sub s) {other : Subscription} (ho : other ∈ s.subscriptions)
    (hid : other.id = sub.id) : other = sub :=
  List.inj_on_of_nodup_map hs.distinct ho hs.subscribed hid

theorem Listens.targets (hs : Listens sub s) {event : DomainEvent P}
    (h : matchesPattern sub.pattern event.eventType = true) : sub ∈ targets s event :=
  List.mem_filter.mpr ⟨hs.subscribed, h⟩

theorem listens_step (hs : Listens sub s) (h : step s a = some t) (hkeep : a ≠ .unsubscribe sub.id) :
    Listens sub t := by
  have hlinks : ∀ n d, t.links.find n = some d →
      (matchesPattern sub.pattern d.event.eventType = true → ∃ r ∈ d.runs, r.sub = sub) ∧
      (∀ r ∈ d.runs, r.sub.id = sub.id → r.sub = sub) ∧ (d.runs.map (·.sub.id)).Nodup := by
    intro n e he
    have hold {d : Link P} (hd : s.links.find n = some d) := And.intro (hs.heard n d hd)
      (And.intro (hs.own n d hd) (hs.once n d hd))
    cases step_shape h with
    | still hl | cleanup _ _ hl => exact hold (hl ▸ he)
    | publish event ha hl =>
        rw [find_publish hl] at he
        split at he
        · cases he
          refine ⟨fun hm => ⟨_, List.mem_map.mpr ⟨sub, hs.targets hm, rfl⟩, rfl⟩, ?_, ?_⟩
          · intro r hr hid
            obtain ⟨other, hother, rfl⟩ := List.mem_map.mp hr
            exact hs.only (List.mem_filter.mp hother).1 hid
          · rw [chained, List.map_map]
            exact hs.distinct.sublist (List.Sublist.map _ List.filter_sublist)
        · exact hold he
    | @move d d' hd hm hl =>
        rw [find_move hm hl] at he
        split at he
        · cases he
          have hsubs := hm.subs_eq
          refine ⟨fun hmatch => ?_, fun r hr hid => ?_, ?_⟩
          · obtain ⟨r, hr, hsub⟩ := hs.heard _ d hd (hm.event_eq ▸ hmatch)
            obtain ⟨r', hr', hsub'⟩ := List.mem_map.mp (hsubs.symm ▸ List.mem_map_of_mem hr)
            exact ⟨r', hr', hsub'.trans hsub⟩
          · obtain ⟨r', hr', hsub⟩ := List.mem_map.mp (hsubs ▸ List.mem_map_of_mem hr)
            rw [← hsub] at hid ⊢
            exact hs.own _ d hd r' hr' hid
          · have hids := congrArg (List.map Subscription.id) hsubs
            rw [List.map_map, List.map_map] at hids
            exact hids ▸ hs.once _ d hd
        · exact hold he
  have hsubs : sub ∈ t.subscriptions ∧ (∀ other ∈ t.subscriptions, other.id < t.subscribed) ∧
      (t.subscriptions.map (·.id)).Nodup := by
    cases subscription_shape h with
    | same heq hn =>
        rw [heq, hn]
        exact ⟨hs.subscribed, hs.counted, hs.distinct⟩
    | subscribe pattern options =>
        refine ⟨List.mem_append_left _ hs.subscribed, ?_, ?_⟩
        · intro other hother
          rcases List.mem_append.mp hother with hother | hother
          · exact Nat.lt_succ_of_lt (hs.counted other hother)
          · cases List.mem_singleton.mp hother
            exact Nat.lt_succ_self _
        · rw [State.subscribe, List.map_append, List.nodup_append]
          refine ⟨hs.distinct, List.nodup_singleton _, ?_⟩
          intro x hx y hy
          obtain ⟨other, hother, rfl⟩ := List.mem_map.mp hx
          cases List.mem_singleton.mp hy
          exact (hs.counted other hother).ne
    | unsubscribe id =>
        refine ⟨(List.mem_eraseP_of_neg ?_).mpr hs.subscribed, ?_, ?_⟩
        · intro hid
          exact hkeep (congrArg Action.unsubscribe (of_decide_eq_true hid).symm)
        · exact fun other hother => hs.counted other (List.mem_of_mem_eraseP hother)
        · exact hs.distinct.sublist (List.Sublist.map _ List.eraseP_sublist)
  exact
    { subscribed := hsubs.1
      counted := hsubs.2.1
      distinct := hsubs.2.2
      heard := fun n d hd => (hlinks n d hd).1
      own := fun n d hd => (hlinks n d hd).2.1
      once := fun n d hd => (hlinks n d hd).2.2 }

theorem matches_all (type : String) : matchesPattern "**" type = true := by
  have hsplit : "**".toList.splitOn '.' = ["**".toList] := by decide
  rw [matchesPattern, hsplit]
  cases hs : type.toList.splitOn '.' with
  | nil => exact absurd hs (List.splitOn_ne_nil _ _)
  | cons => rfl

def Linked (sub : Subscription) (events : List (DomainEvent P)) (s : State P) : Prop :=
  ∀ n event, events[n]? = some event → matchesPattern sub.pattern event.eventType = true →
    ∃ d, s.links.find n = some d

theorem linked_step {events : List (DomainEvent P)} (hs : Listens sub s) (hi : LaneInv s) (hn : Numbered events s)
    (h : step s a = some t) (hlinked : Linked sub events s) : Linked sub (events ++ (publication a).toList) t := by
  intro n event he hm
  rcases Nat.lt_or_ge n events.length with hold | hnew
  · rw [List.getElem?_append_left hold] at he
    obtain ⟨d, hd⟩ := hlinked n event he hm
    obtain ⟨d', hd', -⟩ := keeps_step hi h n d hd
    exact ⟨d', hd'⟩
  · rw [List.getElem?_append_right hnew] at he
    cases a with
    | publish published =>
        obtain ⟨hlt, hevent⟩ := List.getElem?_eq_some_iff.mp he
        simp only [publication, Option.toList_some, List.length_singleton, List.getElem_singleton] at hlt hevent
        subst hevent
        cases h
        have hmem : sub ∈ Bus.targets s published := hs.targets hm
        refine ⟨chained s published, ?_⟩
        rw [find_publish (publish_links (List.ne_nil_of_mem hmem)), if_pos]
        have hcount := hn.count
        omega
    | _ => cases he

def State.heardBy (s : State P) (sub : Subscription) (link target : Nat) : Option (DomainEvent P) := do
  let d ← s.links.find link
  let r ← d.runs[target]?
  if r.sub.id = sub.id then some d.event else none

theorem heardBy_eq_some {n i : Nat} {event : DomainEvent P} : s.heardBy sub n i = some event ↔
    ∃ d r, s.links.find n = some d ∧ d.runs[i]? = some r ∧ r.sub.id = sub.id ∧ d.event = event := by
  constructor
  · intro h
    obtain ⟨d, hd, hbind⟩ := Option.bind_eq_some_iff.mp h
    obtain ⟨r, hr, hif⟩ := Option.bind_eq_some_iff.mp hbind
    split at hif <;> cases hif
    rename_i hid
    exact ⟨d, r, hd, hr, hid, rfl⟩
  · rintro ⟨d, r, hd, hr, hid, rfl⟩
    rw [State.heardBy, hd]
    simp only [Option.bind_eq_bind, Option.bind_some, hr, if_pos hid]

theorem heardBy_of_runs {n i : Nat} {d : Link P} (hd : s.links.find n = some d) :
    s.heardBy sub n i = (d.runs.map (·.sub))[i]?.bind fun other => if other.id = sub.id then some d.event else none := by
  simp only [State.heardBy, hd, List.getElem?_map, Option.bind_eq_bind, Option.bind_some, Option.bind_map,
    Function.comp_def]

theorem heardBy_same {n i : Nat} {d : Link P} (hi : LaneInv s) (h : step s a = some t)
    (hd : s.links.find n = some d) : t.heardBy sub n i = s.heardBy sub n i := by
  obtain ⟨d', hd', he, hsubs⟩ := keeps_step hi h n d hd
  rw [heardBy_of_runs hd, heardBy_of_runs hd', he, hsubs]

theorem heardBy_kept {n i : Nat} {event : DomainEvent P} (hi : LaneInv s) (h : step s a = some t)
    (hh : s.heardBy sub n i = some event) : t.heardBy sub n i = some event := by
  obtain ⟨d, r, hd, -⟩ := heardBy_eq_some.mp hh
  rw [heardBy_same hi h hd, hh]

theorem heardBy_of_runAt {n i : Nat} {r : HandlerRun} (hr : s.runAt n i = some r) (hsub : r.sub = sub) :
    ∃ d, s.links.find n = some d ∧ s.heardBy sub n i = some d.event := by
  obtain ⟨d, hd, hri⟩ := runAt_eq_some.mp hr
  exact ⟨d, hd, heardBy_eq_some.mpr ⟨d, r, hd, hri, congrArg Subscription.id hsub, rfl⟩⟩

theorem Listens.sub_of_runAt (hs : Listens sub s) {n i : Nat} {r : HandlerRun} (hr : s.runAt n i = some r)
    (hid : r.sub.id = sub.id) : r.sub = sub := by
  obtain ⟨d, hd, hri⟩ := runAt_eq_some.mp hr
  exact hs.own n d hd r (List.mem_of_getElem? hri) hid

theorem Listens.sub_of_heardBy (hs : Listens sub s) {n i : Nat} {r : HandlerRun} {event : DomainEvent P}
    (hh : s.heardBy sub n i = some event) (hr : s.runAt n i = some r) : r.sub = sub := by
  obtain ⟨d, r', hd, hr', hid, -⟩ := heardBy_eq_some.mp hh
  obtain rfl := Option.some.inj ((runAt_eq_some.mpr ⟨d, hd, hr'⟩).symm.trans hr)
  exact hs.sub_of_runAt hr hid

theorem Listens.exists_run (hs : Listens sub s) {n : Nat} {d : Link P} (hd : s.links.find n = some d)
    (hm : matchesPattern sub.pattern d.event.eventType = true) :
    ∃ i, ∃ r ∈ d.runs, r.sub = sub ∧ s.runAt n i = some r ∧ s.heardBy sub n i = some d.event := by
  obtain ⟨r, hr, hsub⟩ := hs.heard n d hd hm
  obtain ⟨i, hlt, hget⟩ := List.mem_iff_getElem.mp hr
  have hri : d.runs[i]? = some r := by rw [List.getElem?_eq_getElem hlt, hget]
  exact ⟨i, r, hr, hsub, runAt_eq_some.mpr ⟨d, hd, hri⟩,
    heardBy_eq_some.mpr ⟨d, r, hd, hri, congrArg Subscription.id hsub, rfl⟩⟩

theorem Listens.target_eq (hs : Listens sub s) {n i j : Nat} {event event' : DomainEvent P}
    (hi : s.heardBy sub n i = some event) (hj : s.heardBy sub n j = some event') : i = j := by
  obtain ⟨d, r, hd, hr, hid, -⟩ := heardBy_eq_some.mp hi
  obtain ⟨d', r', hd', hr', hid', -⟩ := heardBy_eq_some.mp hj
  obtain rfl := Option.some.inj (hd.symm.trans hd')
  obtain ⟨hlt, -⟩ := List.getElem?_eq_some_iff.mp hr
  have hsame : (d.runs.map (·.sub.id))[i]? = (d.runs.map (·.sub.id))[j]? := by
    rw [List.getElem?_map, List.getElem?_map, hr, hr', Option.map_some, Option.map_some, hid, hid']
  exact (List.getElem?_inj (by rwa [List.length_map]) (hs.once n d hd)).mp hsame

section Turns

variable {n i : Nat} {r r' : HandlerRun}

theorem sub_turn (h : Turn n i a r r') : r'.sub = r.sub := by
  cases h with
  | invoke h => exact (invoke_move h).1.sub_eq
  | settle h => exact (settle_move h).1.sub_eq
  | timeout h => exact (timeout_move h).1.sub_eq
  | wake h => exact (wake_move h).1.sub_eq

theorem phase_invoke (h : r.invoke = some r') : r.phase = .due ∧ r'.phase = .running := by
  rw [HandlerRun.invoke] at h
  split at h <;> cases h
  exact ⟨‹_›, rfl⟩

theorem sound_runAt (hi : DeliveryInv s) (hr : s.runAt n i = some r) : Sound r := by
  obtain ⟨d, hd, hri⟩ := runAt_eq_some.mp hr
  exact (hi.sound n d hd).runs r (List.mem_of_getElem? hri)

theorem tried_once (hi : DeliveryInv s) (hr : s.runAt n i = some r) (hretries : r.sub.retries = 0) :
    r.phase ≠ .backingOff := by
  intro hp
  have hsound := sound_runAt hi hr
  simp only [Sound, hp] at hsound
  omega

theorem failed_at_once (hs : Sound r) (hretries : r.sub.retries = 0) (hp : r.phase = .running) (o : Outcome)
    (message : String) : (r.fail o (some message)).phase = .failed := by
  simp only [Sound, hp, hretries] at hs
  refine if_pos ?_
  rw [hretries]
  exact Nat.le_zero.mp hs.2

theorem phase_timeout (hs : Sound r) (hretries : r.sub.retries = 0) (h : r.timeout = some r') :
    r.phase = .running ∧ r'.phase = .failed := by
  rw [HandlerRun.timeout] at h
  split at h <;> cases h
  exact ⟨‹_›, failed_at_once hs hretries ‹_› _ _⟩

theorem phase_settle (failure : Option String) (hs : Sound r) (hretries : r.sub.retries = 0)
    (h : r.settle (failure.elim (.ok ()) fun message => .error (Thrown.error message)) = some r') :
    r.phase = .running ∧ r'.phase = if failure.isSome then .failed else .delivered := by
  unfold HandlerRun.settle at h
  split at h
  · rename_i hp
    cases failure with
    | none => cases h; exact ⟨hp, rfl⟩
    | some message => cases h; exact ⟨hp, failed_at_once hs hretries hp _ _⟩
  · cases h

end Turns

section Timed

variable {u v : Timed P} {b : TimedAction P}

def Timed.Rewrites (u v : Timed P) (link target : Nat) (attempts : List Attempt) : Prop :=
  ∀ n i, v.attemptsAt n i = if n = link ∧ i = target then attempts else u.attemptsAt n i

inductive AttemptsShape (u : Timed P) : TimedAction P → Timed P → Prop
  | same {v : Timed P} (action : Action P) (hinvoke : ∀ n i, action ≠ .invoke n i)
      (h : ∀ n i, v.attemptsAt n i = u.attemptsAt n i) : AttemptsShape u (.bus action) v
  | invoke {n i : Nat} {v : Timed P} (h : u.Rewrites v n i (u.attemptsAt n i ++ [.fresh])) :
      AttemptsShape u (.bus (.invoke n i)) v
  | ends {n i k : Nat} {a : Attempt} {v : Timed P} (result : Except Thrown Unit)
      (hk : (u.attemptsAt n i)[k]? = some a) (hended : a.ended = false)
      (h : u.Rewrites v n i ((u.attemptsAt n i).set k { a with promise := a.settle (settlement result), ended := true })) :
      AttemptsShape u (.ends n i k result) v
  | fires {n i k : Nat} {a : Attempt} {v : Timed P} (hk : (u.attemptsAt n i)[k]? = some a)
      (ha : a = .fresh)
      (h : u.Rewrites v n i ((u.attemptsAt n i).set k { a with promise := .rejected, fired := true })) :
      AttemptsShape u (.fires n i k) v

theorem attempts_shape (hw : Watched u) (h : u.step b = some v) : AttemptsShape u b v := by
  cases timed_shape h with
  | bus hbus hinvoke => exact .same _ hinvoke fun _ _ => rfl
  | invoke hbus => exact .invoke fun n i => attemptsAt_set _ _ n i
  | ends result hk hended ha hbus =>
      refine .ends result hk hended ?_
      rw [Attempt.settle, if_pos ha]
      exact fun n i => attemptsAt_set _ _ n i
  | late result hk hended ha =>
      refine .ends result hk hended ?_
      rw [Attempt.settle, if_neg ha]
      exact fun n i => attemptsAt_set _ _ n i
  | fires hk hfired ha hbus =>
      obtain ⟨r, -, hat⟩ := exists_run hw hk
      exact .fires hk (fresh_of_pending hat hk ha) fun n i => attemptsAt_set _ _ n i
  | void hk hended hfired ha =>
      obtain ⟨r, -, hat⟩ := exists_run hw hk
      rw [(fired_of_settled hat hk ha hended).1] at hfired
      cases hfired

theorem mem_seen {a : Action P} (ha : a ∈ u.seen b) : b = .bus a ∨
    (∃ n i k result, b = .ends n i k result ∧ a = .settle n i result) ∨
      ∃ n i k, b = .fires n i k ∧ a = .timeout n i := by
  cases b with
  | bus action => exact .inl (congrArg TimedAction.bus (List.mem_singleton.mp ha).symm)
  | ends n i k result =>
      rw [Timed.seen] at ha
      split at ha
      · exact .inr (.inl ⟨n, i, k, result, rfl, List.mem_singleton.mp ha⟩)
      · cases ha
  | fires n i k =>
      rw [Timed.seen] at ha
      split at ha
      · exact .inr (.inr ⟨n, i, k, rfl, List.mem_singleton.mp ha⟩)
      · cases ha

/-- What every step of the bus keeps, every step of the timed bus keeps. -/
theorem timed_keeps {Q : State P → Prop} (hkeep : ∀ s a t, LaneInv s → Q s → step s a = some t → Q t) (hw : Watched u)
    (h : u.step b = some v) (hu : Q u.bus) : Q v.bus := by
  have hkept : LaneInv v.bus ∧ Q v.bus := by
    apply invariant (P := fun s => LaneInv s ∧ Q s) ?_ (watched_step hw h).2 ⟨hw.lanes, hu⟩
    exact fun s a t hs hstep => ⟨laneInv_step hs.1 hstep, hkeep s a t hs.1 hs.2 hstep⟩
  exact hkept.2

structure Serves (sub : Subscription) (u : Timed P) : Prop where
  watched : Watched u
  delivery : DeliveryInv u.bus
  listens : Listens sub u.bus

theorem serves_first (pattern : String) (options : SubscribeOptions) :
    Serves
      { id := 0, pattern := pattern, name := options.name, retries := options.retries.getD 0
        backoffMs := options.backoffMs.getD DEFAULT_BACKOFF_MS
        timeoutMs := options.timeoutMs.getD DEFAULT_TIMEOUT_MS }
      ({ bus := (init : State P).subscribe pattern options } : Timed P) where
  watched := (watched_step (a := .bus (.subscribe pattern options)) watched_init rfl).1
  delivery := deliveryInv_first pattern options
  listens := listens_first pattern options

theorem serves_step (hs : Serves sub u) (h : u.step b = some v) (hkeep : b ≠ .bus (.unsubscribe sub.id)) :
    Serves sub v := by
  obtain ⟨hw, hseen⟩ := watched_step hs.watched h
  have hquiet : ∀ a ∈ u.seen b, a ≠ .unsubscribe sub.id := by
    rintro a ha rfl
    rcases mem_seen ha with hb | ⟨_, _, _, _, -, ha⟩ | ⟨_, _, _, -, ha⟩
    · exact hkeep hb
    · cases ha
    · cases ha
  exact
    { watched := hw
      delivery := timed_keeps (fun _ _ _ _ hd hs => deliveryInv_step hd hs) hs.watched h hs.delivery
      listens := invariant_along (fun _ _ _ hl hne h => listens_step hl h hne) hseen
        (along_of_mem (fun a ha _ => hquiet a ha) u.bus) hs.listens }

theorem timed_heardBy {n i : Nat} {d : Link P} (hw : Watched u) (h : u.step b = some v)
    (hd : u.bus.links.find n = some d) : v.bus.heardBy sub n i = u.bus.heardBy sub n i := by
  have hkept : (∃ d, v.bus.links.find n = some d) ∧ v.bus.heardBy sub n i = u.bus.heardBy sub n i := by
    apply timed_keeps (Q := fun s => (∃ d, s.links.find n = some d) ∧ s.heardBy sub n i = u.bus.heardBy sub n i) ?_ hw h
      ⟨⟨d, hd⟩, rfl⟩
    rintro s a t hi ⟨⟨d, hd⟩, hsame⟩ hstep
    obtain ⟨d', hd', -⟩ := keeps_step hi hstep n d hd
    exact ⟨⟨d', hd'⟩, (heardBy_same hi hstep hd).trans hsame⟩
  exact hkept.2

theorem timed_heardBy_kept {n i : Nat} {event : DomainEvent P} (hw : Watched u) (h : u.step b = some v)
    (hh : u.bus.heardBy sub n i = some event) : v.bus.heardBy sub n i = some event := by
  obtain ⟨d, r, hd, -⟩ := heardBy_eq_some.mp hh
  rw [timed_heardBy hw h hd, hh]

theorem timed_begun {n : Nat} (hw : Watched u) (h : u.step b = some v) (hb : Begun u.bus n) : Begun v.bus n :=
  timed_keeps (fun _ _ _ hi hb hs => begun_step hi hs hb) hw h hb

theorem heardBy_attempted {n i k : Nat} {a : Attempt} (hw : Watched u) (h : u.step b = some v)
    (hk : (v.attemptsAt n i)[k]? = some a) : v.bus.heardBy sub n i = u.bus.heardBy sub n i := by
  have hlink {k : Nat} {a : Attempt} (hk : (u.attemptsAt n i)[k]? = some a) : ∃ d, u.bus.links.find n = some d := by
    obtain ⟨r, hr, -⟩ := exists_run hw hk
    obtain ⟨d, hd, -⟩ := runAt_eq_some.mp hr
    exact ⟨d, hd⟩
  have hfind : ∃ d, u.bus.links.find n = some d := by
    cases attempts_shape hw h with
    | same action hinvoke hsame => exact hlink (hsame n i ▸ hk)
    | @invoke l j _ hset =>
        rw [hset] at hk
        split at hk
        · rename_i he
          obtain ⟨rfl, rfl⟩ := he
          obtain ⟨bus, hbus, -⟩ := Option.map_eq_some_iff.mp h
          obtain ⟨d, r, r', hd, rfl, -⟩ := onRun_eq_some hbus
          exact ⟨d, hd⟩
        · exact hlink hk
    | ends result hk' _ hset | fires hk' _ hset =>
        rw [hset] at hk
        split at hk
        · rename_i he
          obtain ⟨rfl, rfl⟩ := he
          exact hlink hk'
        · exact hlink hk
  obtain ⟨d, hd⟩ := hfind
  exact timed_heardBy hw h hd

theorem timed_link {n : Nat} {event : DomainEvent P} (hw : Watched u) (h : u.step b = some v)
    (hd : ∃ d, u.bus.links.find n = some d ∧ d.event = event) :
    ∃ d, v.bus.links.find n = some d ∧ d.event = event := by
  apply timed_keeps (Q := fun s => ∃ d, s.links.find n = some d ∧ d.event = event) ?_ hw h hd
  rintro s a t hi ⟨d, hd, he⟩ hstep
  obtain ⟨d', hd', he', -⟩ := keeps_step hi hstep n d hd
  exact ⟨d', hd', he'.trans he⟩

theorem timed_calm (hw : Watched u) (h : u.step b = some v) (hlogs : b.LogsMessage) (hc : ¬ Crashed u.bus) :
    ¬ Crashed v.bus := by
  have hseen : ∀ a ∈ u.seen b, LogsMessage a := by
    intro a ha
    rcases mem_seen ha with rfl | ⟨n, i, k, result, rfl, rfl⟩ | ⟨n, i, k, rfl, rfl⟩
    · exact hlogs
    · exact hlogs
    · trivial
  apply invariant_along (P := fun s => ¬ Crashed s) ?_ (watched_step hw h).2
    (along_of_mem (fun a ha _ => hseen a ha) u.bus) hc
  exact fun s a t hcalm hl hs hcrash => hcalm (crashed_of_step hs hl hcrash)

def timedPublication : TimedAction P → Option (DomainEvent P)
  | .bus action => publication action
  | _ => none

theorem numbered_timed {events : List (DomainEvent P)} (hw : Watched u) (h : u.step b = some v)
    (hn : Numbered events u.bus) : Numbered (events ++ (timedPublication b).toList) v.bus := by
  have hseen := (watched_step hw h).2
  cases hp : timedPublication b with
  | some event =>
      cases b with
      | bus action =>
          rw [← hp]
          exact numbered_step hn (run_singleton.mp hseen)
      | _ => cases hp
  | none =>
      have hquiet : ∀ a ∈ u.seen b, publication a = none := by
        intro a ha
        rcases mem_seen ha with rfl | ⟨_, _, _, _, -, rfl⟩ | ⟨_, _, _, -, rfl⟩
        · exact hp
        · rfl
        · rfl
      rw [Option.toList_none, List.append_nil]
      refine invariant_along (fun s a t hn hp hs => ?_) hseen (along_of_mem (fun a ha _ => hquiet a ha) u.bus) hn
      have hnext := numbered_step hn hs
      rwa [hp, Option.toList_none, List.append_nil] at hnext

theorem exists_fulfilled {n i : Nat} {r : HandlerRun} (hw : Watched u) (hr : u.bus.runAt n i = some r)
    (ho : .succeeded ∈ r.outcomes) : ∃ (k : Nat) (a : Attempt), (u.attemptsAt n i)[k]? = some a ∧ a.promise = .fulfilled := by
  obtain ⟨settled, hattempts, hrecords⟩ := hw.attended n i r hr
  obtain ⟨k, hlt, hk⟩ := List.mem_iff_getElem.mp ho
  have hlt' : k < settled.length := hrecords.length_eq ▸ hlt
  have hrecord := (List.forall₂_iff_get.mp hrecords).2 k hlt' hlt
  refine ⟨k, settled.get ⟨k, hlt'⟩, ?_, ?_⟩
  · rw [hattempts, List.getElem?_append_left hlt']
    exact List.getElem?_eq_getElem hlt'
  · rw [List.get_eq_getElem (i := ⟨k, hlt⟩), hk] at hrecord
    rw [hrecord]

end Timed

/-- The subscriber was tried as often as it asks to be, in vain. -/
def State.GivenUp (s : State P) (sub : Subscription) (link : Nat) : Prop :=
  ∃ i r, s.runAt link i = some r ∧ r.sub = sub ∧ r.phase = .failed ∧ AllFailed r.outcomes ∧
    r.attempt = r.sub.retries + 1

theorem givenUp_of_failed {n i : Nat} {r : HandlerRun} (hi : DeliveryInv s) (hr : s.runAt n i = some r)
    (hsub : r.sub = sub) (hp : r.phase = .failed) : s.GivenUp sub n := by
  obtain ⟨d, hd, hri⟩ := runAt_eq_some.mp hr
  have hsound := (hi.sound n d hd).runs r (List.mem_of_getElem? hri)
  simp only [Sound, hp] at hsound
  exact ⟨i, r, hr, hsub, hp, hsound.1, hsound.2⟩

theorem not_givenUp (h : s.links.rows.all (fun d => d.runs.all fun r => r.phase ≠ .failed) = true) (n : Nat) :
    ¬ s.GivenUp sub n := by
  rintro ⟨i, r, hr, -, hfailed, -⟩
  obtain ⟨d, hd, hri⟩ := runAt_eq_some.mp hr
  have hruns := List.all_eq_true.mp h d (Table.mem_of_find hd)
  exact of_decide_eq_true (List.all_eq_true.mp hruns r (List.mem_of_getElem? hri)) hfailed

theorem givenUp_step {n : Nat} (hi : LaneInv s) (h : step s a = some t) (hg : s.GivenUp sub n) : t.GivenUp sub n := by
  obtain ⟨i, r, hr, hsub, hp, hfailed, hcount⟩ := hg
  exact ⟨i, r, failed_step hi h hr hp, hsub, hp, hfailed, hcount⟩

theorem timed_givenUp {u v : Timed P} {b : TimedAction P} {n : Nat} (hw : Watched u) (h : u.step b = some v)
    (hg : u.bus.GivenUp sub n) : v.bus.GivenUp sub n :=
  timed_keeps (fun _ _ _ hi hg hs => givenUp_step hi hs hg) hw h hg

end EspClawPlatform.Bus
