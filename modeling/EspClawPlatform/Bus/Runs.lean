import EspClawPlatform.Bus.Delivery

namespace EspClawPlatform.Bus

variable {P : Type} {s t : State P} {n i : Nat}

def State.runAt (s : State P) (n i : Nat) : Option HandlerRun := (s.links.find n).bind fun d => d.runs[i]?

theorem runAt_eq_some {r : HandlerRun} :
    s.runAt n i = some r ↔ ∃ d, s.links.find n = some d ∧ d.runs[i]? = some r :=
  Option.bind_eq_some_iff

inductive Turn (n i : Nat) : Action P → HandlerRun → HandlerRun → Prop
  | invoke {r r' : HandlerRun} (h : r.invoke = some r') : Turn n i (.invoke n i) r r'
  | settle {r r' : HandlerRun} {result : Except Thrown Unit} (h : r.settle result = some r') :
      Turn n i (.settle n i result) r r'
  | timeout {r r' : HandlerRun} (h : r.timeout = some r') : Turn n i (.timeout n i) r r'
  | wake {r r' : HandlerRun} (h : r.wake = some r') : Turn n i (.wake n i) r r'

inductive RunShape (s : State P) (n i : Nat) (a : Action P) (t : State P) : Prop
  | same (h : t.runAt n i = s.runAt n i)
  | chained {event : DomainEvent P} (ha : a = .publish event) (hn : n = s.counters.published)
      (h : t.runAt n i = (targets s event)[i]?.map fun sub => { sub := sub })
  | turn {r r' : HandlerRun} (hr : s.runAt n i = some r) (h : t.runAt n i = some r') (hm : Turn n i a r r')

theorem runAt_onRun {l j : Nat} {move : HandlerRun → Option HandlerRun} (h : s.onRun l j move = some t) :
    (t.runAt n i = s.runAt n i ∧ ¬ (n = l ∧ i = j)) ∨
      n = l ∧ i = j ∧ ∃ r r', s.runAt n i = some r ∧ t.runAt n i = some r' ∧ move r = some r' := by
  obtain ⟨d, r, r', hd, rfl, hb, hr, hr', rfl⟩ := onRun_eq_some h
  have hlinks : (s.links.save { d with runs := d.runs.set j r' }).find n =
      if n = d.id then some { d with runs := d.runs.set j r' } else s.links.find n := Table.find_save _ _ _
  by_cases hn : n = d.id
  · subst hn
    by_cases hi : i = j
    · subst hi
      obtain ⟨hlt, -⟩ := List.getElem?_eq_some_iff.mp hr
      refine .inr ⟨rfl, rfl, r, r', runAt_eq_some.mpr ⟨d, hd, hr⟩, ?_, hr'⟩
      rw [State.runAt, hlinks, if_pos rfl, Option.bind_some]
      simp [hlt]
    · refine .inl ⟨?_, fun h => hi h.2⟩
      rw [State.runAt, State.runAt, hlinks, if_pos rfl, hd, Option.bind_some, Option.bind_some,
        List.getElem?_set_ne (Ne.symm hi)]
  · refine .inl ⟨?_, fun h => hn h.1⟩
    rw [State.runAt, State.runAt, hlinks, if_neg hn]

theorem runShape_of_links (a : Action P) (hl : t.links = s.links) : RunShape s n i a t :=
  .same (by rw [State.runAt, State.runAt, hl])

theorem runShape_of_runs {d d' : Link P} (a : Action P) (hd : s.links.find d.id = some d)
    (hl : t.links = s.links.save d') (hid : d'.id = d.id) (hruns : d'.runs = d.runs) :
    RunShape s n i a t := by
  refine .same ?_
  rw [State.runAt, State.runAt, hl, Table.find_save, show Keyed.key d' = d.id from hid]
  split
  · rename_i hn
    rw [hn, hd, Option.bind_some, Option.bind_some, hruns]
  · rfl

theorem runShape_onRun {a : Action P} {l j : Nat} {move : HandlerRun → Option HandlerRun}
    (hm : ∀ r r', move r = some r' → Turn l j a r r') (h : s.onRun l j move = some t) :
    RunShape s n i a t := by
  rcases runAt_onRun (n := n) (i := i) h with ⟨hsame, -⟩ | ⟨rfl, rfl, r, r', hr, hr', hmove⟩
  · exact .same hsame
  · exact .turn hr hr' (hm r r' hmove)

theorem runShape_publish (event : DomainEvent P) : RunShape s n i (.publish event) (s.publish event) := by
  by_cases h : targets s event = []
  · apply runShape_of_links _
    rw [State.publish, if_pos (by simpa [targets] using h)]
  · have hl := publish_links h
    by_cases hn : n = s.counters.published
    · refine .chained rfl hn ?_
      rw [State.runAt, find_publish hl, if_pos hn, Option.bind_some, chained, List.getElem?_map]
    · refine .same ?_
      rw [State.runAt, State.runAt, find_publish hl, if_neg hn]

theorem run_shape {a : Action P} (h : step s a = some t) : RunShape s n i a t := by
  cases a with
  | publish event => cases h; exact runShape_publish event
  | subscribe | unsubscribe => cases h; exact runShape_of_links _ rfl
  | start l =>
      obtain ⟨d, hd, hc⟩ := Option.bind_eq_some_iff.mp h
      obtain rfl := Table.key_of_find hd
      split at hc
      · cases hc
      · split at hc <;> cases hc
        · exact runShape_of_runs _ hd rfl rfl rfl
        · exact runShape_of_runs _ hd rfl rfl rfl
  | invoke l j => exact runShape_onRun (fun _ _ => .invoke) h
  | settle l j result => exact runShape_onRun (fun _ _ => .settle) h
  | timeout l j =>
      obtain ⟨u, hu, rfl⟩ := Option.map_eq_some_iff.mp h
      cases runShape_onRun (a := .timeout l j) (n := n) (i := i) (fun _ _ => .timeout) hu with
      | same h => exact .same h
      | chained ha hn h => exact .chained ha hn h
      | turn hr h hm => exact .turn hr h hm
  | wake l j => exact runShape_onRun (fun _ _ => .wake) h
  | finish l =>
      obtain ⟨d, hd, hc⟩ := Option.bind_eq_some_iff.mp h
      obtain rfl := Table.key_of_find hd
      split at hc
      · split at hc
        · cases hc; exact runShape_of_runs _ hd rfl rfl rfl
        · split at hc <;> cases hc
          exact runShape_of_runs _ hd rfl rfl rfl
      · cases hc
  | cleanup l =>
      obtain ⟨d, hd, hc⟩ := Option.bind_eq_some_iff.mp h
      split at hc <;> cases hc
      exact runShape_of_links _ rfl

theorem failed_step {a : Action P} {r : HandlerRun} (hi : LaneInv s) (h : step s a = some t)
    (hr : s.runAt n i = some r) (hp : r.phase = .failed) : t.runAt n i = some r := by
  cases run_shape (n := n) (i := i) h with
  | same hsame => exact hsame.trans hr
  | chained ha hn hnew =>
      obtain ⟨d, hd, -⟩ := runAt_eq_some.mp hr
      exact absurd (hi.fresh n d hd) (Nat.not_lt_of_ge hn.ge)
  | turn hr' ht hm =>
      obtain rfl := Option.some.inj (hr.symm.trans hr')
      have hfinished (hmove : ∃ r', RunMove r r') : False := by
        obtain ⟨r', hmove⟩ := hmove
        exact hmove.not_finished.1 (.inr hp)
      cases hm with
      | invoke hm => exact (hfinished ⟨_, (invoke_move hm).1⟩).elim
      | settle hm => exact (hfinished ⟨_, (settle_move hm).1⟩).elim
      | timeout hm => exact (hfinished ⟨_, (timeout_move hm).1⟩).elim
      | wake hm => exact (hfinished ⟨_, (wake_move hm).1⟩).elim

theorem begun_step {a : Action P} (hi : LaneInv s) (h : step s a = some t) (hb : Begun s n) : Begun t n := by
  obtain ⟨e, he, hbegun⟩ := hb
  cases step_shape h with
  | still hl | cleanup _ _ hl => exact ⟨e, hl ▸ he, hbegun⟩
  | publish event ha hl => exact ⟨e, find_publish_of_some hi hl he, hbegun⟩
  | @move d d' hd hm hl =>
      by_cases hn : n = d.id
      · subst hn
        obtain rfl : d = e := Option.some.inj (hd.symm.trans he)
        refine ⟨d', by rw [find_move hm hl, if_pos rfl], ?_⟩
        cases hm with
        | begin => exact .inl rfl
        | pass | reject | fulfil => exact .inr (by simp)
        | run hb => exact .inl hb
      · exact ⟨e, by rw [find_move hm hl, if_neg hn, he], hbegun⟩

inductive SubscriptionShape (s : State P) : Action P → State P → Prop
  | same {a : Action P} {t : State P} (hs : t.subscriptions = s.subscriptions)
      (hn : t.subscribed = s.subscribed) :
      SubscriptionShape s a t
  | subscribe (pattern : String) (options : SubscribeOptions) :
      SubscriptionShape s (.subscribe pattern options) (s.subscribe pattern options)
  | unsubscribe (id : Nat) : SubscriptionShape s (.unsubscribe id) (s.unsubscribe id)

theorem subscription_shape {a : Action P} (h : step s a = some t) : SubscriptionShape s a t := by
  have honRun {l j : Nat} {move : HandlerRun → Option HandlerRun} {u : State P}
    (h : s.onRun l j move = some u) :
      u.subscriptions = s.subscriptions ∧ u.subscribed = s.subscribed := by
    obtain ⟨d, r, r', -, -, -, -, -, rfl⟩ := onRun_eq_some h
    exact ⟨rfl, rfl⟩
  cases a with
  | publish event =>
      cases h
      rw [State.publish]
      split <;> exact .same rfl rfl
  | subscribe pattern options => cases h; exact .subscribe pattern options
  | unsubscribe id => cases h; exact .unsubscribe id
  | start l =>
      obtain ⟨d, hd, hc⟩ := Option.bind_eq_some_iff.mp h
      split at hc
      · cases hc
      · split at hc <;> cases hc <;> exact .same rfl rfl
  | invoke | settle | wake => exact .same (honRun h).1 (honRun h).2
  | timeout =>
      obtain ⟨u, hu, rfl⟩ := Option.map_eq_some_iff.mp h
      exact .same (honRun hu).1 (honRun hu).2
  | finish l =>
      obtain ⟨d, hd, hc⟩ := Option.bind_eq_some_iff.mp h
      split at hc
      · split at hc
        · cases hc; exact .same rfl rfl
        · split at hc <;> cases hc
          exact .same rfl rfl
      · cases hc
  | cleanup l =>
      obtain ⟨d, hd, hc⟩ := Option.bind_eq_some_iff.mp h
      split at hc <;> cases hc
      exact .same rfl rfl

end EspClawPlatform.Bus
