import EspClawPlatform.Bus.Lanes

namespace EspClawPlatform.Bus

open Run

variable {P : Type}

def AllFailed (outcomes : List Outcome) : Prop := .succeeded ∉ outcomes

/-- Where the loop of `runHandler` can stand after the attempts made so far. -/
def Sound (r : HandlerRun) : Prop :=
  match r.phase with
  | .due | .running => AllFailed r.outcomes ∧ r.attempt ≤ r.sub.retries
  | .backingOff => AllFailed r.outcomes ∧ 0 < r.attempt ∧ r.attempt ≤ r.sub.retries
  | .delivered => .succeeded ∈ r.outcomes ∧ r.attempt ≤ r.sub.retries + 1
  | .failed => AllFailed r.outcomes ∧ r.attempt = r.sub.retries + 1
  | .crashed => 0 < r.attempt

def HandlerRun.handed (r : HandlerRun) : Prop := r.outcomes ≠ [] ∨ r.phase = .running

def HandlerRun.Concluded (r : HandlerRun) : Prop :=
  .succeeded ∈ r.outcomes ∨ AllFailed r.outcomes ∧ r.attempt = r.sub.retries + 1

theorem allFailed_snoc {outcomes : List Outcome} {o : Outcome} (h : AllFailed outcomes)
    (ho : o ≠ .succeeded) : AllFailed (outcomes ++ [o]) := by
  intro hm
  rcases List.mem_append.mp hm with hm | hm
  · exact h hm
  · exact ho (List.mem_singleton.mp hm).symm

theorem sound_fail {r : HandlerRun} (hf : AllFailed r.outcomes) (hle : r.attempt ≤ r.sub.retries)
    {o : Outcome} (ho : o ≠ .succeeded) (message : Option String) : Sound (r.fail o message) := by
  have hs := allFailed_snoc hf ho
  have hlen : (r.outcomes ++ [o]).length = r.attempt + 1 := by simp [HandlerRun.attempt]
  cases message with
  | none =>
      change 0 < (r.outcomes ++ [o]).length
      omega
  | some m =>
      by_cases hl : r.attempt = r.sub.retries
      · have hp : (r.fail o (some m)).phase = .failed := if_pos hl
        simp only [Sound, hp]
        exact ⟨hs, hlen.trans (by rw [hl]; rfl)⟩
      · have hp : (r.fail o (some m)).phase = .backingOff := if_neg hl
        simp only [Sound, hp]
        refine ⟨hs, ?_, ?_⟩
        · change 0 < (r.outcomes ++ [o]).length
          omega
        · change (r.outcomes ++ [o]).length ≤ r.sub.retries
          omega

theorem RunMove.sound {r r' : HandlerRun} (hm : RunMove r r') (h : Sound r) : Sound r' := by
  cases hm with
  | invoke hp => simpa [Sound, hp, HandlerRun.attempt] using h
  | wake hp =>
      simp only [Sound, hp] at h ⊢
      exact ⟨h.1, h.2.2⟩
  | succeed hp =>
      simp only [Sound, hp] at h ⊢
      refine ⟨by simp, ?_⟩
      simpa [HandlerRun.attempt] using h.2
  | fail hp o ho message =>
      simp only [Sound, hp] at h
      exact sound_fail h.1 h.2 ho message

theorem RunMove.not_finished {r r' : HandlerRun} (hm : RunMove r r') :
    ¬ (r.phase = .delivered ∨ r.phase = .failed) ∧ r.phase ≠ .crashed := by
  cases hm with
  | invoke hp | succeed hp | fail hp | wake hp => simp [hp]

theorem concluded_of_finished {r : HandlerRun} (h : Sound r) (hp : r.phase = .delivered ∨ r.phase = .failed) :
    r.Concluded := by
  rcases hp with hp | hp
  · simp only [Sound, hp] at h
    exact .inl h.1
  · simp only [Sound, hp] at h
    exact .inr h

theorem handed_of_finished {r : HandlerRun} (h : Sound r) (hp : r.phase = .delivered ∨ r.phase = .failed) :
    r.handed := by
  left
  rintro ho
  rcases hp with hp | hp <;> simp [Sound, hp, ho, HandlerRun.attempt] at h

structure LinkSound (d : Link P) : Prop where
  runs : ∀ r ∈ d.runs, Sound r
  finished : d.state = .fulfilled → ∀ r ∈ d.runs, r.phase = .delivered ∨ r.phase = .failed

theorem linkSound_chained (s : State P) (event : DomainEvent P) : LinkSound (chained s event) where
  runs := by
    intro r hr
    obtain ⟨sub, _, rfl⟩ := List.mem_map.mp hr
    simp [Sound, AllFailed, HandlerRun.attempt]
  finished := fun h => by cases h

theorem linkSound_move {s : State P} {d d' : Link P} (hm : LinkMove s d d') (h : LinkSound d) :
    LinkSound d' := by
  cases hm with
  | begin hb hs => exact ⟨h.runs, fun ho => absurd (hs.symm.trans ho) (by simp)⟩
  | pass | reject => exact ⟨h.runs, fun ho => by cases ho⟩
  | fulfil hb hs hr => exact ⟨h.runs, fun _ => hr⟩
  | run hb i hr hm =>
      have hmem := List.mem_of_getElem? hr
      refine ⟨?_, fun ho => absurd (h.finished ho _ hmem) hm.not_finished.1⟩
      intro x hx
      rcases List.mem_or_eq_of_mem_set hx with hx | rfl
      · exact h.runs x hx
      · exact hm.sound (h.runs _ hmem)

def Crashed (s : State P) : Prop := ∃ n d, s.links.find n = some d ∧ d.rejects = true

structure DeliveryInv (s : State P) : Prop where
  lanes : LaneInv s
  sound : ∀ n d, s.links.find n = some d → LinkSound d
  rejected : ∀ n d, s.links.find n = some d → d.state = .rejected → Crashed s

theorem DeliveryInv.init : DeliveryInv (init : State P) where
  lanes := .init
  sound := fun n d h => by cases h
  rejected := fun n d h => by cases h

theorem rejects_move {s : State P} {d d' : Link P} (hm : LinkMove s d d') (h : d.rejects = true) :
    d'.rejects = true := by
  cases hm with
  | begin | pass | fulfil | reject => exact h
  | run hb i hr hm =>
      obtain ⟨x, hx, hp⟩ := List.any_eq_true.mp h
      obtain ⟨j, hj⟩ := List.getElem?_of_mem hx
      refine List.any_eq_true.mpr ⟨x, ?_, hp⟩
      apply List.mem_of_getElem? (i := j)
      rw [List.getElem?_set, if_neg, hj]
      rintro rfl
      obtain rfl : _ = x := Option.some.inj (hr.symm.trans hj)
      exact hm.not_finished.2 (by simpa using hp)

theorem crashed_step {s t : State P} {a : Action P} (hi : LaneInv s) (h : step s a = some t)
    (hc : Crashed s) : Crashed t := by
  obtain ⟨n, e, he, hr⟩ := hc
  cases step_shape h with
  | still hl | cleanup _ _ hl => exact ⟨n, e, hl ▸ he, hr⟩
  | publish event ha hl => exact ⟨n, e, find_publish_of_some hi hl he, hr⟩
  | @move d d' hd hm hl =>
      by_cases hn : n = d.id
      · subst hn
        obtain rfl : d = e := Option.some.inj (hd.symm.trans he)
        exact ⟨d.id, d', by rw [find_move hm hl, if_pos rfl], rejects_move hm hr⟩
      · exact ⟨n, e, by rw [find_move hm hl, if_neg hn, he], hr⟩

theorem crashed_of_not_logs {s t : State P} {a : Action P} (h : step s a = some t) (ha : ¬ LogsMessage a) :
    Crashed t := by
  cases step_shape h with
  | still hl hn hf hp hm => exact absurd hm ha
  | cleanup hd hs hl hf hn hp hm => exact absurd hm ha
  | publish event he => subst he; exact absurd trivial ha
  | @move d d' hd hm hl hn hf hp hloud => exact ⟨d.id, d', by rw [find_move hm hl, if_pos rfl], hloud ha⟩

theorem crashed_of_step {s t : State P} {a : Action P} (h : step s a = some t) (ha : LogsMessage a)
    (hc : Crashed t) : Crashed s := by
  obtain ⟨n, e, he, hr⟩ := hc
  cases step_shape h with
  | still hl | cleanup _ _ hl => exact ⟨n, e, hl ▸ he, hr⟩
  | publish event _ hl =>
      rw [find_publish hl] at he
      split at he
      · cases he
        obtain ⟨r, hm, hp⟩ := List.any_eq_true.mp hr
        obtain ⟨sub, _, rfl⟩ := List.mem_map.mp hm
        simp at hp
      · exact ⟨n, e, he, hr⟩
  | move hd hm hl hn hf hp hloud hquiet =>
      rw [find_move hm hl] at he
      split at he
      · cases he
        exact ⟨_, _, hd, hquiet ha hr⟩
      · exact ⟨n, e, he, hr⟩

theorem deliveryInv_step {s t : State P} {a : Action P} (hi : DeliveryInv s) (h : step s a = some t) :
    DeliveryInv t := by
  have hkeep := crashed_step hi.lanes h
  refine ⟨laneInv_step hi.lanes h, ?_, ?_⟩
  · intro n e he
    cases step_shape h with
    | still hl | cleanup _ _ hl => exact hi.sound n e (hl ▸ he)
    | publish event _ hl =>
        rw [find_publish hl] at he
        split at he
        · cases he
          exact linkSound_chained s event
        · exact hi.sound n e he
    | move hd hm hl =>
        rw [find_move hm hl] at he
        split at he
        · cases he
          exact linkSound_move hm (hi.sound _ _ hd)
        · exact hi.sound n e he
  · intro n e he hs
    cases step_shape h with
    | still hl | cleanup _ _ hl => exact hkeep (hi.rejected n e (hl ▸ he) hs)
    | publish event _ hl =>
        rw [find_publish hl] at he
        split at he
        · cases he
          cases hs
        · exact hkeep (hi.rejected n e he hs)
    | @move d d' hd hm hl =>
        rw [find_move hm hl] at he
        split at he
        · cases he
          apply hkeep
          cases hm with
          | begin _ hp | fulfil _ hp => simp_all
          | run => exact hi.rejected _ _ hd hs
          | reject _ _ hr => exact ⟨_, _, hd, hr⟩
          | pass _ _ p _ hr =>
              obtain ⟨q, hq, hr⟩ := Option.map_eq_some_iff.mp hr
              exact hi.rejected p q hq hr
        · exact hkeep (hi.rejected n e he hs)

theorem deliveryInv_run {s : State P} {as : List (Action P)} (h : run step init as = some s) :
    DeliveryInv s :=
  invariant (fun _ _ _ hi hs => deliveryInv_step hi hs) h .init

theorem finished_of_settled {s : State P} (hi : DeliveryInv s) (hc : ¬ Crashed s) {n : Nat}
    (hs : Settled s n) : ∃ d, s.links.find n = some d ∧
      ∀ r ∈ d.runs, Sound r ∧ (r.phase = .delivered ∨ r.phase = .failed) := by
  obtain ⟨d, hd, hne⟩ := hs
  refine ⟨d, hd, ?_⟩
  intro r hr
  cases hst : d.state with
  | pending => exact absurd hst hne
  | rejected => exact absurd (hi.rejected n d hd hst) hc
  | fulfilled => exact ⟨(hi.sound n d hd).runs r hr, (hi.sound n d hd).finished hst r hr⟩

def Keeps (s t : State P) : Prop :=
  ∀ n d, s.links.find n = some d →
    ∃ d', t.links.find n = some d' ∧ d'.event = d.event ∧ d'.runs.map (·.sub) = d.runs.map (·.sub)

theorem keeps_step {s t : State P} {a : Action P} (hi : LaneInv s) (h : step s a = some t) : Keeps s t := by
  intro n e he
  cases step_shape h with
  | still hl | cleanup _ _ hl => exact ⟨e, hl ▸ he, rfl, rfl⟩
  | publish event _ hl => exact ⟨e, find_publish_of_some hi hl he, rfl, rfl⟩
  | @move d d' hd hm hl =>
      by_cases hn : n = d.id
      · subst hn
        obtain rfl : d = e := Option.some.inj (hd.symm.trans he)
        exact ⟨d', by rw [find_move hm hl, if_pos rfl], hm.event_eq, hm.subs_eq⟩
      · exact ⟨e, by rw [find_move hm hl, if_neg hn, he], rfl, rfl⟩

theorem keeps_run {s t : State P} {as : List (Action P)} (hi : LaneInv s) (h : run step s as = some t) :
    Keeps s t := by
  refine relates_along (C := fun _ _ => True) (P := LaneInv) (R := Keeps) ?_ ?_ ?_ h (along_true s as) hi
  · exact fun s n d hd => ⟨d, hd, rfl, rfl⟩
  · intro s t u hst htu n d hd
    obtain ⟨e, he, hee, hes⟩ := hst n d hd
    obtain ⟨f, hf, hfe, hfs⟩ := htu n e he
    exact ⟨f, hf, hfe.trans hee, hfs.trans hes⟩
  · exact fun s a t hi _ hs => ⟨laneInv_step hi hs, keeps_step hi hs⟩

theorem link_of_published {u s : State P} {event : DomainEvent P} {post : List (Action P)}
    (hi : LaneInv u) (ht : targets u event ≠ []) (h : run step u (.publish event :: post) = some s) :
    ∃ d, s.links.find u.counters.published = some d ∧ d.event = event ∧
      d.runs.map (·.sub) = targets u event := by
  obtain ⟨v, hv, hrun⟩ := run_cons.mp h
  have hlinks : v.links.find u.counters.published = some (chained u event) := by
    cases hv
    rw [find_publish (publish_links ht), if_pos rfl]
  obtain ⟨d, hd, he, hs⟩ := keeps_run (laneInv_step hi hv) hrun _ _ hlinks
  exact ⟨d, hd, he, by rw [hs]; simp [chained, Function.comp_def]⟩

end EspClawPlatform.Bus
