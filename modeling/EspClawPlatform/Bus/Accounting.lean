import Mathlib.Algebra.BigOperators.Group.List.Basic
import EspClawPlatform.Bus.Drain
import EspClawPlatform.Bus.Runs

namespace EspClawPlatform.Bus

open Run

variable {P : Type} {s t : State P} {w : HandlerRun → Nat}

def Link.total (d : Link P) (w : HandlerRun → Nat) : Nat := (d.runs.map w).sum

def State.total (s : State P) (w : HandlerRun → Nat) : Nat := s.links.total (·.total w)

/-- What a step adds to the pairs of a published event and a subscription that matches it. -/
def matched (s : State P) : Action P → List (DomainEvent P × Subscription)
  | .publish event => (targets s event).map fun sub => (event, sub)
  | _ => []

theorem total_save {d d' : Link P} (hd : s.links.find d.id = some d) (hl : t.links = s.links.save d')
    (hid : d'.id = d.id) (w : HandlerRun → Nat) : t.total w + d.total w = s.total w + d'.total w := by
  have hsave := Table.total_save s.links (fun e => e.total w) d'
  rw [show Keyed.key d' = d.id from hid, hd, Option.elim_some] at hsave
  rw [State.total, hl]
  exact hsave

theorem total_of_runs {d d' : Link P} (hd : s.links.find d.id = some d) (hl : t.links = s.links.save d')
    (hid : d'.id = d.id) (hruns : d'.runs = d.runs) (w : HandlerRun → Nat) : t.total w = s.total w := by
  have hsave := total_save hd hl hid w
  rw [Link.total, Link.total, hruns] at hsave
  omega

theorem total_add (s : State P) (w w' : HandlerRun → Nat) :
    (s.total fun r => w r + w' r) = s.total w + s.total w' := by
  simp only [State.total, Table.total, Link.total, List.sum_map_add]

theorem total_congr {w w' : HandlerRun → Nat} (h : ∀ d ∈ s.links.rows, ∀ r ∈ d.runs, w r = w' r) :
    s.total w = s.total w' := by
  refine congrArg List.sum (List.map_congr_left fun d hd => ?_)
  exact congrArg List.sum (List.map_congr_left (h d hd))

theorem total_of_links (hl : t.links = s.links) (w : HandlerRun → Nat) : t.total w = s.total w := by
  rw [State.total, hl, State.total]

theorem total_onRun {n i : Nat} {move : HandlerRun → Option HandlerRun} (h : s.onRun n i move = some t) :
    ∃ r r', move r = some r' ∧ (∀ w, t.total w + w r = s.total w + w r') ∧
      t.counters = s.counters.tally r'.phase := by
  obtain ⟨d, r, r', hd, rfl, -, hr, hr', rfl⟩ := onRun_eq_some h
  refine ⟨r, r', hr', fun w => ?_, rfl⟩
  have hsave := total_save (t := { s with links := s.links.save { d with runs := d.runs.set i r' },
                                          counters := s.counters.tally r'.phase }) hd rfl rfl w
  have hset := Table.sum_set hr w r'
  simp only [Link.total] at hsave
  omega

theorem total_publish (hi : LaneInv s) (event : DomainEvent P) (w : HandlerRun → Nat) :
    (s.publish event).total w = s.total w + ((targets s event).map fun sub => w { sub := sub }).sum := by
  by_cases h : targets s event = []
  · have hl : (s.publish event).links = s.links := by
      rw [State.publish, if_pos (by simpa [targets] using h)]
    rw [total_of_links hl, h]
    rfl
  · have hsave := Table.total_save s.links (fun e => e.total w) (chained s event)
    rw [show Keyed.key (chained s event) = s.counters.published from rfl, find_published hi, Option.elim_none]
      at hsave
    rw [State.total, publish_links h]
    refine hsave.trans (congrArg (s.total w + ·) ?_)
    rw [Link.total, chained, List.map_map]
    rfl

inductive Weighing (s : State P) (a : Action P) (t : State P) : Prop
  | same (ht : ∀ w, t.total w = s.total w) (hm : matched s a = [])
      (hd : t.counters.delivered = s.counters.delivered) (hf : t.counters.failed = s.counters.failed)
  | publish (event : DomainEvent P) (ha : a = .publish event)
      (ht : ∀ w, t.total w = s.total w + ((targets s event).map fun sub => w { sub := sub }).sum)
      (hd : t.counters.delivered = s.counters.delivered) (hf : t.counters.failed = s.counters.failed)
  | turn {r r' : HandlerRun} (hr : RunMove r r') (ht : ∀ w, t.total w + w r = s.total w + w r')
      (hm : matched s a = []) (hd : t.counters.delivered = (s.counters.tally r'.phase).delivered)
      (hf : t.counters.failed = (s.counters.tally r'.phase).failed)

theorem weighing_of_links {a : Action P} (hl : t.links = s.links) (hc : t.counters = s.counters)
    (hm : matched s a = []) : Weighing s a t :=
  .same (total_of_links hl) hm (by rw [hc]) (by rw [hc])

theorem weighing_of_runs {a : Action P} {d d' : Link P} (hd : s.links.find d.id = some d)
    (hl : t.links = s.links.save d') (hid : d'.id = d.id) (hruns : d'.runs = d.runs)
    (hc : t.counters = s.counters) (hm : matched s a = []) : Weighing s a t :=
  .same (total_of_runs hd hl hid hruns) hm (by rw [hc]) (by rw [hc])

theorem weighing_onRun {a : Action P} {n i : Nat} {move : HandlerRun → Option HandlerRun}
    (hmove : ∀ r r', move r = some r' → RunMove r r') (hm : matched s a = [])
    (h : s.onRun n i move = some t) : Weighing s a t := by
  obtain ⟨r, r', hr, htotal, hcounters⟩ := total_onRun h
  exact .turn (hmove r r' hr) htotal hm (by rw [hcounters]) (by rw [hcounters])

theorem weighing_publish (hi : LaneInv s) (event : DomainEvent P) :
    Weighing s (.publish event) (s.publish event) := by
  have hcounters : (s.publish event).counters = { s.counters with published := s.counters.published + 1 } := by
    rw [State.publish]
    split <;> rfl
  exact .publish event rfl (total_publish hi event) (by rw [hcounters]) (by rw [hcounters])

theorem step_weighing {a : Action P} (hi : LaneInv s) (h : step s a = some t) : Weighing s a t := by
  cases a with
  | publish event => cases h; exact weighing_publish hi event
  | subscribe | unsubscribe => cases h; exact weighing_of_links rfl rfl rfl
  | invoke n i => exact weighing_onRun (fun r r' hr => (invoke_move hr).1) rfl h
  | settle n i result => exact weighing_onRun (fun r r' hr => (settle_move hr).1) rfl h
  | wake n i => exact weighing_onRun (fun r r' hr => (wake_move hr).1) rfl h
  | timeout n i =>
      obtain ⟨u, hu, rfl⟩ := Option.map_eq_some_iff.mp h
      obtain ⟨r, r', hr, htotal, hcounters⟩ := total_onRun hu
      exact .turn (timeout_move hr).1 htotal rfl (by rw [← hcounters]) (by rw [← hcounters])
  | start n =>
      obtain ⟨d, hd, hc⟩ := Option.bind_eq_some_iff.mp h
      obtain rfl := Table.key_of_find hd
      split at hc
      · cases hc
      · split at hc <;> cases hc
        · exact weighing_of_runs hd rfl rfl rfl rfl rfl
        · exact weighing_of_runs hd rfl rfl rfl rfl rfl
  | finish n =>
      obtain ⟨d, hd, hc⟩ := Option.bind_eq_some_iff.mp h
      obtain rfl := Table.key_of_find hd
      split at hc
      · split at hc
        · cases hc
          exact weighing_of_runs hd rfl rfl rfl rfl rfl
        · split at hc <;> cases hc
          exact weighing_of_runs hd rfl rfl rfl rfl rfl
      · cases hc
  | cleanup n =>
      obtain ⟨d, hd, hc⟩ := Option.bind_eq_some_iff.mp h
      split at hc <;> cases hc
      exact weighing_of_links rfl rfl rfl

structure Accounts (s : State P) : Prop where
  delivered : s.counters.delivered = s.total fun r => (decide (r.phase = .delivered)).toNat
  failed : s.counters.failed = s.total fun r => (decide (r.phase = .failed)).toNat

theorem RunMove.weight_eq {r r' : HandlerRun} (h : RunMove r r') {phase : RunPhase}
    (hphase : phase = .delivered ∨ phase = .failed) : (decide (r.phase = phase)).toNat = 0 := by
  rw [decide_eq_false]
  · rfl
  · rintro rfl
    exact h.not_finished.1 hphase

theorem accounts_step {a : Action P} (hi : LaneInv s) (hs : Accounts s) (h : step s a = some t) : Accounts t := by
  cases step_weighing hi h with
  | same ht _ hd hf => exact ⟨by rw [hd, hs.delivered, ht], by rw [hf, hs.failed, ht]⟩
  | publish event _ ht hd hf =>
      -- the new handler runs are due
      exact ⟨by rw [hd, hs.delivered, ht]; simp, by rw [hf, hs.failed, ht]; simp⟩
  | @turn r r' hr ht _ hd hf =>
      constructor
      · have htotal := ht fun r => (decide (r.phase = .delivered)).toNat
        rw [hr.weight_eq (.inl rfl), ← hs.delivered] at htotal
        refine Eq.trans ?_ htotal.symm
        rw [hd]
        cases r'.phase <;> rfl
      · have htotal := ht fun r => (decide (r.phase = .failed)).toNat
        rw [hr.weight_eq (.inr rfl), ← hs.failed] at htotal
        refine Eq.trans ?_ htotal.symm
        rw [hf]
        cases r'.phase <;> rfl

theorem accounts_run {as : List (Action P)} (h : run step init as = some s) : Accounts s := by
  refine (invariant (P := fun s : State P => LaneInv s ∧ Accounts s) ?_ h ⟨.init, rfl, rfl⟩).2
  exact fun s a t hi hs => ⟨laneInv_step hi.1 hs, accounts_step hi.1 hi.2 hs⟩

theorem matched_run {as : List (Action P)} (h : run step init as = some s) :
    s.total (fun _ => 1) = (trace step matched init as).length := by
  have hstep : ∀ (l : List (DomainEvent P × Subscription)) (m : List Unit) (s : State P) (a : Action P)
      (t : State P), LaneInv s ∧ s.total (fun _ => 1) = l.length → True → step s a = some t →
        LaneInv t ∧ t.total (fun _ => 1) = (l ++ matched s a).length := by
    rintro l - s a t ⟨hi, hl⟩ - hs
    refine ⟨laneInv_step hi hs, ?_⟩
    rw [List.length_append]
    cases step_weighing hi hs with
    | same ht hm => rw [ht, hm, hl, List.length_nil, Nat.add_zero]
    | publish event ha ht =>
        subst ha
        rw [ht, hl, matched, List.length_map]
        simp
    | turn _ ht hm =>
        rw [hm, List.length_nil, Nat.add_zero, ← hl]
        exact Nat.add_right_cancel (ht fun _ => 1)
  exact (logs_along matched (fun _ _ => []) (C := fun _ _ => True)
    (I := fun l _ s => LaneInv s ∧ s.total (fun _ => 1) = l.length) hstep h (along_true _ _)
    (l := []) (m := []) ⟨.init, rfl⟩).2

theorem balance_of_idle {as : List (Action P)} (h : run step init as = some s) (hc : ¬ Crashed s)
    (hidle : s.inFlight = []) :
    s.counters.delivered + s.counters.failed = (trace step matched init as).length := by
  have hi := deliveryInv_run h
  have ha := accounts_run h
  rw [ha.delivered, ha.failed, ← matched_run h, ← total_add]
  refine total_congr fun d hd r hr => ?_
  rcases finished_of_idle hi hc hidle (Table.find_of_mem hd) r hr with hp | hp <;> rw [hp] <;> rfl

end EspClawPlatform.Bus
