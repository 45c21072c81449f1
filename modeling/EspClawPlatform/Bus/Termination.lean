import Mathlib.Data.Nat.Find
import EspClawPlatform.Lib.Work
import EspClawPlatform.Bus.Accounting

namespace EspClawPlatform.Bus

open Run

variable {P : Type} {s t : State P}

/-- The bus goes on with a delivery, by itself or at the end of a handler. -/
def Action.own : Action P → Bool
  | .publish _ | .subscribe .. | .unsubscribe _ => false
  | _ => true

/-- The bus goes on by itself; the timer of an attempt goes off when its handler does not end. -/
def Action.driven : Action P → Bool
  | .settle .. => false
  | a => a.own

def HandlerRun.rank (r : HandlerRun) : Nat :=
  match r.phase with
  | .due => 3 * (r.sub.retries + 1 - r.attempt)
  | .running => 3 * (r.sub.retries + 1 - r.attempt) - 1
  | .backingOff => 3 * (r.sub.retries + 1 - r.attempt) + 1
  | .delivered | .failed | .crashed => 0

def Link.waits (d : Link P) : Nat :=
  if d.state = .pending then if d.started then 1 else 2 else 0

def Link.work (d : Link P) : Nat := d.waits + d.total HandlerRun.rank

def State.work (s : State P) : Nat := s.links.total Link.work + s.inFlight.length

def cost (x : DomainEvent P × Subscription) : Nat := 3 * x.2.retries + 6

section Rank

variable {r r' : HandlerRun}

theorem rank_fail (hs : Sound r) (hp : r.phase = .running) (o : Outcome) (message : Option String) :
    (r.fail o message).rank < r.rank := by
  have hle : r.attempt ≤ r.sub.retries := by
    simp only [Sound, hp] at hs
    exact hs.2
  have hrank : r.rank = 3 * (r.sub.retries + 1 - r.attempt) - 1 := by rw [HandlerRun.rank, hp]
  cases message with
  | none =>
      have hzero : (r.fail o none).rank = 0 := rfl
      omega
  | some text =>
      by_cases hlast : r.attempt = r.sub.retries
      · have hphase : (r.fail o (some text)).phase = .failed := if_pos hlast
        have hzero : (r.fail o (some text)).rank = 0 := by rw [HandlerRun.rank, hphase]
        omega
      · have hphase : (r.fail o (some text)).phase = .backingOff := if_neg hlast
        have hmore : (r.fail o (some text)).attempt = r.attempt + 1 := List.length_append
        have hsub : (r.fail o (some text)).sub = r.sub := rfl
        have hnext : (r.fail o (some text)).rank = 3 * (r.sub.retries + 1 - (r.attempt + 1)) + 1 := by
          rw [HandlerRun.rank, hphase]
          simp only [hsub, hmore]
        omega

theorem RunMove.rank_lt (hm : RunMove r r') (hs : Sound r) : r'.rank < r.rank := by
  cases hm with
  | invoke hp =>
      simp only [Sound, hp] at hs
      simp only [HandlerRun.rank, hp]
      have hattempt : HandlerRun.attempt { r with phase := .running } = r.attempt := rfl
      omega
  | succeed hp =>
      simp only [Sound, hp] at hs
      simp only [HandlerRun.rank, hp]
      omega
  | fail hp o ho message => exact rank_fail hs hp o message
  | wake hp =>
      simp only [HandlerRun.rank, hp]
      have hattempt : HandlerRun.attempt { r with phase := .due } = r.attempt := rfl
      omega

end Rank

section Links

variable {d d' : Link P}

theorem LinkMove.work_lt (hm : LinkMove s d d') (hs : LinkSound d) : d'.work < d.work := by
  cases hm with
  | begin hb hp =>
      simp only [Link.work, Link.waits, hb, hp, if_true, Bool.false_eq_true, if_false, Link.total]
      omega
  | pass hb hp =>
      simp only [Link.work, Link.waits, hb, hp, if_true, Bool.false_eq_true, if_false, Link.total]
      simp
  | @run hb i r r' hr hm =>
      have hless := hm.rank_lt (hs.runs _ (List.mem_of_getElem? hr))
      have hset := Table.sum_set hr HandlerRun.rank r'
      simp only [Link.work, Link.waits, Link.total]
      omega
  | fulfil hb hp =>
      simp only [Link.work, Link.waits, hb, hp, if_true, Link.total]
      simp
  | reject hb hp =>
      simp only [Link.work, Link.waits, hb, hp, if_true, Link.total]
      simp

inductive Works (s t : State P) : Prop
  | moves {d d' : Link P} (hd : s.links.find d.id = some d) (hm : LinkMove s d d')
      (hl : t.links = s.links.save d') (hi : t.inFlight = s.inFlight) : Works s t
  | clears {n : Nat} (hn : n ∈ s.inFlight) (hl : t.links = s.links)
      (hi : t.inFlight = s.inFlight.filter (· ≠ n)) : Works s t

theorem works_onRun {n i : Nat} {move : HandlerRun → Option HandlerRun}
    (hmove : ∀ r r', move r = some r' → RunMove r r') (h : s.onRun n i move = some t) : Works s t := by
  obtain ⟨d, r, r', hd, rfl, hb, hr, hr', rfl⟩ := onRun_eq_some h
  exact .moves hd (.run hb i hr (hmove r r' hr')) rfl rfl

theorem works_start {n : Nat} (h : s.start n = some t) : Works s t := by
  obtain ⟨d, hd, hc⟩ := Option.bind_eq_some_iff.mp h
  obtain rfl := Table.key_of_find hd
  by_cases hb : d.started ∨ d.state ≠ .pending
  · rw [if_pos hb] at hc
    cases hc
  · rw [if_neg hb] at hc
    simp only [not_or, Bool.not_eq_true, not_not] at hb
    split at hc
    · rename_i hf
      cases hc
      refine .moves hd (.begin hb.1 hb.2 fun p hp => ?_) rfl rfl
      simpa [hp] using hf
    · rename_i hr
      cases hc
      obtain ⟨p, hp, hr⟩ : ∃ p, d.previous = some p ∧ s.promise p = some .rejected := by
        cases hp : d.previous with
        | none => simp [hp] at hr
        | some p => exact ⟨p, rfl, by simpa [hp] using hr⟩
      exact .moves hd (.pass hb.1 hb.2 p hp hr) rfl rfl
    · cases hc

theorem works_finish {n : Nat} (h : s.finish n = some t) : Works s t := by
  obtain ⟨d, hd, hc⟩ := Option.bind_eq_some_iff.mp h
  obtain rfl := Table.key_of_find hd
  split at hc
  · rename_i hb
    split at hc
    · rename_i hr
      cases hc
      exact .moves hd (.reject hb.1 hb.2 hr) rfl rfl
    · split at hc
      · rename_i hr
        cases hc
        refine .moves hd (.fulfil hb.1 hb.2 fun r hmem => ?_) rfl rfl
        simpa using List.all_eq_true.mp hr r hmem
      · cases hc
  · cases hc

theorem works_step {a : Action P} (ha : a.own = true) (h : step s a = some t) : Works s t := by
  cases a with
  | publish | subscribe | unsubscribe => cases ha
  | start n => exact works_start h
  | invoke n i => exact works_onRun (fun r r' hr => (invoke_move hr).1) h
  | settle n i result => exact works_onRun (fun r r' hr => (settle_move hr).1) h
  | timeout n i =>
      obtain ⟨u, hu, rfl⟩ := Option.map_eq_some_iff.mp h
      cases works_onRun (fun r r' hr => (timeout_move hr).1) hu with
      | moves hd hm hl hi => exact .moves hd hm hl hi
      | clears hn hl hi => exact .clears hn hl hi
  | wake n i => exact works_onRun (fun r r' hr => (wake_move hr).1) h
  | finish n => exact works_finish h
  | cleanup n =>
      obtain ⟨d, -, hc⟩ := Option.bind_eq_some_iff.mp h
      split at hc
      · rename_i hs
        cases hc
        exact .clears hs.2 rfl rfl
      · cases hc

theorem Works.work_lt (hi : DeliveryInv s) (h : Works s t) : t.work < s.work := by
  cases h with
  | @moves d d' hd hm hl hflight =>
      have hless := hm.work_lt (hi.sound _ _ hd)
      have hsave := Table.total_save s.links Link.work d'
      rw [show Keyed.key d' = d.id from hm.id_eq, hd, Option.elim_some] at hsave
      rw [State.work, State.work, hl, hflight]
      omega
  | @clears n hn hl hflight =>
      have hshorter : (s.inFlight.filter (· ≠ n)).length < s.inFlight.length := by
        apply List.length_filter_lt_length_iff_exists.mpr
        exact ⟨n, hn, by simp⟩
      rw [State.work, State.work, hl, hflight]
      omega

theorem sum_cost (event : DomainEvent P) (subs : List Subscription) :
    ((subs.map fun sub => (event, sub)).map cost).sum =
      (subs.map fun sub => HandlerRun.rank { sub := sub }).sum + 3 * subs.length := by
  induction subs with
  | nil => rfl
  | cons sub subs ih =>
      have hcost : cost (event, sub) = HandlerRun.rank { sub := sub } + 3 := by
        show 3 * sub.retries + 6 = 3 * (sub.retries + 1 - 0) + 3
        omega
      simp only [List.map_cons, List.sum_cons, List.length_cons, hcost, ih]
      omega

theorem work_publish (hi : LaneInv s) (event : DomainEvent P) :
    (s.publish event).work ≤ s.work + ((matched s (.publish event)).map cost).sum := by
  by_cases h : targets s event = []
  · have hsame : (s.publish event).work = s.work := by
      rw [State.publish, if_pos (by simpa [targets] using h)]
      rfl
    rw [hsame]
    exact Nat.le_add_right _ _
  · have hsave := Table.total_save s.links Link.work (chained s event)
    rw [show Keyed.key (chained s event) = s.counters.published from rfl, find_published hi, Option.elim_none]
      at hsave
    have hflight : (s.publish event).inFlight = s.counters.published :: s.inFlight := by
      rw [State.publish, if_neg (by simpa [targets] using h)]
    have hlink : (chained s event).work =
        2 + ((targets s event).map fun sub => HandlerRun.rank { sub := sub }).sum := by
      rw [Link.work, Link.total, chained, List.map_map]
      rfl
    have hpos : 0 < (targets s event).length := List.length_pos_iff.mpr h
    rw [State.work, publish_links h, hflight, List.length_cons, matched, sum_cost, State.work]
    omega

/-- Every step of its own leaves the bus less to do, and only an event adds to it. -/
theorem work_step {a : Action P} (hi : DeliveryInv s) (h : step s a = some t) :
    t.work + a.own.toNat ≤ s.work + ((matched s a).map cost).sum := by
  cases ha : a.own with
  | true =>
      have hless := (works_step ha h).work_lt hi
      rw [Bool.toNat_true]
      omega
  | false =>
      rw [Bool.toNat_false, Nat.add_zero]
      cases a with
      | publish event => cases h; exact work_publish hi.lanes event
      | subscribe | unsubscribe => cases h; exact Nat.le_add_right _ _
      | _ => cases ha

end Links

section Idle

def Flying (s : State P) : Prop := ∀ n ∈ s.inFlight, ∃ d, s.links.find n = some d

theorem flying_step {a : Action P} (hf : Flying s) (h : step s a = some t) : Flying t := by
  intro n hn
  cases step_shape h with
  | still hl _ hflight => rw [hl]; exact hf n (hflight ▸ hn)
  | publish event _ hl _ hflight =>
      rw [hflight] at hn
      rw [find_publish hl]
      split
      · exact ⟨_, rfl⟩
      · rename_i hne
        exact hf n ((List.mem_cons.mp hn).resolve_left hne)
  | @move d d' hd hm hl _ hflight =>
      rw [find_move hm hl]
      split
      · exact ⟨d', rfl⟩
      · exact hf n (hflight ▸ hn)
  | cleanup _ _ hl hflight =>
      rw [hl]
      rw [hflight] at hn
      exact hf n (List.mem_filter.mp hn).1

theorem flying_run {as : List (Action P)} (h : run step init as = some s) : Flying s :=
  invariant (fun _ _ _ hf hs => flying_step hf hs) h fun _ hn => (by cases hn)

theorem not_idle {a : Action P} (ha : a.driven = true) (h : step s a = some t) : ¬ Idle step Action.driven s := by
  intro hidle
  cases (hidle a ha).symm.trans h

theorem onRun_some {d : Link P} {i : Nat} {r r' : HandlerRun} {move : HandlerRun → Option HandlerRun}
    (hd : s.links.find d.id = some d) (hb : d.started = true) (hr : d.runs[i]? = some r) (hm : move r = some r') :
    s.onRun d.id i move = some
      { s with
        links := s.links.save { d with runs := d.runs.set i r' }
        counters := s.counters.tally r'.phase } := by
  simp only [State.onRun, Option.bind_eq_bind, hd, Option.bind_some, if_pos hb, hr, hm]

/-- A delivery that has begun goes on: the next attempt is due, running or backing
off for one of its handlers, or it is over. -/
theorem not_idle_of_started {d : Link P} (hd : s.links.find d.id = some d) (hb : d.started = true)
    (hs : d.state = .pending) : ¬ Idle step Action.driven s := by
  by_cases hall : ∀ r ∈ d.runs, r.phase = .delivered ∨ r.phase = .failed ∨ r.phase = .crashed
  · by_cases hcrashed : d.runs.any fun r => r.phase = .crashed
    · apply not_idle (a := .finish d.id) rfl
      simp only [step, State.finish, Option.bind_eq_bind, hd, Option.bind_some, hb, hs, and_self, if_true,
        if_pos hcrashed]
      rfl
    · have hover : (d.runs.all fun r => r.phase = .delivered ∨ r.phase = .failed) = true := by
        rw [List.all_eq_true]
        intro r hr
        have hnot : r.phase ≠ .crashed := fun hp => hcrashed (List.any_eq_true.mpr ⟨r, hr, decide_eq_true hp⟩)
        rcases hall r hr with hp | hp | hp
        · simp [hp]
        · simp [hp]
        · exact absurd hp hnot
      apply not_idle (a := .finish d.id) rfl
      simp only [step, State.finish, Option.bind_eq_bind, hd, Option.bind_some, hb, hs, and_self, if_true, if_neg hcrashed,
        if_pos hover]
      rfl
  · simp only [not_forall] at hall
    obtain ⟨r, hr, hp⟩ := hall
    obtain ⟨i, hi⟩ := List.getElem?_of_mem hr
    cases hphase : r.phase with
    | due => exact not_idle (a := .invoke d.id i) rfl (onRun_some hd hb hi (if_pos hphase))
    | running =>
        apply not_idle (a := .timeout d.id i) rfl
        rw [step, onRun_some hd hb hi (if_pos hphase), Option.map_some]
    | backingOff => exact not_idle (a := .wake d.id i) rfl (onRun_some hd hb hi (if_pos hphase))
    | delivered | failed | crashed => simp [hphase] at hp

theorem own_of_driven {a : Action P} (ha : a.driven = true) : a.own = true := by
  cases a with
  | settle => cases ha
  | _ => exact ha

/-- The first link that has not settled can go on: what it is chained on has settled. -/
theorem not_idle_of_pending (hi : LaneInv s) {d : Link P} (hd : s.links.find d.id = some d)
    (hs : d.state = .pending)
    (hfirst : ∀ e, s.links.find e.id = some e → e.state = .pending → d.id ≤ e.id) : ¬ Idle step Action.driven s := by
  cases hb : d.started with
  | true => exact not_idle_of_started hd hb hs
  | false =>
      have hopen : ¬ (d.started = true ∨ d.state ≠ .pending) := by simp [hb, hs]
      obtain ⟨p, hp, hsettled⟩ : ∃ p, d.previous.elim (some .fulfilled) s.promise = some p ∧ p ≠ .pending := by
        cases hprevious : d.previous with
        | none => exact ⟨.fulfilled, rfl, by simp⟩
        | some q =>
            have hmember : Member s (lane d.event) d.id := ⟨d, hd, rfl⟩
            have hq : previousOf s d.id = some q := by
              rw [previousOf, hd]
              exact hprevious
            obtain ⟨⟨e, he, -⟩, hless, -⟩ := (hi.chain _).link d.id hmember q hq
            obtain rfl := Table.key_of_find he
            refine ⟨e.state, congrArg (Option.map Link.state) he, fun hpending => ?_⟩
            exact absurd (hfirst e he hpending) (Nat.not_le.mpr hless)
      cases p with
      | pending => exact absurd rfl hsettled
      | fulfilled | rejected =>
          apply not_idle (a := .start d.id) rfl
          simp only [step, State.start, Option.bind_eq_bind, hd, Option.bind_some, if_neg hopen, hp]
          rfl

theorem inFlight_of_idle (hi : LaneInv s) (hf : Flying s) (hidle : Idle step Action.driven s) : s.inFlight = [] := by
  by_contra hne
  obtain ⟨n, hn⟩ := List.exists_mem_of_ne_nil _ hne
  obtain ⟨d, hd⟩ := hf n hn
  obtain rfl := Table.key_of_find hd
  by_cases hs : d.state = .pending
  · classical
    have hsome : ∃ m e, s.links.find m = some e ∧ e.state = .pending := ⟨_, d, hd, hs⟩
    obtain ⟨e, he, hpending⟩ := Nat.find_spec hsome
    have hkey : e.id = Nat.find hsome := Table.key_of_find he
    refine not_idle_of_pending hi (by rw [hkey, he]) hpending (fun x hx hxp => ?_) hidle
    rw [hkey]
    exact Nat.find_min' hsome ⟨x, hx, hxp⟩
  · have hclear : d.state ≠ .pending ∧ d.id ∈ s.inFlight := ⟨hs, hn⟩
    apply absurd hidle
    apply not_idle (a := .cleanup d.id) rfl
    rw [step, State.cleanup, show s.links.find d.id = some d from hd]
    exact if_pos hclear

end Idle

section Rest

/-- The bus goes on with a delivery; what becomes of the loops of `drain` is not counted. -/
def DrainAction.own : DrainAction P → Bool
  | .bus a => a.own
  | .drain | .resume _ => false

namespace Drains

variable {s t : Drains P}

def given (s : Drains P) : DrainAction P → List Nat
  | .bus action => (matched s.bus action).map cost
  | .drain | .resume _ => []

structure AtRest (s : Drains P) : Prop where
  idle : s.bus.inFlight = []
  lanes : s.bus.lanes.rows = []
  settled : ∀ n d, s.bus.links.find n = some d → d.state ≠ .pending
  returns : ∀ call promises, s.calls[call]? = some (.awaiting promises) →
    s.step (.resume call) = some { s with calls := s.calls.set call .returned }

theorem work_step {a : DrainAction P} (hi : DeliveryInv s.bus) (h : s.step a = some t) :
    DeliveryInv t.bus ∧ t.bus.work + a.own.toNat ≤ s.bus.work + (s.given a).sum := by
  cases a with
  | bus action =>
      obtain ⟨bus, hbus, rfl⟩ := Option.map_eq_some_iff.mp h
      exact ⟨deliveryInv_step hi hbus, Bus.work_step hi hbus⟩
  | drain =>
      obtain rfl := Option.some.inj h
      exact ⟨hi, Nat.le_refl _⟩
  | resume call =>
      obtain rfl := resume_eq_some h
      exact ⟨hi, Nat.le_refl _⟩

theorem run_bus {bus : State P} {bs : List (Action P)} (h : run Bus.step s.bus bs = some bus) :
    run step s (bs.map .bus) = some { s with bus := bus } := by
  induction bs generalizing s with
  | nil => cases h; rfl
  | cons b bs ih =>
      obtain ⟨u, hu, hrest⟩ := run_cons.mp h
      refine run_cons.mpr ⟨{ s with bus := u }, ?_, ih hrest⟩
      rw [step, hu, Option.map_some]

theorem atRest_of_idle (hi : LaneInv s.bus) (hlanes : LanesFly s.bus) (hf : Flying s.bus)
    (hidle : Idle Bus.step Action.driven s.bus) : s.AtRest := by
  have hempty := inFlight_of_idle hi hf hidle
  have hsettled : ∀ n d, s.bus.links.find n = some d → d.state ≠ .pending := by
    intro n d hd hp
    have hin := hi.flying n d hd hp
    rw [hempty] at hin
    exact absurd hin List.not_mem_nil
  refine ⟨hempty, lanes_of_idle hlanes hempty, hsettled, fun call promises hcall => ?_⟩
  have hall : (promises.all fun p => s.bus.promise p ≠ some .pending) = true := by
    refine List.all_eq_true.mpr fun p _ => decide_eq_true fun hp => ?_
    obtain ⟨d, hd, hstate⟩ := Option.map_eq_some_iff.mp hp
    exact hsettled p d hd hstate
  have hloop : s.bus.drainLoop = .returned := by rw [State.drainLoop, hempty, List.isEmpty_nil, if_pos rfl]
  rw [step, resume, hcall]
  exact (if_pos hall).trans (by rw [hloop])

end Drains

/-- In every run the bus takes no more steps than its events call for: six for each
matching subscription and three for each retry. When it can go on by itself no further,
every chained promise has settled and every `drain` returns; and from every state it
comes to that, also when no handler ends any more. -/
theorem drain_terminates {as : List (DrainAction P)} {s : Drains P} (h : run Drains.step {} as = some s) :
    as.countP DrainAction.own ≤ (trace Drains.step Drains.given {} as).sum ∧
    (Idle step Action.driven s.bus → s.AtRest) ∧
    ∃ (bs : List (Action P)) (t : Drains P), (∀ b ∈ bs, b.driven = true) ∧
      run Drains.step s (bs.map .bus) = some t ∧ t.calls = s.calls ∧ t.AtRest := by
  have hbus : run step init _ = some s.bus := Drains.bus_run h
  have hrest {t : Drains P} {bs : List (Action P)} (hbs : run step init bs = some t.bus)
      (hidle : Idle step Action.driven t.bus) : t.AtRest :=
    Drains.atRest_of_idle (laneInv_run hbs) (lanesFly_run hbs) (flying_run hbs) hidle
  refine ⟨?_, hrest hbus, ?_⟩
  · have hwork := work_along DrainAction.own (fun s : Drains P => s.bus.work)
      (fun _ _ _ hi hs => Drains.work_step hi hs) h DeliveryInv.init
    have hstart : (Drains.bus ({} : Drains P)).work = 0 := rfl
    simp only [hstart, Nat.zero_add] at hwork
    exact Nat.le_of_add_right_le hwork
  · obtain ⟨bs, u, hdriven, hrun, -, hidle⟩ := exists_idle (P := DeliveryInv) Action.driven State.work
      (fun _ _ _ hi ha hs => ⟨deliveryInv_step hi hs, (works_step (own_of_driven ha) hs).work_lt hi⟩)
      (deliveryInv_run hbus)
    exact ⟨bs, { s with bus := u }, hdriven, Drains.run_bus hrun, rfl,
      hrest (t := { s with bus := u }) (run_append.mpr ⟨s.bus, hbus, hrun⟩) hidle⟩

theorem stuck_handler_is_drained : ∃ (s : Drains Unit) (bs : List (Action Unit)) (t : Drains Unit),
    run Drains.step {} (followUp.take 5) = some s ∧
    s.calls = [.awaiting [0]] ∧ (∀ b ∈ bs, b.driven = true) ∧ run Drains.step s (bs.map .bus) = some t ∧
    t.step (.resume 0) = some { t with calls := [.returned] } := by
  obtain ⟨-, -, bs, t, hdriven, hrun, hcalls, hrest⟩ := @drain_terminates Unit (followUp.take 5) _ rfl
  refine ⟨_, bs, t, rfl, rfl, hdriven, hrun, ?_⟩
  have hreturns := hrest.returns 0 [0] (by rw [hcalls]; rfl)
  rw [hcalls] at hreturns
  exact hreturns

end Rest

end EspClawPlatform.Bus
