import Mathlib.Algebra.Order.BigOperators.Group.List
import Mathlib.Algebra.Order.Group.Nat
import EspClawPlatform.Bus.Attempts
import EspClawPlatform.Bus.Ordering

namespace EspClawPlatform.Bus

open Run

variable {P : Type} {s t : Timed P} {n i k : Nat}

inductive TimedShape (s : Timed P) : TimedAction P → Timed P → Prop
  | bus {action : Action P} {bus : State P} (h : Bus.step s.bus action = some bus)
      (hinvoke : ∀ n i, action ≠ .invoke n i) (hsettle : ∀ n i result, action ≠ .settle n i result)
      (htimeout : ∀ n i, action ≠ .timeout n i) : TimedShape s (.bus action) { s with bus := bus }
  | invoke {n i : Nat} {bus : State P} (h : Bus.step s.bus (.invoke n i) = some bus) :
      TimedShape s (.bus (.invoke n i))
        { bus := bus, attempts := s.attempts.set (n, i) (s.attemptsAt n i ++ [.fresh]) }
  | ends {n i k : Nat} {a : Attempt} {bus : State P} (result : Except Thrown Unit)
      (hk : (s.attemptsAt n i)[k]? = some a) (hended : a.ended = false) (ha : a.promise = .pending)
      (h : Bus.step s.bus (.settle n i result) = some bus) :
      TimedShape s (.ends n i k result)
        (s.change bus n i k { a with promise := settlement result, ended := true })
  | late {n i k : Nat} {a : Attempt} (result : Except Thrown Unit) (hk : (s.attemptsAt n i)[k]? = some a)
      (hended : a.ended = false) (ha : a.promise ≠ .pending) :
      TimedShape s (.ends n i k result) (s.change s.bus n i k { a with ended := true })
  | fires {n i k : Nat} {a : Attempt} {bus : State P} (hk : (s.attemptsAt n i)[k]? = some a)
      (hfired : a.fired = false) (ha : a.promise = .pending) (h : Bus.step s.bus (.timeout n i) = some bus) :
      TimedShape s (.fires n i k) (s.change bus n i k { a with promise := .rejected, fired := true })
  | void {n i k : Nat} {a : Attempt} {t : Timed P} (hk : (s.attemptsAt n i)[k]? = some a)
      (hended : a.ended = false) (hfired : a.fired = false) (ha : a.promise ≠ .pending) :
      TimedShape s (.fires n i k) t

theorem timed_shape {a : TimedAction P} (h : s.step a = some t) : TimedShape s a t := by
  cases a with
  | bus action =>
      cases action with
      | invoke n i =>
          obtain ⟨bus, hbus, rfl⟩ := Option.map_eq_some_iff.mp h
          exact .invoke hbus
      | settle | timeout => cases h
      | publish | subscribe | unsubscribe =>
          obtain rfl := Option.some.inj h
          exact .bus rfl (fun _ _ ha => by cases ha) (fun _ _ _ ha => by cases ha) fun _ _ ha => by cases ha
      | start | wake | finish | cleanup =>
          obtain ⟨bus, hbus, rfl⟩ := Option.map_eq_some_iff.mp h
          exact .bus hbus (fun _ _ ha => by cases ha) (fun _ _ _ ha => by cases ha) fun _ _ ha => by cases ha
  | ends n i k result =>
      obtain ⟨a, hk, h⟩ := Option.bind_eq_some_iff.mp h
      split at h
      · cases h
      · rename_i hended
        obtain ⟨bus, hbus, rfl⟩ := Option.map_eq_some_iff.mp h
        by_cases ha : a.promise = .pending
        · rw [if_pos ha] at hbus
          rw [Attempt.settle, if_pos ha]
          exact .ends result hk (Bool.eq_false_iff.mpr hended) ha hbus
        · rw [if_neg ha] at hbus
          obtain rfl := Option.some.inj hbus
          rw [Attempt.settle, if_neg ha]
          exact .late result hk (Bool.eq_false_iff.mpr hended) ha
  | fires n i k =>
      obtain ⟨a, hk, h⟩ := Option.bind_eq_some_iff.mp h
      split at h
      · cases h
      · rename_i hidle
        rw [Bool.or_eq_true, not_or, Bool.not_eq_true, Bool.not_eq_true] at hidle
        obtain ⟨bus, hbus, rfl⟩ := Option.map_eq_some_iff.mp h
        by_cases ha : a.promise = .pending
        · rw [if_pos ha] at hbus
          rw [Attempt.settle, if_pos ha]
          exact .fires hk hidle.2 ha hbus
        · exact .void hk hidle.1 hidle.2 ha

theorem attemptsAt_set (bus : State P) (attempts : List Attempt) (n' i' : Nat) :
    (Timed.mk bus (s.attempts.set (n, i) attempts)).attemptsAt n' i' =
      if n' = n ∧ i' = i then attempts else s.attemptsAt n' i' := by
  rw [Timed.attemptsAt, Table.get_set]
  by_cases h : n' = n ∧ i' = i
  · rw [if_pos h, if_pos (by rw [h.1, h.2])]
    rfl
  · rw [if_neg h, if_neg fun he => h (Prod.mk.inj he)]
    rfl

structure Watched (s : Timed P) : Prop where
  lanes : LaneInv s.bus
  idle : ∀ n i, s.bus.runAt n i = none → s.attemptsAt n i = []
  attended : ∀ n i r, s.bus.runAt n i = some r → Attended r (s.attemptsAt n i)

theorem watched_init : Watched ({} : Timed P) where
  lanes := .init
  idle n i _ := rfl
  attended n i r hr := by cases hr

theorem watched_turn {bus : State P} {l j : Nat} {move : HandlerRun → Option HandlerRun} {attempts : List Attempt}
    (hw : Watched s) (hlanes : LaneInv bus)
    (h : ∀ n i, (bus.runAt n i = s.bus.runAt n i ∧ ¬ (n = l ∧ i = j)) ∨
      n = l ∧ i = j ∧ ∃ r r', s.bus.runAt n i = some r ∧ bus.runAt n i = some r' ∧ move r = some r')
    (hturn : ∀ r r', Attended r (s.attemptsAt l j) → move r = some r' → Attended r' attempts) :
    Watched { bus := bus, attempts := s.attempts.set (l, j) attempts } := by
  have hat : ∀ n i r, bus.runAt n i = some r →
      Attended r (if n = l ∧ i = j then attempts else s.attemptsAt n i) := by
    intro n i r hr
    rcases h n i with ⟨hsame, hother⟩ | ⟨rfl, rfl, r₀, r', hr₀, hr', hmove⟩
    · rw [if_neg hother]
      exact hw.attended n i r (hsame ▸ hr)
    · rw [if_pos ⟨rfl, rfl⟩]
      obtain rfl := Option.some.inj (hr.symm.trans hr')
      exact hturn r₀ r (hw.attended n i r₀ hr₀) hmove
  refine ⟨hlanes, fun n i hnone => ?_, fun n i r hr => ?_⟩
  · rw [attemptsAt_set]
    rcases h n i with ⟨hsame, hother⟩ | ⟨-, -, r₀, r', -, hr', -⟩
    · rw [if_neg hother]
      exact hw.idle n i (hsame ▸ hnone)
    · rw [hnone] at hr'
      cases hr'
  · rw [attemptsAt_set]
    exact hat n i r hr

theorem watched_bus {action : Action P} {bus : State P} (hw : Watched s) (h : Bus.step s.bus action = some bus)
    (hinvoke : ∀ n i, action ≠ .invoke n i) (hsettle : ∀ n i result, action ≠ .settle n i result)
    (htimeout : ∀ n i, action ≠ .timeout n i) : Watched { s with bus := bus } := by
  have hnew : s.bus.links.find s.bus.counters.published = none := find_published hw.lanes
  refine ⟨laneInv_step hw.lanes h, fun n i hnone => ?_, fun n i r hr => ?_⟩
  · cases run_shape (n := n) (i := i) h with
    | same hsame => exact hw.idle n i (hsame ▸ hnone)
    | chained _ hn =>
        refine hw.idle n i ?_
        rw [State.runAt, hn, hnew]
        rfl
    | turn _ ht =>
        rw [ht] at hnone
        cases hnone
  · cases run_shape (n := n) (i := i) h with
    | same hsame => exact hw.attended n i r (hsame ▸ hr)
    | chained _ hn hnew' =>
        rw [hnew'] at hr
        obtain ⟨sub, -, rfl⟩ := Option.map_eq_some_iff.mp hr
        have hidle : s.attemptsAt n i = [] := hw.idle n i (by rw [State.runAt, hn, hnew]; rfl)
        change Attended _ (s.attemptsAt n i)
        rw [hidle]
        exact attended_new sub
    | turn hr₀ ht hm =>
        obtain rfl := Option.some.inj (hr.symm.trans ht)
        cases hm with
        | invoke => exact absurd rfl (hinvoke n i)
        | settle => exact absurd rfl (hsettle n i _)
        | timeout => exact absurd rfl (htimeout n i)
        | wake hm => exact attended_wake (hw.attended n i _ hr₀) hm

theorem exists_run {a : Attempt} (hw : Watched s) (hk : (s.attemptsAt n i)[k]? = some a) :
    ∃ r, s.bus.runAt n i = some r ∧ Attended r (s.attemptsAt n i) := by
  cases hr : s.bus.runAt n i with
  | none =>
      rw [hw.idle n i hr] at hk
      cases hk
  | some r => exact ⟨r, rfl, hw.attended n i r hr⟩

theorem watched_late {a : Attempt} (hw : Watched s) (hk : (s.attemptsAt n i)[k]? = some a)
    (ha : a.promise ≠ .pending) (hended : a.ended = false) :
    Watched (s.change s.bus n i k { a with ended := true }) := by
  refine ⟨hw.lanes, fun l j hnone => ?_, fun l j r hr => ?_⟩
  · rw [Timed.change, attemptsAt_set]
    split
    · rename_i he
      have hidle := hw.idle l j hnone
      rw [he.1, he.2] at hidle
      rw [hidle] at hk
      cases hk
    · exact hw.idle l j hnone
  · rw [Timed.change, attemptsAt_set]
    have hattended := hw.attended l j r hr
    split
    · rename_i he
      rw [he.1, he.2] at hattended
      exact attended_late hattended hk ha hended
    · exact hattended

def Timed.waits (s : Timed P) (link target attempt : Nat) : Bool :=
  (s.attemptsAt link target)[attempt]?.any fun a => a.promise = .pending

/-- What a step is for the bus: a result that comes too late is nothing. -/
def Timed.seen (s : Timed P) : TimedAction P → List (Action P)
  | .bus action => [action]
  | .ends link target attempt result => if s.waits link target attempt then [.settle link target result] else []
  | .fires link target attempt => if s.waits link target attempt then [.timeout link target] else []

theorem waits_eq {a : Attempt} (hk : (s.attemptsAt n i)[k]? = some a) :
    s.waits n i k = decide (a.promise = .pending) := by
  rw [Timed.waits, hk, Option.any_some]

theorem watched_step {a : TimedAction P} (hw : Watched s) (h : s.step a = some t) :
    Watched t ∧ run Bus.step s.bus (s.seen a) = some t.bus := by
  cases timed_shape h with
  | bus hbus hinvoke hsettle htimeout =>
      exact ⟨watched_bus hw hbus hinvoke hsettle htimeout, run_singleton.mpr hbus⟩
  | invoke hbus =>
      exact ⟨watched_turn hw (laneInv_step hw.lanes hbus) (fun _ _ => runAt_onRun hbus)
        fun _ _ hat hm => attended_invoke hat hm, run_singleton.mpr hbus⟩
  | ends result hk hended ha hbus =>
      refine ⟨watched_turn hw (laneInv_step hw.lanes hbus) (fun _ _ => runAt_onRun hbus) fun r r' hat hm => ?_, ?_⟩
      · obtain ⟨o, houtcomes, hphase, ho⟩ := settle_records hm
        obtain rfl := fresh_of_pending hat hk ha
        exact attended_settled hat hk ha ho houtcomes hphase
      · rw [Timed.seen, waits_eq hk, if_pos (decide_eq_true ha)]
        exact run_singleton.mpr hbus
  | late result hk hended ha =>
      refine ⟨watched_late hw hk ha hended, ?_⟩
      rw [Timed.seen, waits_eq hk, if_neg (by simpa using ha)]
      rfl
  | fires hk hfired ha hbus =>
      obtain ⟨u, hu, rfl⟩ := Option.map_eq_some_iff.mp hbus
      have hruns := fun l j => runAt_onRun (n := l) (i := j) hu
      refine ⟨watched_turn hw (laneInv_step hw.lanes hbus) hruns fun r r' hat hm => ?_, ?_⟩
      · obtain ⟨houtcomes, hphase⟩ := timeout_records hm
        exact attended_settled (o := .timedOut) hat hk ha ⟨rfl, rfl⟩ houtcomes hphase
      · rw [Timed.seen, waits_eq hk, if_pos (decide_eq_true ha)]
        exact run_singleton.mpr hbus
  | void hk hended hfired ha =>
      obtain ⟨r, -, hat⟩ := exists_run hw hk
      rw [(fired_of_settled hat hk ha hended).1] at hfired
      cases hfired

/-- The timed bus refines the bus, on which every attempt has one outcome. -/
theorem timed_run {as : List (TimedAction P)} (h : run Timed.step {} as = some s) :
    Watched s ∧ run Bus.step init (trace Timed.step Timed.seen {} as) = some s.bus :=
  ⟨invariant (fun _ _ _ hw hs => (watched_step hw hs).1) h watched_init,
    run_trace (P := Watched) Timed.bus (fun _ _ _ hw hs => watched_step hw hs) h watched_init⟩

section Counters

variable {u v : State P}

theorem delivered_tally (c : EventBusStats) (phase : RunPhase) :
    (c.tally phase).delivered = c.delivered + (decide (phase = .delivered)).toNat := by
  cases phase <;> rfl

theorem timedOut_tally (c : EventBusStats) (phase : RunPhase) : (c.tally phase).timedOut = c.timedOut := by
  cases phase <;> rfl

theorem counters_onRun {move : HandlerRun → Option HandlerRun} (h : u.onRun n i move = some v) :
    ∃ r r', move r = some r' ∧ v.counters.timedOut = u.counters.timedOut ∧
      v.counters.delivered = u.counters.delivered + (decide (r'.phase = .delivered)).toNat := by
  obtain ⟨r, r', hr, -, hcounters⟩ := total_onRun h
  exact ⟨r, r', hr, by rw [hcounters, timedOut_tally], by rw [hcounters, delivered_tally]⟩

theorem counters_step {action : Action P} (h : Bus.step u action = some v)
    (hsettle : ∀ n i result, action ≠ .settle n i result) (htimeout : ∀ n i, action ≠ .timeout n i) :
    v.counters.timedOut = u.counters.timedOut ∧ v.counters.delivered = u.counters.delivered := by
  cases action with
  | settle n i result => exact absurd rfl (hsettle n i result)
  | timeout n i => exact absurd rfl (htimeout n i)
  | publish event =>
      cases h
      rw [State.publish]
      split <;> exact ⟨rfl, rfl⟩
  | subscribe | unsubscribe => cases h; exact ⟨rfl, rfl⟩
  | invoke n i =>
      obtain ⟨r, r', hr, htimedOut, hdelivered⟩ := counters_onRun h
      refine ⟨htimedOut, hdelivered.trans ?_⟩
      unfold HandlerRun.invoke at hr
      split at hr <;> cases hr
      rfl
  | wake n i =>
      obtain ⟨r, r', hr, htimedOut, hdelivered⟩ := counters_onRun h
      refine ⟨htimedOut, hdelivered.trans ?_⟩
      unfold HandlerRun.wake at hr
      split at hr <;> cases hr
      rfl
  | start n =>
      obtain ⟨d, hd, hc⟩ := Option.bind_eq_some_iff.mp h
      split at hc
      · cases hc
      · split at hc <;> cases hc <;> exact ⟨rfl, rfl⟩
  | finish n =>
      obtain ⟨d, hd, hc⟩ := Option.bind_eq_some_iff.mp h
      split at hc
      · split at hc
        · cases hc
          exact ⟨rfl, rfl⟩
        · split at hc <;> cases hc
          exact ⟨rfl, rfl⟩
      · cases hc
  | cleanup n =>
      obtain ⟨d, hd, hc⟩ := Option.bind_eq_some_iff.mp h
      split at hc <;> cases hc
      exact ⟨rfl, rfl⟩

theorem delivered_settle {result : Except Thrown Unit} (h : Bus.step u (.settle n i result) = some v) :
    v.counters.timedOut = u.counters.timedOut ∧ v.counters.delivered =
      u.counters.delivered + (decide (settlement result = .fulfilled)).toNat := by
  obtain ⟨r, r', hr, htimedOut, hdelivered⟩ := counters_onRun h
  refine ⟨htimedOut, hdelivered.trans (congrArg (u.counters.delivered + Bool.toNat ·) ?_)⟩
  unfold HandlerRun.settle at hr
  split at hr
  · cases result with
    | ok =>
        obtain rfl := Option.some.inj hr
        rfl
    | error value =>
        obtain rfl := Option.some.inj hr
        exact decide_eq_decide.mpr ⟨fun hp => absurd hp (fail_phase_cases _ _ _).2, fun hp => by cases hp⟩
  · cases hr

theorem delivered_timeout (h : Bus.step u (.timeout n i) = some v) :
    v.counters.timedOut = u.counters.timedOut + 1 ∧ v.counters.delivered = u.counters.delivered := by
  obtain ⟨w, hw, rfl⟩ := Option.map_eq_some_iff.mp h
  obtain ⟨r, r', hr, htimedOut, hdelivered⟩ := counters_onRun hw
  refine ⟨congrArg (· + 1) htimedOut, hdelivered.trans ?_⟩
  unfold HandlerRun.timeout at hr
  split at hr
  · obtain rfl := Option.some.inj hr
    rw [decide_eq_false (fail_phase_cases _ _ _).2]
    rfl
  · cases hr

end Counters

section Count

variable {p : Attempt → Bool}

def Timed.count (s : Timed P) (p : Attempt → Bool) : Nat := s.attempts.total fun row => row.2.countP p

theorem count_set (bus : State P) (attempts : List Attempt) :
    (Timed.mk bus (s.attempts.set (n, i) attempts)).count p + (s.attemptsAt n i).countP p =
      s.count p + attempts.countP p := by
  have hsave := Table.total_save s.attempts (fun row => row.2.countP p) ((n, i), attempts)
  have hfind : (s.attempts.find (n, i)).elim 0 (fun row => row.2.countP p) = (s.attemptsAt n i).countP p := by
    rw [Timed.attemptsAt, Table.get]
    cases s.attempts.find (n, i) <;> rfl
  rw [← hfind]
  exact hsave

theorem count_change (bus : State P) {a : Attempt} (hk : (s.attemptsAt n i)[k]? = some a) (a' : Attempt) :
    (s.change bus n i k a').count p + (p a).toNat = s.count p + (p a').toNat := by
  have hset : (s.change bus n i k a').count p + _ = _ := count_set bus ((s.attemptsAt n i).set k a')
  have hsum := Table.sum_set hk (fun a => (p a).toNat) a'
  rw [← Table.countP_eq_sum, ← Table.countP_eq_sum] at hsum
  omega

structure Tally (s : Timed P) : Prop where
  delivered : s.bus.counters.delivered = s.count fun a => a.promise = .fulfilled
  timedOut : s.bus.counters.timedOut = s.count Attempt.fired

theorem tally_change {bus : State P} {a a' : Attempt} (hs : Tally s) (hk : (s.attemptsAt n i)[k]? = some a)
    (hd : bus.counters.delivered + (decide (a.promise = .fulfilled)).toNat =
      s.bus.counters.delivered + (decide (a'.promise = .fulfilled)).toNat)
    (ht : bus.counters.timedOut + a.fired.toNat = s.bus.counters.timedOut + a'.fired.toNat) :
    Tally (s.change bus n i k a') := by
  have hdelivered : _ = _ := count_change (p := fun a => a.promise = .fulfilled) bus hk a'
  have htimedOut : _ = _ := count_change (p := Attempt.fired) bus hk a'
  have hsd := hs.delivered
  have hst := hs.timedOut
  constructor
  · change bus.counters.delivered = _
    omega
  · change bus.counters.timedOut = _
    omega

theorem tally_step {a : TimedAction P} (hw : Watched s) (hs : Tally s) (h : s.step a = some t) : Tally t := by
  cases timed_shape h with
  | bus hbus hinvoke hsettle htimeout =>
      obtain ⟨htimedOut, hdelivered⟩ := counters_step hbus hsettle htimeout
      exact ⟨hdelivered.trans hs.delivered, htimedOut.trans hs.timedOut⟩
  | @invoke l j bus hbus =>
      obtain ⟨htimedOut, hdelivered⟩ := counters_step hbus (fun _ _ _ ha => by cases ha) fun _ _ ha => by cases ha
      have hsame : ∀ q : Attempt → Bool, q .fresh = false → (Timed.mk bus (s.attempts.set (l, j)
          (s.attemptsAt l j ++ [.fresh]))).count q = s.count q := by
        intro q hq
        have hset : _ + (s.attemptsAt l j).countP q = _ := count_set bus (s.attemptsAt l j ++ [.fresh])
        rw [List.countP_append, List.countP_singleton, hq] at hset
        exact Nat.add_right_cancel hset
      exact ⟨hdelivered.trans (hs.delivered.trans (hsame _ rfl).symm),
        htimedOut.trans (hs.timedOut.trans (hsame _ rfl).symm)⟩
  | ends result hk hended ha hbus =>
      obtain ⟨htimedOut, hdelivered⟩ := delivered_settle hbus
      refine tally_change hs hk ?_ (by rw [htimedOut])
      rw [hdelivered, ha]
      rfl
  | late result hk hended ha => exact tally_change hs hk rfl rfl
  | fires hk hfired ha hbus =>
      obtain ⟨htimedOut, hdelivered⟩ := delivered_timeout hbus
      refine tally_change hs hk ?_ ?_
      · rw [hdelivered, ha]
        rfl
      · rw [htimedOut, hfired]
        rfl
  | void hk hended hfired ha =>
      obtain ⟨r, -, hat⟩ := exists_run hw hk
      rw [(fired_of_settled hat hk ha hended).1] at hfired
      cases hfired

theorem tally_run {as : List (TimedAction P)} (h : run Timed.step {} as = some s) : Tally s := by
  refine (invariant (P := fun s : Timed P => Watched s ∧ Tally s) ?_ h ⟨watched_init, rfl, rfl⟩).2
  exact fun s a t hi hs => ⟨(watched_step hi.1 hs).1, tally_step hi.1 hi.2 hs⟩

theorem fired_not_fulfilled {r : HandlerRun} {attempts : List Attempt} {a : Attempt} (h : Attended r attempts)
    (ha : a ∈ attempts) (hfired : a.fired = true) : a.promise ≠ .fulfilled := by
  obtain ⟨k, hk⟩ := List.getElem?_of_mem ha
  rcases attended_cases h hk with ⟨o, -, hrecord⟩ | ⟨-, rfl, -⟩
  · cases o with
    | succeeded | threw =>
        obtain rfl := hrecord
        cases hfired
    | timedOut =>
        rw [hrecord.1]
        exact PromiseState.noConfusion
  · cases hfired

theorem count_fired_le (hw : Watched s) : s.count Attempt.fired ≤ s.count fun a => a.promise ≠ .fulfilled := by
  refine List.sum_le_sum fun row hrow => List.countP_mono_left fun a ha hfired => ?_
  have hattempts : s.attemptsAt row.1.1 row.1.2 = row.2 := by
    rw [Timed.attemptsAt, Table.get_eq_some.mpr (show ((row.1.1, row.1.2), row.2) ∈ s.attempts.rows from hrow)]
    rfl
  rw [← hattempts] at ha
  obtain ⟨k, hk⟩ := List.getElem?_of_mem ha
  obtain ⟨r, -, hat⟩ := exists_run hw hk
  exact decide_eq_true (fired_not_fulfilled hat ha hfired)

end Count

section Runs

variable {as : List (TimedAction P)}

def TimedAction.LogsMessage : TimedAction P → Prop
  | .bus action => Bus.LogsMessage action
  | .ends n i _ result => Bus.LogsMessage (P := P) (.settle n i result)
  | .fires .. => True

instance (a : TimedAction P) : Decidable a.LogsMessage :=
  match a with
  | .bus action => inferInstanceAs (Decidable (Bus.LogsMessage action))
  | .ends n i _ result => inferInstanceAs (Decidable (Bus.LogsMessage (P := P) (.settle n i result)))
  | .fires .. => inferInstanceAs (Decidable True)

def Timed.matched (s : Timed P) : TimedAction P → List (DomainEvent P × Subscription)
  | .bus action => Bus.matched s.bus action
  | .ends .. | .fires .. => []

theorem matched_seen (h : run Timed.step {} as = some s) :
    trace Bus.step matched init (trace Timed.step Timed.seen {} as) = trace Timed.step Timed.matched {} as := by
  refine trace_trace (P := Watched) Timed.bus ?_ h watched_init
  intro s a t hw hs
  obtain ⟨hwt, hseen⟩ := watched_step hw hs
  refine ⟨hwt, hseen, ?_⟩
  cases a with
  | bus action =>
      obtain ⟨v, hv, -⟩ := run_cons.mp hseen
      rw [Timed.seen, trace_cons hv]
      exact List.append_nil _
  | ends n i k result =>
      rw [Timed.seen] at hseen ⊢
      split
      · rename_i hwaits
        rw [if_pos hwaits] at hseen
        obtain ⟨v, hv, -⟩ := run_cons.mp hseen
        rw [trace_cons hv]
        rfl
      · rfl
  | fires n i k =>
      rw [Timed.seen] at hseen ⊢
      split
      · rename_i hwaits
        rw [if_pos hwaits] at hseen
        obtain ⟨v, hv, -⟩ := run_cons.mp hseen
        rw [trace_cons hv]
        rfl
      · rfl

theorem logs_seen (h : run Timed.step {} as = some s)
    (hlogs : Along Timed.step (fun _ => TimedAction.LogsMessage) {} as) :
    Along Bus.step (fun _ => LogsMessage) init (trace Timed.step Timed.seen {} as) := by
  refine (along_trace (P := Watched) Timed.bus (fun _ _ _ hw hs => watched_step hw hs)
    (fun _ _ _ _ _ => Iff.rfl) h watched_init).mp (along_imp (fun s a ha => ?_) hlogs)
  cases a with
  | bus action => exact ⟨ha, fun _ _ => trivial⟩
  | ends n i k result =>
      rw [Timed.seen]
      split
      · exact ⟨ha, fun _ _ => trivial⟩
      · trivial
  | fires n i k =>
      rw [Timed.seen]
      split
      · exact ⟨trivial, fun _ _ => trivial⟩
      · trivial

theorem earlier_attempts_failed (h : run Timed.step {} as = some s) {bus : State P}
    (hbus : Bus.step s.bus (.invoke n i) = some bus) :
    ∀ a ∈ s.attemptsAt n i, a.promise = .rejected ∧ (a.ended = true ∨ a.fired = true) := by
  obtain ⟨hw, hrun⟩ := timed_run h
  obtain ⟨d, r, r', hd, rfl, -, hr, hr', -⟩ := onRun_eq_some hbus
  have hphase : r.phase = .due := by
    unfold HandlerRun.invoke at hr'
    split at hr'
    · assumption
    · cases hr'
  have hsound := ((deliveryInv_run hrun).sound _ d hd).runs r (List.mem_of_getElem? hr)
  simp only [Sound, hphase] at hsound
  obtain ⟨settled, hattempts, hrecords⟩ := hw.attended d.id i r (runAt_eq_some.mpr ⟨d, hd, hr⟩)
  rw [hphase, if_neg RunPhase.noConfusion, List.append_nil] at hattempts
  intro a ha
  obtain ⟨o, ho, hrecord⟩ := exists_record hrecords (hattempts ▸ ha)
  cases o with
  | succeeded => exact absurd ho hsound.1
  | threw value =>
      obtain rfl := hrecord
      exact ⟨rfl, .inl rfl⟩
  | timedOut => exact ⟨hrecord.1, .inr hrecord.2⟩

theorem attempt_bounds {r : HandlerRun} (hs : Sound r) (hp : r.phase = .delivered ∨ r.phase = .failed) :
    1 ≤ r.attempt ∧ r.attempt ≤ r.sub.retries + 1 := by
  rcases hp with hp | hp
  · simp only [Sound, hp] at hs
    exact ⟨List.length_pos_of_mem hs.1, hs.2⟩
  · simp only [Sound, hp] at hs
    exact ⟨by omega, hs.2.le⟩

theorem attempts_of_finished {r : HandlerRun} (hw : Watched s) (hr : s.bus.runAt n i = some r)
    (hp : r.phase = .delivered ∨ r.phase = .failed) : (s.attemptsAt n i).length = r.attempt := by
  obtain ⟨settled, hattempts, hrecords⟩ := hw.attended n i r hr
  have hphase : r.phase ≠ .running := fun he => by rw [he] at hp; exact hp.elim (fun h => by cases h) fun h => by cases h
  rw [if_neg hphase, List.append_nil] at hattempts
  rw [hattempts]
  exact hrecords.length_eq

def State.targetsAt (s : State P) (n : Nat) : List Subscription :=
  (s.links.find n).elim [] fun d => d.runs.map (·.sub)

theorem targetsAt_published {u v : State P} {event : DomainEvent P} {post : List (Action P)} (hi : LaneInv u)
    (h : run Bus.step u (.publish event :: post) = some v) :
    v.targetsAt u.counters.published = targets u event := by
  cases hd : v.links.find u.counters.published with
  | none =>
      by_cases ht : targets u event = []
      · rw [State.targetsAt, hd, ht]
        rfl
      · obtain ⟨d, hfind, -⟩ := link_of_published hi ht h
        rw [hd] at hfind
        cases hfind
  | some d =>
      obtain ⟨d', hfind, -, hsubs⟩ := link_of_published hi (targets_of_link hi h hd) h
      obtain rfl := Option.some.inj (hd.symm.trans hfind)
      rw [State.targetsAt, hd]
      exact hsubs

/-- In every run the attempts of one handler run come one after another, a success
ends them, and results that come too late are not counted; the targets of an event
stay those of its publication; and with nothing in flight every pair of an event and
a target is accounted for, after at least one attempt and no more than its retries allow. -/
theorem deliveries_are_accounted (h : run Timed.step {} as = some s)
    (hlogs : Along Timed.step (fun _ => TimedAction.LogsMessage) {} as) :
    (∀ pre n i post u, as = pre ++ .bus (.invoke n i) :: post → run Timed.step {} pre = some u →
      ∀ a ∈ u.attemptsAt n i, a.promise = .rejected ∧ (a.ended = true ∨ a.fired = true)) ∧
    s.bus.counters.delivered = s.count (fun a => a.promise = .fulfilled) ∧
    s.bus.counters.timedOut ≤ s.count (fun a => a.promise ≠ .fulfilled) ∧
    (∀ pre event post u, as = pre ++ .bus (.publish event) :: post → run Timed.step {} pre = some u →
      s.bus.targetsAt u.bus.counters.published = targets u.bus event) ∧
    (s.bus.inFlight = [] →
      s.bus.counters.delivered + s.bus.counters.failed = (trace Timed.step Timed.matched {} as).length ∧
      ∀ n i sub, (s.bus.targetsAt n)[i]? = some sub →
        1 ≤ (s.attemptsAt n i).length ∧ (s.attemptsAt n i).length ≤ sub.retries + 1) := by
  obtain ⟨hw, hrun⟩ := timed_run h
  have htally := tally_run h
  have hc := not_crashed_run hrun (logs_seen h hlogs)
  have hi := deliveryInv_run hrun
  refine ⟨?_, htally.delivered, ?_, ?_, fun hidle => ⟨?_, fun n i sub hsub => ?_⟩⟩
  · rintro pre n i post u rfl hu
    obtain ⟨u', hu', hrest⟩ := run_append.mp h
    obtain rfl := Option.some.inj (hu.symm.trans hu')
    obtain ⟨v, hv, -⟩ := run_cons.mp hrest
    obtain ⟨bus, hbus, -⟩ := Option.map_eq_some_iff.mp hv
    exact earlier_attempts_failed hu hbus
  · rw [htally.timedOut]
    exact count_fired_le hw
  · rintro pre event post u rfl hu
    obtain ⟨u', hu', hrest⟩ := run_append.mp h
    obtain rfl := Option.some.inj (hu.symm.trans hu')
    obtain ⟨v, hv, -⟩ := run_cons.mp hrest
    have hwu := (timed_run hu).1
    have hseen := run_trace (P := Watched) Timed.bus (fun _ _ _ hw hs => watched_step hw hs) hrest hwu
    rw [trace_cons hv] at hseen
    exact targetsAt_published hwu.lanes hseen
  · rw [← matched_seen h]
    exact balance_of_idle hrun hc hidle
  · rw [State.targetsAt] at hsub
    cases hd : s.bus.links.find n with
    | none =>
        rw [hd] at hsub
        cases hsub
    | some d =>
        rw [hd, Option.elim_some, List.getElem?_map] at hsub
        obtain ⟨r, hr, rfl⟩ := Option.map_eq_some_iff.mp hsub
        have hfinished := finished_of_idle hi hc hidle hd r (List.mem_of_getElem? hr)
        have hsound := (hi.sound n d hd).runs r (List.mem_of_getElem? hr)
        rw [attempts_of_finished hw (runAt_eq_some.mpr ⟨d, hd, hr⟩) hfinished]
        exact attempt_bounds hsound hfinished

end Runs

def lateResult : List (TimedAction Unit) :=
  [.bus (.subscribe "x.y" { name := "h", retries := some 1 }), .bus (.publish (sampleEvent "e1")), .bus (.start 0),
   .bus (.invoke 0 0), .fires 0 0 0, .bus (.wake 0 0), .bus (.invoke 0 0), .ends 0 0 0 (.ok ()),
   .ends 0 0 1 (.ok ()), .bus (.finish 0), .bus (.cleanup 0)]

theorem late_result_is_not_counted : ∃ s, run Timed.step {} lateResult = some s ∧
    s.bus.counters.delivered + s.bus.counters.failed = 1 ∧
      1 ≤ (s.attemptsAt 0 0).length ∧ (s.attemptsAt 0 0).length ≤ 2 := by
  obtain ⟨-, -, -, -, hidle⟩ := @deliveries_are_accounted Unit _ lateResult rfl (by decide)
  obtain ⟨hbalance, hbounds⟩ := hidle rfl
  exact ⟨_, rfl, hbalance, hbounds 0 0 _ rfl⟩

end EspClawPlatform.Bus
