import EspClawPlatform.Bus.Accounting

namespace EspClawPlatform.Bus

open Run

variable {P : Type}

/-- A call of `withTimeout`: its promise, whether the handler has ended, and whether the timer has gone off. -/
structure Attempt where
  promise : PromiseState := .pending
  ended : Bool := false
  fired : Bool := false
  deriving DecidableEq

def Attempt.fresh : Attempt := {}

/-- The bus, with the calls of `withTimeout` for each handler run, oldest first. -/
structure Timed (P : Type) where
  bus : State P := {}
  attempts : Table ((Nat × Nat) × List Attempt) := .empty

inductive TimedAction (P : Type)
  | bus (action : Action P)
  | ends (link target attempt : Nat) (result : Except Thrown Unit)
  | fires (link target attempt : Nat)

def Timed.attemptsAt (s : Timed P) (link target : Nat) : List Attempt := (s.attempts.get (link, target)).getD []

/-- What the promise of an attempt becomes when `reject` or `resolve` is called: the first call counts. -/
def Attempt.settle (a : Attempt) (state : PromiseState) : PromiseState :=
  if a.promise = .pending then state else a.promise

def settlement : Except Thrown Unit → PromiseState
  | .ok () => .fulfilled
  | .error _ => .rejected

def Timed.change (s : Timed P) (bus : State P) (link target attempt : Nat) (a : Attempt) : Timed P where
  bus := bus
  attempts := s.attempts.set (link, target) ((s.attemptsAt link target).set attempt a)

/-- A handler ends, in time or too late, and its timer is cleared. Only a promise
that is still pending goes on with the loop. -/
def Timed.ends (s : Timed P) (link target attempt : Nat) (result : Except Thrown Unit) : Option (Timed P) := do
  let a ← (s.attemptsAt link target)[attempt]?
  if a.ended then none
  else
    (if a.promise = .pending then Bus.step s.bus (.settle link target result) else some s.bus).map fun bus =>
      s.change bus link target attempt { a with promise := a.settle (settlement result), ended := true }

def Timed.fires (s : Timed P) (link target attempt : Nat) : Option (Timed P) := do
  let a ← (s.attemptsAt link target)[attempt]?
  if a.ended || a.fired then none
  else
    (if a.promise = .pending then Bus.step s.bus (.timeout link target)
      else some { s.bus with counters := { s.bus.counters with timedOut := s.bus.counters.timedOut + 1 } }).map
      fun bus => s.change bus link target attempt { a with promise := a.settle .rejected, fired := true }

/-- The loop of `runHandler` calls `withTimeout`, and only the promise of such a call goes on with it. -/
def Timed.step (s : Timed P) : TimedAction P → Option (Timed P)
  | .bus (.invoke link target) =>
      (Bus.step s.bus (.invoke link target)).map fun bus =>
        { bus := bus, attempts := s.attempts.set (link, target) (s.attemptsAt link target ++ [.fresh]) }
  | .bus (.settle ..) | .bus (.timeout ..) => none
  | .bus action => (Bus.step s.bus action).map fun bus => { s with bus := bus }
  | .ends link target attempt result => s.ends link target attempt result
  | .fires link target attempt => s.fires link target attempt

section HandlerRun

theorem fail_phase_cases (r : HandlerRun) (o : Outcome) (message : Option String) :
    (r.fail o message).phase ≠ .running ∧ (r.fail o message).phase ≠ .delivered := by
  cases message with
  | none => exact ⟨RunPhase.noConfusion, RunPhase.noConfusion⟩
  | some text =>
      rw [HandlerRun.fail]
      simp only
      split <;> exact ⟨RunPhase.noConfusion, RunPhase.noConfusion⟩

variable {r r' : HandlerRun} {attempts : List Attempt} {k : Nat} {a a' : Attempt} {o : Outcome}

def Records : Attempt → Outcome → Prop
  | a, .succeeded => a = { promise := .fulfilled, ended := true }
  | a, .threw _ => a = { promise := .rejected, ended := true }
  | a, .timedOut => a.promise = .rejected ∧ a.fired = true

/-- One attempt for each outcome so far, and while the loop waits one more, which has just been made. -/
def Attended (r : HandlerRun) (attempts : List Attempt) : Prop :=
  ∃ settled, attempts = settled ++ (if r.phase = .running then [Attempt.fresh] else []) ∧
    List.Forall₂ Records settled r.outcomes

theorem records_settled (h : Records a o) : a.promise ≠ .pending := by
  cases o with
  | succeeded | threw =>
      obtain rfl := h
      exact PromiseState.noConfusion
  | timedOut =>
      rw [h.1]
      exact PromiseState.noConfusion

theorem exists_record {outcomes : List Outcome} (h : List.Forall₂ Records attempts outcomes) (ha : a ∈ attempts) :
    ∃ o ∈ outcomes, Records a o := by
  induction h with
  | nil => cases ha
  | @cons b o attempts outcomes hb _ ih =>
      rcases List.mem_cons.mp ha with rfl | ha
      · exact ⟨o, List.mem_cons_self, hb⟩
      · obtain ⟨o', ho', hr⟩ := ih ha
        exact ⟨o', List.mem_cons_of_mem o ho', hr⟩

theorem records_set {outcomes : List Outcome} (h : List.Forall₂ Records attempts outcomes)
    (hk : attempts[k]? = some a) (ha : ∀ o, Records a o → Records a' o) :
    List.Forall₂ Records (attempts.set k a') outcomes := by
  induction h generalizing k with
  | nil => cases hk
  | cons hb hrest ih =>
      cases k with
      | zero =>
          obtain rfl := Option.some.inj hk
          exact .cons (ha _ hb) hrest
      | succ k => exact .cons hb (ih hk)

theorem attended_new (sub : Subscription) : Attended { sub := sub } [] := ⟨[], rfl, .nil⟩

theorem attended_invoke (h : Attended r attempts) (hm : r.invoke = some r') :
    Attended r' (attempts ++ [.fresh]) := by
  obtain ⟨settled, rfl, hrecords⟩ := h
  unfold HandlerRun.invoke at hm
  split at hm
  · rename_i hphase
    obtain rfl := Option.some.inj hm
    refine ⟨settled, ?_, hrecords⟩
    rw [hphase, if_neg RunPhase.noConfusion, List.append_nil]
    rfl
  · cases hm

theorem attended_wake (h : Attended r attempts) (hm : r.wake = some r') : Attended r' attempts := by
  obtain ⟨settled, rfl, hrecords⟩ := h
  unfold HandlerRun.wake at hm
  split at hm
  · rename_i hphase
    obtain rfl := Option.some.inj hm
    refine ⟨settled, ?_, hrecords⟩
    rw [hphase]
    rfl
  · cases hm

theorem attended_cases (h : Attended r attempts) (hk : attempts[k]? = some a) :
    (∃ o ∈ r.outcomes, Records a o) ∨ r.phase = .running ∧ a = .fresh ∧
      ∃ settled, attempts = settled ++ [.fresh] ∧ k = settled.length ∧ List.Forall₂ Records settled r.outcomes := by
  obtain ⟨settled, rfl, hrecords⟩ := h
  rw [List.getElem?_append] at hk
  split at hk
  · exact .inl (exists_record hrecords (List.mem_of_getElem? hk))
  · rename_i hle
    by_cases hphase : r.phase = .running
    · rw [if_pos hphase] at hk ⊢
      obtain ⟨hlt, -⟩ := List.getElem?_eq_some_iff.mp hk
      have hzero : k - settled.length = 0 := Nat.lt_one_iff.mp hlt
      rw [hzero] at hk
      exact .inr ⟨hphase, (Option.some.inj hk).symm, settled, rfl, by omega, hrecords⟩
    · rw [if_neg hphase] at hk
      cases hk

theorem fresh_of_pending (h : Attended r attempts) (hk : attempts[k]? = some a) (ha : a.promise = .pending) :
    a = .fresh := by
  rcases attended_cases h hk with ⟨o, -, hrecord⟩ | ⟨-, hfresh, -⟩
  · exact absurd ha (records_settled hrecord)
  · exact hfresh

theorem attended_settled (h : Attended r attempts) (hk : attempts[k]? = some a) (ha : a.promise = .pending)
    (ho : Records a' o) (houtcomes : r'.outcomes = r.outcomes ++ [o]) (hphase : r'.phase ≠ .running) :
    Attended r' (attempts.set k a') := by
  rcases attended_cases h hk with ⟨o, -, hrecord⟩ | ⟨-, -, settled, rfl, rfl, hrecords⟩
  · exact absurd ha (records_settled hrecord)
  · refine ⟨settled ++ [a'], ?_, ?_⟩
    · rw [if_neg hphase, List.append_nil, List.set_append_right _ _ (Nat.le_refl _), Nat.sub_self]
      rfl
    · rw [houtcomes]
      exact List.rel_append hrecords (.cons ho .nil)

theorem fired_of_settled (h : Attended r attempts) (hk : attempts[k]? = some a) (ha : a.promise ≠ .pending)
    (hended : a.ended = false) : a.fired = true ∧ ∀ o, Records a o → Records { a with ended := true } o := by
  have hlate : ∀ o, Records a o → a.fired = true ∧ Records { a with ended := true } o := by
    intro o ho
    cases o with
    | succeeded | threw =>
        obtain rfl := ho
        cases hended
    | timedOut => exact ⟨ho.2, ho⟩
  rcases attended_cases h hk with ⟨o, -, hrecord⟩ | ⟨-, rfl, -⟩
  · exact ⟨(hlate o hrecord).1, fun o ho => (hlate o ho).2⟩
  · exact absurd rfl ha

theorem attended_late (h : Attended r attempts) (hk : attempts[k]? = some a) (ha : a.promise ≠ .pending)
    (hended : a.ended = false) : Attended r (attempts.set k { a with ended := true }) := by
  have hlate := (fired_of_settled h hk ha hended).2
  obtain ⟨settled, rfl, hrecords⟩ := h
  rw [List.getElem?_append] at hk
  split at hk
  · rename_i hlt
    exact ⟨settled.set k _, List.set_append_left _ _ hlt, records_set hrecords hk hlate⟩
  · split at hk
    · rw [List.mem_singleton.mp (List.mem_of_getElem? hk)] at ha
      exact absurd rfl ha
    · cases hk

theorem settle_records {result : Except Thrown Unit} (h : r.settle result = some r') :
    ∃ o, r'.outcomes = r.outcomes ++ [o] ∧ r'.phase ≠ .running ∧
      Records { promise := settlement result, ended := true } o := by
  unfold HandlerRun.settle at h
  split at h
  · cases result with
    | ok =>
        obtain rfl := Option.some.inj h
        exact ⟨.succeeded, rfl, RunPhase.noConfusion, rfl⟩
    | error value =>
        obtain rfl := Option.some.inj h
        exact ⟨.threw value, rfl, (fail_phase_cases _ _ _).1, rfl⟩
  · cases h

theorem timeout_records (h : r.timeout = some r') : r'.outcomes = r.outcomes ++ [.timedOut] ∧ r'.phase ≠ .running := by
  unfold HandlerRun.timeout at h
  split at h
  · obtain rfl := Option.some.inj h
    exact ⟨rfl, (fail_phase_cases _ _ _).1⟩
  · cases h

end HandlerRun

end EspClawPlatform.Bus
