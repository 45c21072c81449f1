import EspClawPlatform.Identity.BruteForce
import EspClawPlatform.Identity.SlidingWindow

namespace EspClawPlatform.Identity

open Run

variable {host : Host} {s t : State}

def State.throttleCalls (host : Host) (s : State) : Action → List TimedCall
  | .call (.login email _ clientAddress) => [⟨s.now, .assertAllowed email (clientAddress.getD "unknown")⟩]
  | .resume call _ =>
      match s.frames.get call with
      | some (.loginCompare email password address user) =>
          [⟨s.now,
            if accepted host password user = none then .recordFailure email address
            else .recordSuccess email⟩]
      | _ => []
  | _ => []

def lockoutIn (scope : LockScope) : Payload → Option (String × String)
  | .loginLocked scope' email address => if scope' = scope then some (email, address) else none
  | _ => none

def lockoutsOf (scope : LockScope) (events : List Published) : List (String × String) :=
  events.filterMap fun event => lockoutIn scope event.payload

def State.lockouts (s : State) (scope : LockScope) : List (String × String) := lockoutsOf scope s.events

structure FailedLogin where
  throttle : LoginThrottle
  at_ : Nat
  email : String
  address : String

def FailedLogin.attempt (x : FailedLogin) : String × String := (x.email, x.address)

def State.failedLogins (host : Host) (s : State) (a : Action) : List FailedLogin :=
  (s.failing host a).toList.map fun x => ⟨s.throttle, s.now, x.1, x.2⟩

/-- The failure makes the count that the throttle keeps of its account (or of
its address) reach the limit. -/
def FailedLogin.crosses (toLowerCase : String → String) (x : FailedLogin) (scope : LockScope) : Bool :=
  x.throttle.kept toLowerCase x.at_ x.email x.address scope < limitOf scope &&
    limitOf scope ≤ (x.throttle.recordFailure toLowerCase x.at_ x.email x.address).kept toLowerCase x.at_
      x.email x.address scope

def crossing (toLowerCase : String → String) (scopes : List LockScope) (xs : List FailedLogin) :
    List (String × String) :=
  (xs.filter fun x => scopes.all (x.crosses toLowerCase)).map FailedLogin.attempt

/-- The failure makes the count in the window of its account (or of its address) reach the limit. -/
def TimedCall.reaches (toLowerCase : String → String) (past : List TimedCall) (x : TimedCall)
    (scope : LockScope) : Bool :=
  x.call.failure.any fun y =>
    failuresInWindow toLowerCase past x.at_ scope (failureKey toLowerCase y.1 y.2 scope) < limitOf scope &&
      limitOf scope ≤
        failuresInWindow toLowerCase (past ++ [x]) x.at_ scope (failureKey toLowerCase y.1 y.2 scope)

def failuresWhere (p : List TimedCall → TimedCall → Bool) :
    List TimedCall → List TimedCall → List (String × String)
  | _, [] => []
  | past, x :: rest => (if p past x then x.call.failure.toList else []) ++ failuresWhere p (past ++ [x]) rest

def reaching (toLowerCase : String → String) (scopes : List LockScope) (calls : List TimedCall) :
    List (String × String) :=
  failuresWhere (fun past x => scopes.all (x.reaches toLowerCase past)) [] calls

theorem failuresWhere_concat (p : List TimedCall → TimedCall → Bool) (past rest : List TimedCall) (x : TimedCall) :
    failuresWhere p past (rest ++ [x]) =
      failuresWhere p past rest ++ if p (past ++ rest) x then x.call.failure.toList else [] := by
  induction rest generalizing past with
  | nil => simp only [failuresWhere, List.nil_append, List.append_nil]
  | cons y rest ih =>
      rw [List.cons_append, failuresWhere, ih, failuresWhere, List.append_assoc, List.append_assoc]
      rfl

theorem reaching_concat (toLowerCase : String → String) (scopes : List LockScope) (calls : List TimedCall)
    (x : TimedCall) : reaching toLowerCase scopes (calls ++ [x]) =
      reaching toLowerCase scopes calls ++
        if scopes.all (x.reaches toLowerCase calls) then x.call.failure.toList else [] :=
  failuresWhere_concat _ [] calls x

theorem crossing_append (toLowerCase : String → String) (scopes : List LockScope) (xs ys : List FailedLogin) :
    crossing toLowerCase scopes (xs ++ ys) = crossing toLowerCase scopes xs ++ crossing toLowerCase scopes ys := by
  rw [crossing, List.filter_append, List.map_append]
  rfl

theorem map_filter_eq_iff {α β : Type} (p q : α → Bool) (f : α → β) (xs : List α) :
    (xs.filter fun x => p x && !q x).map f = (xs.filter p).map f ↔ (xs.filter fun x => q x && p x).map f = [] := by
  rw [List.map_eq_nil_iff]
  have hsub : (xs.filter fun x => p x && !q x).Sublist (xs.filter p) :=
    List.monotone_filter_right xs fun x h => (Bool.and_eq_true_iff.mp h).1
  constructor
  · intro h
    have hall := hsub.eq_of_length (by simpa only [List.length_map] using congrArg List.length h)
    apply List.filter_eq_nil_iff.mpr
    intro x hx hpq
    obtain ⟨hq, hp⟩ := Bool.and_eq_true_iff.mp hpq
    have hmem : x ∈ xs.filter fun x => p x && !q x := hall ▸ List.mem_filter.mpr ⟨hx, hp⟩
    simp [hq] at hmem
  · intro h
    congr 1
    apply List.filter_congr
    intro x hx
    have hnot := List.filter_eq_nil_iff.mp h x hx
    cases hp : p x <;> cases hq : q x <;> simp_all

inductive ThrottleMove (host : Host) (s t : State) (a : Action) : Prop
  | quiet (hcalls : s.throttleCalls host a = []) (hthrottle : t.throttle = s.throttle)
      (hlockouts : ∀ scope, t.lockouts scope = s.lockouts scope)
  | asked (email address : String) (hcalls : s.throttleCalls host a = [⟨s.now, .assertAllowed email address⟩])
      (hthrottle : t.throttle = s.throttle.asserted host.toLowerCase s.now email address)
      (hlockouts : ∀ scope, t.lockouts scope = s.lockouts scope)
  | failed (email address : String) (hfailing : s.failing host a = some (email, address))
      (hcalls : s.throttleCalls host a = [⟨s.now, .recordFailure email address⟩])
      (hthrottle : t.throttle = s.throttle.recordFailure host.toLowerCase s.now email address)
      (hlockouts : ∀ scope, t.lockouts scope = s.lockouts scope ++
        if s.throttle.locked host.toLowerCase s.now email address = some scope then [(email, address)] else [])
  | succeeded (email : String) (hcalls : s.throttleCalls host a = [⟨s.now, .recordSuccess email⟩])
      (hthrottle : t.throttle = s.throttle.recordSuccess host.toLowerCase email)
      (hlockouts : ∀ scope, t.lockouts scope = s.lockouts scope)

theorem lockouts_perform (s : State) (call : Nat) (e : Effect) (scope : LockScope) :
    (s.perform call e).lockouts scope = s.lockouts scope ++ e.publish.filterMap (lockoutIn scope) := by
  change lockoutsOf scope (s.events ++ e.publish.map (announce "module:identity")) = _
  rw [lockoutsOf, List.filterMap_append, List.filterMap_map]
  rfl

theorem resume_unlocked {f : Frame} {fresh : String} {e : Effect} (h : f.resume host s fresh = some e)
    (hf : ∀ email password address user, f ≠ .loginCompare email password address user) (scope : LockScope) :
    e.publish.filterMap (lockoutIn scope) = [] := by
  cases f with
  | loginCompare email password address user => exact absurd rfl (hf email password address user)
  | registerSave | createSave =>
      obtain ⟨u, hu, rfl⟩ := Option.map_eq_some_iff.mp h
      rfl
  | registerLock | updateLock =>
      simp only [Frame.resume] at h
      split at h <;> cases h
      rfl
  | updateFind =>
      cases h
      rw [updateFound]
      split
      · rfl
      · split
        · rfl
        · split <;> rfl
  | registerCount | createFind | ownCompare | resetFind =>
      cases h
      split <;> rfl
  | ownFind =>
      cases h
      split
      · rfl
      · split <;> rfl
  | updateSaved =>
      cases h
      simp only
      split <;> rfl
  | registerHash | registerSaved | loginFind | activeFind | activeFound | list | createHash | createSaved
  | updateSave | applyHash | applySave | applySaved | sign =>
      cases h
      rfl

theorem start_publishes (request : Request) : (request.start host s).publish = [] := by
  cases request with
  | register => simp only [Request.start]; split <;> rfl
  | getActiveUser =>
      simp only [Request.start]
      split
      · split <;> rfl
      · rfl
  | login | listUsers | createUser | updateUser | resetPassword | changeOwnPassword => rfl

theorem reject_publishes {f : Frame} {e : Effect} (h : f.reject = some e) : e.publish = [] := by
  cases f <;> cases h <;> rfl

theorem lockouts_quiet (call : Nat) {e : Effect} (h : ∀ scope, e.publish.filterMap (lockoutIn scope) = [])
    (scope : LockScope) : (s.perform call e).lockouts scope = s.lockouts scope := by
  rw [lockouts_perform, h, List.append_nil]

theorem perform_throttle (call : Nat) {e : Effect} (h : e.throttle = none) :
    (s.perform call e).throttle = s.throttle := by
  rw [State.perform, h]
  rfl

theorem throttleCalls_quiet {call : Nat} {fresh : String} {f : Frame} (hf : s.frames.get call = some f)
    (h : ∀ email password address user, f ≠ .loginCompare email password address user) :
    s.throttleCalls host (.resume call fresh) = [] := by
  rw [State.throttleCalls, hf]
  cases f with
  | loginCompare email password address user => exact absurd rfl (h email password address user)
  | _ => rfl

theorem failed_move {call : Nat} {fresh email password address : String} {user : Option User}
    (hf : s.frames.get call = some (.loginCompare email password address user))
    (ha : accepted host password user = none) :
    ThrottleMove host s (s.perform call (loginFailed host s email address)) (.resume call fresh) := by
  refine .failed email address ?_ ?_ rfl fun scope => ?_
  · rw [State.failing, hf]
    exact if_pos ha
  · rw [State.throttleCalls, hf]
    simp only [if_pos ha]
  · rw [lockouts_perform]
    congr 1
    change ((s.throttle.locked host.toLowerCase s.now email address).map _).toList.filterMap _ = _
    cases s.throttle.locked host.toLowerCase s.now email address with
    | none => rfl
    | some scope' => cases scope' <;> cases scope <;> rfl

theorem succeeded_move {call : Nat} {fresh email password address : String} {user : Option User} {u : User}
    (hf : s.frames.get call = some (.loginCompare email password address user))
    (ha : accepted host password user = some u) :
    ThrottleMove host s (s.perform call (loginSucceeded host s email address u)) (.resume call fresh) := by
  refine .succeeded email ?_ rfl (lockouts_quiet call fun _ => rfl)
  rw [State.throttleCalls, hf]
  simp only [ha, reduceCtorEq, if_false]

theorem throttle_move {a : Action} (h : step host s a = some t) : ThrottleMove host s t a := by
  cases step_shape h with
  | tick ms ht => exact ht ▸ .quiet rfl rfl fun _ => rfl
  | reject call f e hf he ht =>
      rw [ht]
      exact .quiet rfl (perform_throttle call (reject_other he).1)
        (lockouts_quiet call fun _ => by rw [reject_publishes he]; rfl)
  | call request ht =>
      have hquiet : ∀ scope, t.lockouts scope = s.lockouts scope := by
        intro scope
        rw [ht]
        exact lockouts_quiet s.calls (fun _ => by rw [start_publishes]; rfl) scope
      by_cases hl : ∃ email password address, request = .login email password address
      · obtain ⟨email, password, address, rfl⟩ := hl
        refine .asked email (address.getD "unknown") rfl ?_ hquiet
        rw [ht]
        rfl
      · simp only [not_exists] at hl
        refine .quiet ?_ ?_ hquiet
        · cases request with
          | login email password address => exact absurd rfl (hl email password address)
          | _ => rfl
        · rw [ht]
          exact perform_throttle s.calls (start_other host s hl).1
  | resume call fresh f e hf he ht =>
      rw [ht]
      by_cases hl : ∃ email password address user, f = .loginCompare email password address user
      · obtain ⟨email, password, address, user, rfl⟩ := hl
        obtain rfl := Option.some.inj he
        rw [loginCompared]
        cases ha : accepted host password user with
        | none => exact failed_move hf ha
        | some u => exact succeeded_move hf ha
      · simp only [not_exists] at hl
        exact .quiet (throttleCalls_quiet hf hl) (perform_throttle call (resume_other he hl).1)
          (lockouts_quiet call (resume_unlocked he hl))

theorem failing_eq (host : Host) (s : State) (a : Action) :
    (s.failing host a).toList = (s.throttleCalls host a).filterMap fun x => x.call.failure := by
  cases a with
  | resume call fresh =>
      rw [State.failing, State.throttleCalls]
      cases s.frames.get call with
      | none => rfl
      | some f =>
          cases f with
          | loginCompare email password address user =>
              by_cases ha : accepted host password user = none <;> simp [ha, ThrottleCall.failure]
          | _ => rfl
  | call request => cases request <;> rfl
  | reject | tick => rfl

def State.Bounded (s : State) : Prop := ∀ scope, (windowsOf s.throttle scope).size ≤ MAX_TRACKED_KEYS

theorem bounded_step {a : Action} (hi : s.Bounded) (h : step host s a = some t) : t.Bounded := by
  intro scope
  cases throttle_move h with
  | quiet hcalls hthrottle hlockouts =>
      rw [hthrottle]
      exact hi scope
  | asked email address hcalls hthrottle hlockouts =>
      rw [hthrottle]
      cases scope with
      | account => exact Nat.le_trans (Windows.size_prune_le _ _ _) (hi .account)
      | address => exact Nat.le_trans (Windows.size_prune_le _ _ _) (hi .address)
  | failed email address hfailing hcalls hthrottle hlockouts =>
      rw [hthrottle]
      cases scope <;> exact Windows.size_push_le _ _ _
  | succeeded email hcalls hthrottle hlockouts =>
      rw [hthrottle]
      cases scope with
      | account => exact Nat.le_trans (List.length_filter_le _ _) (hi .account)
      | address => exact hi .address

theorem push_eq_limit_iff (x : FailedLogin) (toLowerCase : String → String) (scope : LockScope)
    (h : (windowsOf x.throttle scope).size ≤ MAX_TRACKED_KEYS) :
    (Windows.push x.at_ (windowsOf x.throttle scope) (failureKey toLowerCase x.email x.address scope)).2 =
        limitOf scope ↔ x.crosses toLowerCase scope = true := by
  rw [FailedLogin.crosses, kept_recordFailure h, Windows.push_count, ← List.countP_eq_length_filter,
    ← LoginThrottle.kept, Bool.and_eq_true, decide_eq_true_eq, decide_eq_true_eq]
  omega

theorem locked_iff (x : FailedLogin) (toLowerCase : String → String)
    (h : ∀ scope, (windowsOf x.throttle scope).size ≤ MAX_TRACKED_KEYS) :
    (x.throttle.locked toLowerCase x.at_ x.email x.address = some .account ↔
      x.crosses toLowerCase .account = true) ∧
    (x.throttle.locked toLowerCase x.at_ x.email x.address = some .address ↔
      (x.crosses toLowerCase .address && !x.crosses toLowerCase .account) = true) := by
  have haccount := push_eq_limit_iff x toLowerCase .account (h .account)
  have haddress := push_eq_limit_iff x toLowerCase .address (h .address)
  rw [Bool.and_eq_true, Bool.not_eq_true', Bool.eq_false_iff, Ne, ← haccount, ← haddress]
  simp only [LoginThrottle.locked, windowsOf, failureKey, limitOf]
  split
  · rename_i h
    simp [h]
  · rename_i h
    split
    · rename_i h'
      simp [h, h']
    · rename_i h'
      simp [h, h']

/-- The lockouts of accounts are the failures that reach that limit; of
addresses only those that do not reach the limit of the account as well. -/
structure Reported (host : Host) (xs : List FailedLogin) (s : State) : Prop where
  bounded : s.Bounded
  account : s.lockouts .account = (xs.filter fun x => x.crosses host.toLowerCase .account).map FailedLogin.attempt
  address : s.lockouts .address = (xs.filter fun x =>
    x.crosses host.toLowerCase .address && !x.crosses host.toLowerCase .account).map FailedLogin.attempt

theorem reported_boot (host : Host) (users : Table User) (tokens : List JwtPayload) :
    Reported host [] (State.boot users tokens) where
  bounded := by
    intro scope
    cases scope <;> exact Nat.zero_le _
  account := rfl
  address := rfl

theorem reported_step {xs : List FailedLogin} {a : Action} (hi : Reported host xs s) (h : step host s a = some t) :
    Reported host (xs ++ s.failedLogins host a) t := by
  have hbounded := bounded_step hi.bounded h
  have hquiet (hcalls : (s.throttleCalls host a).filterMap (fun x => x.call.failure) = [])
      (hlockouts : ∀ scope, t.lockouts scope = s.lockouts scope) :
      Reported host (xs ++ s.failedLogins host a) t := by
    rw [State.failedLogins, failing_eq, hcalls, List.map_nil, List.append_nil]
    exact ⟨hbounded, (hlockouts _).trans hi.account, (hlockouts _).trans hi.address⟩
  cases throttle_move h with
  | quiet hcalls hthrottle hlockouts => exact hquiet (by rw [hcalls]; rfl) hlockouts
  | asked email address hcalls hthrottle hlockouts => exact hquiet (by rw [hcalls]; rfl) hlockouts
  | succeeded email hcalls hthrottle hlockouts => exact hquiet (by rw [hcalls]; rfl) hlockouts
  | failed email address hfailing hcalls hthrottle hlockouts =>
      obtain ⟨haccount, haddress⟩ := locked_iff ⟨s.throttle, s.now, email, address⟩ host.toLowerCase hi.bounded
      have hfailed : s.failedLogins host a = [⟨s.throttle, s.now, email, address⟩] := by
        rw [State.failedLogins, hfailing]
        rfl
      refine ⟨hbounded, ?_, ?_⟩
      · rw [hlockouts, hi.account, hfailed, List.filter_append, List.map_append, List.filter_cons, List.filter_nil]
        simp only [haccount]
        split <;> rfl
      · rw [hlockouts, hi.address, hfailed, List.filter_append, List.map_append, List.filter_cons, List.filter_nil]
        simp only [haddress]
        split <;> rfl

theorem reported_run {users : Table User} {tokens : List JwtPayload} {as : List Action}
    (h : run (step host) (State.boot users tokens) as = some s) :
    Reported host (trace (step host) (State.failedLogins host) (State.boot users tokens) as) s :=
  logs_along (State.failedLogins host) (State.failedLogins host) (I := fun xs _ s => Reported host xs s)
    (fun _ _ _ _ _ hi _ hs => reported_step hi hs) h (along_true _ as) (l := []) (m := [])
    (reported_boot host users tokens)

variable {calls : List TimedCall}

/-- The throttle has on record what the history of its calls says, so by its
counts the same failures reach the limits. -/
structure Accounted (host : Host) (xs : List FailedLogin) (calls : List TimedCall) (s : State) : Prop where
  bounded : s.Bounded
  past : ∀ x ∈ calls, x.at_ ≤ s.now
  onRecord : ∀ scope k now, s.now ≤ now → OnRecord host.toLowerCase scope k now calls s.throttle
  crossed : ∀ scopes, crossing host.toLowerCase scopes xs = reaching host.toLowerCase scopes calls

theorem accounted_boot (host : Host) (users : Table User) (tokens : List JwtPayload) :
    Accounted host [] [] (State.boot users tokens) where
  bounded := (reported_boot host users tokens).bounded
  past := nofun
  onRecord := by
    intro scope k now _
    cases scope <;> rfl
  crossed _ := rfl

theorem window_after_failure {toLowerCase : String → String} {email address k : String} {scope : LockScope} {now : Nat}
    (hk : failureKey toLowerCase email address scope = k) :
    failuresInWindow toLowerCase (calls ++ [⟨now, .recordFailure email address⟩]) now scope k =
      failuresInWindow toLowerCase calls now scope k + 1 := by
  rw [failuresInWindow, failuresInWindow, failuresOf_concat]
  simp only [TimedCall.recorded, if_pos hk]
  rw [Window.inWindow, List.countP_append]
  congr 1
  rw [List.countP_singleton]
  simp [LOGIN_WINDOW_MS]

theorem crosses_eq_reaches (email address : String) {xs : List FailedLogin} (hi : Accounted host xs calls s) :
    FailedLogin.crosses host.toLowerCase ⟨s.throttle, s.now, email, address⟩ =
      TimedCall.reaches host.toLowerCase calls ⟨s.now, .recordFailure email address⟩ := by
  funext scope
  have hkept : s.throttle.kept host.toLowerCase s.now email address scope =
      failuresInWindow host.toLowerCase calls s.now scope (failureKey host.toLowerCase email address scope) := by
    rw [LoginThrottle.kept, List.countP_eq_length_filter, hi.onRecord scope _ s.now (Nat.le_refl _), failuresInWindow,
      Window.inWindow_of_past (failuresOf_past hi.past)]
    rfl
  rw [FailedLogin.crosses, kept_recordFailure (hi.bounded scope), hkept]
  simp only [TimedCall.reaches, ThrottleCall.failure, Option.any_some, window_after_failure rfl]

theorem accounted_step {xs : List FailedLogin} {a : Action} (hi : Accounted host xs calls s)
    (hC : EvictsNothing host s a) (h : step host s a = some t) :
    Accounted host (xs ++ s.failedLogins host a) (calls ++ s.throttleCalls host a) t := by
  have hnow : s.now ≤ t.now := le_now h
  have hbounded := bounded_step hi.bounded h
  have hpast (call : ThrottleCall) : ∀ y ∈ calls ++ [⟨s.now, call⟩], y.at_ ≤ t.now := by
    intro y hy
    rcases List.mem_append.mp hy with hy | hy
    · exact Nat.le_trans (hi.past y hy) hnow
    · rw [List.mem_singleton.mp hy]
      exact hnow
  have hquiet {call : ThrottleCall} (hcall : call.failure = none) (hcalls : s.throttleCalls host a = [⟨s.now, call⟩])
      (hthrottle : s.throttle.handle host.toLowerCase ⟨s.now, call⟩ = some t.throttle) :
      Accounted host (xs ++ s.failedLogins host a) (calls ++ s.throttleCalls host a) t := by
    rw [State.failedLogins, failing_eq, hcalls]
    simp only [List.filterMap_cons, hcall, List.filterMap_nil, List.map_nil, List.append_nil]
    refine ⟨hbounded, hpast call, fun scope k now hle => ?_, fun scopes => ?_⟩
    · have hle' := Nat.le_trans hnow hle
      refine onRecord_handle (hi.onRecord scope k now hle') ?_ hthrottle hle'
      intro y hy
      rw [hcall] at hy
      cases hy
    · rw [hi.crossed, reaching_concat, hcall, Option.toList_none, ite_self, List.append_nil]
  cases throttle_move h with
  | quiet hcalls hthrottle hlockouts =>
      rw [State.failedLogins, failing_eq, hcalls, List.filterMap_nil, List.map_nil, List.append_nil, List.append_nil]
      refine ⟨hbounded, fun x hx => Nat.le_trans (hi.past x hx) hnow, fun scope k now hle => ?_, hi.crossed⟩
      rw [hthrottle]
      exact hi.onRecord scope k now (Nat.le_trans hnow hle)
  | asked email address hcalls hthrottle hlockouts => exact hquiet rfl hcalls (congrArg some hthrottle.symm)
  | succeeded email hcalls hthrottle hlockouts => exact hquiet rfl hcalls (congrArg some hthrottle.symm)
  | failed email address hfailing hcalls hthrottle hlockouts =>
      rw [State.failedLogins, hfailing, hcalls]
      refine ⟨hbounded, hpast _, fun scope k now hle => ?_, fun scopes => ?_⟩
      · have hle' := Nat.le_trans hnow hle
        refine onRecord_handle (hi.onRecord scope k now hle') ?_ (congrArg some hthrottle.symm) hle'
        intro y hy
        obtain rfl := Option.some.inj hy
        have hkey : failureKey host.toLowerCase email address scope = keyOf host email address scope := by
          cases scope <;> rfl
        rw [hkey, Windows.evicted_of_fits (hC _ hfailing scope (mem_scopes scope))]
        exact List.not_mem_nil
      · rw [crossing_append, hi.crossed, reaching_concat]
        congr 1
        simp only [crossing, Option.toList_some, List.map_cons, List.map_nil, List.filter_cons, List.filter_nil,
          crosses_eq_reaches email address hi]
        split <;> rfl

theorem accounted_run {users : Table User} {tokens : List JwtPayload} {as : List Action}
    (h : run (step host) (State.boot users tokens) as = some s)
    (hC : Along (step host) (EvictsNothing host) (State.boot users tokens) as) :
    Accounted host (trace (step host) (State.failedLogins host) (State.boot users tokens) as)
      (trace (step host) (State.throttleCalls host) (State.boot users tokens) as) s :=
  logs_along (State.failedLogins host) (State.throttleCalls host) (I := Accounted host)
    (fun _ _ _ _ _ hi hC hs => accounted_step hi hC hs) h hC (l := []) (m := []) (accounted_boot host users tokens)

/-- In every run the lockouts published are exactly the failures that reach a
limit, each under its scope, if and only if no failure reaches both limits. The
counts are those that the throttle keeps, which are those of the history unless
a window is dropped while it still counts. -/
theorem lockouts_reported {users : Table User} {tokens : List JwtPayload} {as : List Action}
    (h : run (step host) (State.boot users tokens) as = some s) :
    ((∀ scope, s.lockouts scope = crossing host.toLowerCase [scope]
        (trace (step host) (State.failedLogins host) (State.boot users tokens) as)) ↔
      crossing host.toLowerCase [.account, .address]
        (trace (step host) (State.failedLogins host) (State.boot users tokens) as) = []) ∧
    (Along (step host) (EvictsNothing host) (State.boot users tokens) as → ∀ scopes,
      crossing host.toLowerCase scopes (trace (step host) (State.failedLogins host) (State.boot users tokens) as) =
        reaching host.toLowerCase scopes
          (trace (step host) (State.throttleCalls host) (State.boot users tokens) as)) := by
  constructor
  · have hi := reported_run h
    generalize trace (step host) (State.failedLogins host) (State.boot users tokens) as = xs at hi ⊢
    have hsplit := map_filter_eq_iff (fun x => x.crosses host.toLowerCase .address)
      (fun x => x.crosses host.toLowerCase .account) FailedLogin.attempt xs
    simp only [crossing, List.all_cons, List.all_nil, Bool.and_true]
    rw [← hsplit, ← hi.address]
    constructor
    · intro hall
      exact hall .address
    · intro haddress scope
      cases scope with
      | account => exact hi.account
      | address => exact haddress
  · intro hC
    exact (accounted_run h hC).crossed

def OneAtATime (s : State) (a : Action) : Prop := ∀ x ∈ a.login, s.frames.rows = []

instance (s : State) (a : Action) : Decidable (OneAtATime s a) :=
  inferInstanceAs (Decidable (∀ x ∈ a.login, s.frames.rows = []))

def guesses (emails : List String) : List Action :=
  emails.zipIdx.flatMap fun x =>
    [.call (.login x.1 "guess" (some "10.0.0.9")), .resume x.2 "", .resume x.2 ""]

def fiveEach (emails : List String) : List Action := guesses (emails.flatMap (List.replicate 5))

theorem both_limits_at_once : ¬ ∀ (host : Host) (users : Table User) (tokens : List JwtPayload) (as : List Action)
    (s : State), run (step host) (State.boot users tokens) as = some s →
    Along (step host) OneAtATime (State.boot users tokens) as →
    ∀ scope, s.lockouts scope = reaching host.toLowerCase [scope]
      (trace (step host) (State.throttleCalls host) (State.boot users tokens) as) := by
  intro h
  have hlast : ∀ s ∈ run (step plainHost) (State.boot .empty []) (fiveEach ["a@x", "b@x", "c@x", "d@x"]),
      s.lockouts .address = reaching plainHost.toLowerCase [.address]
        (trace (step plainHost) (State.throttleCalls plainHost) (State.boot .empty [])
          (fiveEach ["a@x", "b@x", "c@x", "d@x"])) :=
    fun s hs => h plainHost .empty [] _ s hs (by decide +kernel) .address
  exact absurd hlast (by decide +kernel)

theorem fifth_guess_is_reported : ∃ s, run (step plainHost) (State.boot .empty []) (fiveEach ["a@x"]) = some s ∧
    s.lockouts .account = [("a@x", "10.0.0.9")] := by
  obtain ⟨s, hs⟩ : ∃ s, run (step plainHost) (State.boot .empty []) (fiveEach ["a@x"]) = some s :=
    Option.isSome_iff_exists.mp (by decide +kernel)
  obtain ⟨hreported, hcounts⟩ := lockouts_reported hs
  refine ⟨s, hs, ?_⟩
  rw [hreported.mpr (by decide +kernel) .account, hcounts (by decide +kernel) [.account]]
  decide +kernel

end EspClawPlatform.Identity
