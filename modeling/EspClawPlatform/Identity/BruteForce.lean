import EspClawPlatform.Lib.Quota
import EspClawPlatform.Identity.Steps

namespace EspClawPlatform.Identity

open Run

variable {host : Host} {s t : State}

def keyOf (host : Host) (email address : String) : LockScope → String
  | .account => normalize host.toLowerCase email
  | .address => address

/-- The email and the address of a login that has passed `assertAllowed` and has not been compared. -/
def Frame.attempt : Frame → Option (String × String)
  | .loginFind email _ address | .loginCompare email _ address _ => some (email, address)
  | _ => none

def Frame.countsFor (host : Host) (scope : LockScope) (k : String) (f : Frame) : Bool :=
  f.attempt.any fun x => keyOf host x.1 x.2 scope = k

def pending (host : Host) (s : State) (scope : LockScope) (k : String) : Nat :=
  s.frames.count fun r => r.2.countsFor host scope k

def Attempt.countsFor (host : Host) (scope : LockScope) (k : String) (x : Attempt) : Bool :=
  keyOf host x.email x.address scope = k

def failures (host : Host) (s : State) (scope : LockScope) (k : String) : List Nat :=
  (s.attempts.filter fun x => x.failed && x.countsFor host scope k).map (·.at_)

/-- When a success has cleared the counter of the key; only accounts are cleared. -/
def resets (host : Host) (s : State) : LockScope → String → List Nat
  | .account, k => (s.attempts.filter fun x => !x.failed && x.countsFor host .account k).map (·.at_)
  | .address, _ => []

def Action.login : Action → Option (String × String)
  | .call (.login email _ clientAddress) => some (email, clientAddress.getD "unknown")
  | _ => none

def State.failing (host : Host) (s : State) : Action → Option (String × String)
  | .resume call _ =>
      match s.frames.get call with
      | some (.loginCompare email password address user) =>
          if accepted host password user = none then some (email, address) else none
      | _ => none
  | _ => none

def scopes : List LockScope := [.account, .address]

/-- `assertAllowed` lets a login in only if the failures on record and the
logins in flight are together below both limits. -/
def AdmitsBelowLimit (host : Host) (s : State) (a : Action) : Prop :=
  ∀ x ∈ a.login, s.throttle.retryAfter host.toLowerCase s.now x.1 x.2 = 0 → ∀ scope ∈ scopes,
    ((windowsOf s.throttle scope).entries (keyOf host x.1 x.2 scope)).countP (Windows.live s.now) +
      pending host s scope (keyOf host x.1 x.2 scope) < limitOf scope

instance (host : Host) (s : State) (a : Action) : Decidable (AdmitsBelowLimit host s a) :=
  inferInstanceAs (Decidable (∀ x ∈ a.login, _ → ∀ scope ∈ scopes, _))

/-- The failure being recorded does not push out a key with unexpired failures. -/
def EvictsNothing (host : Host) (s : State) (a : Action) : Prop :=
  ∀ x ∈ s.failing host a, ∀ scope ∈ scopes,
    (Windows.expire s.now (Windows.record s.now (windowsOf s.throttle scope)
      (keyOf host x.1 x.2 scope))).size ≤
      MAX_TRACKED_KEYS

instance (host : Host) (s : State) (a : Action) : Decidable (EvictsNothing host s a) :=
  inferInstanceAs (Decidable (∀ x ∈ s.failing host a, ∀ scope ∈ scopes, _))

def WithinQuota (host : Host) (s : State) : Prop :=
  ∀ scope k, Quota LOGIN_WINDOW_MS (limitOf scope) s.now (failures host s scope k) (resets host s scope k)
    ((windowsOf s.throttle scope).entries k) (pending host s scope k)

theorem quota_of_same {scope : LockScope} {k : String} {record : List Nat} {opened : Nat}
    (hn : t.now = s.now) (ha : t.attempts = s.attempts)
    (hq : Quota LOGIN_WINDOW_MS (limitOf scope) s.now (failures host s scope k)
      (resets host s scope k) record opened)
    (hr : (windowsOf t.throttle scope).entries k = record) (hp : pending host t scope k ≤ opened) :
    Quota LOGIN_WINDOW_MS (limitOf scope) t.now (failures host t scope k) (resets host t scope k)
      ((windowsOf t.throttle scope).entries k) (pending host t scope k) := by
  have hf : failures host t scope k = failures host s scope k := by
    rw [failures, failures, ha]
  have hres : resets host t scope k = resets host s scope k := by
    cases scope with
    | account => rw [resets, resets, ha]
    | address => rfl
  rw [hn, hf, hres, hr]
  exact hq.leave hp

theorem window_pos : 0 < LOGIN_WINDOW_MS := by decide

theorem pending_perform (host : Host) (s : State) (call : Nat) (e : Effect) (scope : LockScope) (k : String) :
    pending host (s.perform call e) scope k + ((s.frames.get call).any (·.countsFor host scope k)).toNat =
      pending host s scope k + (e.next.frame.any (·.countsFor host scope k)).toNat := by
  have hget : (s.frames.get call).any (·.countsFor host scope k) =
      (s.frames.find call).any fun r => r.2.countsFor host scope k := by
    rw [Table.get, Option.any_map]
  rw [hget, pending, pending, State.perform]
  cases e.next with
  | await f => exact Table.count_save s.frames (fun r => r.2.countsFor host scope k) (call, f)
  | done result =>
      exact Table.count_erase s.frames (fun r => r.2.countsFor host scope k) call

theorem pending_perform_le {call : Nat} {e : Effect} {scope : LockScope} {k : String}
    (h : e.next.frame.any (·.countsFor host scope k) = true →
      (s.frames.get call).any (·.countsFor host scope k) = true) :
    pending host (s.perform call e) scope k ≤ pending host s scope k := by
  have := pending_perform host s call e scope k
  cases hn : e.next.frame.any (·.countsFor host scope k) with
  | false =>
      rw [hn] at this
      exact Nat.le_of_add_right_le (Nat.le_of_eq this)
  | true =>
      rw [hn, h hn] at this
      exact Nat.le_of_eq (Nat.add_right_cancel this)

theorem countsFor_of_attempt {f : Frame} (h : f.attempt = none) (scope : LockScope) (k : String) :
    f.countsFor host scope k = false := by
  rw [Frame.countsFor, h]
  rfl

theorem updateFound_other {id : String} {change : UserChange} {actor : Option String} :
    (updateFound s id change actor).throttle = none ∧ (updateFound s id change actor).attempt = none := by
  rw [updateFound]
  split
  · exact ⟨rfl, rfl⟩
  · split
    · exact ⟨rfl, rfl⟩
    · split <;> exact ⟨rfl, rfl⟩

theorem resume_other {f : Frame} {fresh : String} {e : Effect} (h : f.resume host s fresh = some e)
    (hf : ∀ email password address user, f ≠ .loginCompare email password address user) :
    e.throttle = none ∧ e.attempt = none := by
  cases f with
  | loginCompare email password address user => exact absurd rfl (hf email password address user)
  | registerSave | createSave =>
      obtain ⟨u, hu, rfl⟩ := Option.map_eq_some_iff.mp h
      exact ⟨rfl, rfl⟩
  | registerLock | updateLock =>
      simp only [Frame.resume] at h
      split at h <;> cases h
      exact ⟨rfl, rfl⟩
  | updateFind =>
      cases h
      exact updateFound_other
  | registerCount | createFind | ownCompare =>
      cases h
      split <;> exact ⟨rfl, rfl⟩
  | resetFind =>
      cases h
      split <;> exact ⟨rfl, rfl⟩
  | ownFind =>
      cases h
      split
      · exact ⟨rfl, rfl⟩
      · split <;> exact ⟨rfl, rfl⟩
  | registerHash | registerSaved | loginFind | activeFind | activeFound | list | createHash | createSaved
  | updateSave | updateSaved | applyHash | applySave | applySaved | sign =>
      cases h
      exact ⟨rfl, rfl⟩

theorem reject_other {f : Frame} {e : Effect} (h : f.reject = some e) : e.throttle = none ∧
    e.attempt = none := by
  cases f <;> cases h <;> exact ⟨rfl, rfl⟩

theorem follows_attempt {f f' : Frame} {w : Option User} (h : Follows host s w f f')
    (hf : f'.attempt ≠ none) :
    f.attempt = f'.attempt := by
  cases h with
  | loginFind => rfl
  | _ => exact absurd rfl hf

theorem withinQuota_perform {call : Nat} {e : Effect} (hi : WithinQuota host s)
    (ht : e.throttle = none) (ha : e.attempt = none)
    (hn : ∀ f', e.next.frame = some f' → f'.attempt ≠ none →
      ∃ f, s.frames.get call = some f ∧ f.attempt = f'.attempt) :
    WithinQuota host (s.perform call e) := by
  intro scope k
  have hattempts : (s.perform call e).attempts = s.attempts := by
    rw [State.perform, ha]
    exact List.append_nil _
  have hthrottle : (s.perform call e).throttle = s.throttle := by
    rw [State.perform, ht]
    rfl
  have hpending : pending host (s.perform call e) scope k ≤ pending host s scope k := by
    apply pending_perform_le
    intro h
    obtain ⟨f', hf', hc⟩ := (Option.any_eq_true _ _).mp h
    have hne : f'.attempt ≠ none := by
      intro hnone
      rw [countsFor_of_attempt hnone] at hc
      cases hc
    obtain ⟨f, hf, he⟩ := hn f' hf' hne
    rw [hf, Option.any_some, Frame.countsFor, he]
    exact hc
  exact quota_of_same (s := s) rfl hattempts (hi scope k) (by rw [hthrottle]) hpending

theorem asserted_entries (host : Host) (s : State) (email address : String) (scope : LockScope) (k : String) :
    (windowsOf (s.throttle.asserted host.toLowerCase s.now email address) scope).entries k =
        (windowsOf s.throttle scope).entries k ∨
      (windowsOf (s.throttle.asserted host.toLowerCase s.now email address) scope).entries k =
        ((windowsOf s.throttle scope).entries k).filter (Windows.live s.now) := by
  have hp : windowsOf (s.throttle.asserted host.toLowerCase s.now email address) scope =
      Windows.prune s.now (windowsOf s.throttle scope) (keyOf host email address scope) := by
    cases scope <;> rfl
  rw [hp, Windows.entries_prune]
  split
  · exact .inr rfl
  · exact .inl rfl

theorem start_login_counts {email password : String} {clientAddress : Option String}
    {scope : LockScope} {k : String}
    (h : (Request.start host s (.login email password clientAddress)).next.frame.any
      (·.countsFor host scope k) = true) :
    s.throttle.retryAfter host.toLowerCase s.now email (clientAddress.getD "unknown") = 0 ∧
      keyOf host email (clientAddress.getD "unknown") scope = k := by
  simp only [Request.start] at h
  split at h
  · cases h
  · rename_i hz
    refine ⟨Nat.eq_zero_of_not_pos hz, ?_⟩
    simpa [Await.Next.frame, Frame.countsFor, Frame.attempt] using h

theorem mem_scopes (scope : LockScope) : scope ∈ scopes := by
  cases scope <;> decide

theorem withinQuota_login {email password : String} {clientAddress : Option String} (hi : WithinQuota host s)
    (hC : AdmitsBelowLimit host s (.call (.login email password clientAddress)))
    (h : step host s (.call (.login email password clientAddress)) = some t) : WithinQuota host t := by
  obtain rfl := Option.some.inj h
  intro scope k
  have hrec := asserted_entries host s email (clientAddress.getD "unknown") scope k
  have hattempts : s.attempts ++ [] = s.attempts := List.append_nil _
  by_cases hcounts : (Request.start host s (.login email password clientAddress)).next.frame.any
      (·.countsFor host scope k) = true
  · obtain ⟨hz, rfl⟩ := start_login_counts hcounts
    have hopened := (hi scope _).enter (hC _ rfl hz scope (mem_scopes scope))
    refine quota_of_same (s := s) rfl hattempts (hopened.forget hrec) rfl ?_
    have hp := pending_perform host s s.calls
      (Request.start host s (.login email password clientAddress)) scope
        (keyOf host email (clientAddress.getD "unknown") scope)
    rw [hcounts] at hp
    exact Nat.le_of_add_right_le (Nat.le_of_eq hp)
  · refine quota_of_same (s := s) rfl hattempts ((hi scope k).forget hrec) rfl ?_
    exact pending_perform_le fun h => absurd h hcounts

theorem failures_snoc {x : Attempt} (h : t.attempts = s.attempts ++ [x]) (scope : LockScope) (k : String) :
    failures host t scope k =
      failures host s scope k ++ if x.failed && x.countsFor host scope k then [x.at_] else [] := by
  rw [failures, failures, h, List.filter_append, List.map_append]
  congr 1
  by_cases hx : (x.failed && x.countsFor host scope k) = true <;> simp [hx]

theorem resets_snoc {x : Attempt} (h : t.attempts = s.attempts ++ [x]) (k : String) :
    resets host t .account k =
      resets host s .account k ++ if !x.failed && x.countsFor host .account k then [x.at_] else [] := by
  rw [resets, resets, h, List.filter_append, List.map_append]
  congr 1
  by_cases hx : (!x.failed && x.countsFor host .account k) = true <;> simp [hx]

theorem pending_compared (host : Host) {call : Nat} {email password address : String} {user : Option User}
    (e : Effect) (hf : s.frames.get call = some (.loginCompare email password address user))
    (hn : ∀ f', e.next.frame = some f' → f'.attempt = none) (scope : LockScope) (k : String) :
    pending host (s.perform call e) scope k + (decide (keyOf host email address scope = k)).toNat =
      pending host s scope k := by
  have hp := pending_perform host s call e scope k
  have hnone : e.next.frame.any (·.countsFor host scope k) = false := by
    cases hn' : e.next.frame with
    | none => rfl
    | some f' => exact countsFor_of_attempt (hn f' hn') scope k
  rw [hf, hnone] at hp
  exact hp

theorem recordFailure_entries {email address : String} {scope : LockScope}
    (hC : (Windows.expire s.now (Windows.record s.now (windowsOf s.throttle scope)
      (keyOf host email address scope))).size ≤ MAX_TRACKED_KEYS) (k : String) :
    let added := if k = keyOf host email address scope then
        ((windowsOf s.throttle scope).entries k).filter (Windows.live s.now) ++ [s.now]
      else (windowsOf s.throttle scope).entries k
    (windowsOf (s.throttle.recordFailure host.toLowerCase s.now email address) scope).entries k = added ∨
      (windowsOf (s.throttle.recordFailure host.toLowerCase s.now email address) scope).entries k =
        added.filter (Windows.live s.now) := by
  have hp : windowsOf (s.throttle.recordFailure host.toLowerCase s.now email address) scope =
      (Windows.push s.now (windowsOf s.throttle scope) (keyOf host email address scope)).1 := by
    cases scope <;> rfl
  rw [hp, ← Windows.entries_record]
  exact Windows.entries_push hC k

theorem withinQuota_failed {call : Nat} {fresh email password address : String} {user : Option User}
    (hi : WithinQuota host s) (hf : s.frames.get call = some (.loginCompare email password address user))
    (ha : accepted host password user = none) (hC : EvictsNothing host s (.resume call fresh)) :
    WithinQuota host (s.perform call (loginFailed host s email address)) := by
  intro scope k
  have hfailing : s.failing host (.resume call fresh) = some (email, address) := by
    rw [State.failing, hf]
    exact if_pos ha
  have hroom := hC _ hfailing scope (mem_scopes scope)
  have hrec := recordFailure_entries hroom k
  have hp := pending_compared host (loginFailed host s email address) hf
    (fun f' h => by cases h) scope k
  have hreset : resets host (s.perform call
    (loginFailed host s email address)) scope k = resets host s scope k := by
    cases scope with
    | account => exact (resets_snoc rfl k).trans (List.append_nil _)
    | address => rfl
  rw [failures_snoc rfl, hreset]
  have hq := hi scope k
  by_cases hk : k = keyOf host email address scope
  · rw [if_pos hk] at hrec
    rw [if_pos (by simpa [Attempt.countsFor] using hk.symm)]
    have hopen : pending host s scope k =
        pending host (s.perform call (loginFailed host s email address)) scope k + 1 := by
      rw [← hp, decide_eq_true hk.symm]
      rfl
    rw [hopen] at hq
    exact (hq.prune.fail window_pos).forget hrec
  · rw [if_neg hk] at hrec
    rw [if_neg (by simpa [Attempt.countsFor] using Ne.symm hk), List.append_nil]
    have hopen : pending host (s.perform call (loginFailed host s email address)) scope k ≤
        pending host s scope k := Nat.le_of_add_right_le (Nat.le_of_eq hp)
    exact (hq.forget hrec).leave hopen

theorem withinQuota_succeeded {call : Nat} {email password address : String} {user : Option User} {u : User}
    (hi : WithinQuota host s) (hf : s.frames.get call = some (.loginCompare email password address user)) :
    WithinQuota host (s.perform call (loginSucceeded host s email address u)) := by
  intro scope k
  have hp := pending_compared host (loginSucceeded host s email address u) hf
    (fun f' h => by cases h; rfl) scope k
  have hopen : pending host (s.perform call (loginSucceeded host s email address u)) scope k ≤
      pending host s scope k := Nat.le_of_add_right_le (Nat.le_of_eq hp)
  have hq := hi scope k
  rw [failures_snoc rfl]
  have hnone : (if false && Attempt.countsFor host scope k
      { email := email, address := address, at_ := s.now, failed := false } then [s.now] else []) = [] := rfl
  rw [hnone, List.append_nil]
  cases scope with
  | address => exact hq.leave hopen
  | account =>
      rw [resets_snoc rfl]
      have hentries : (windowsOf (s.perform call
        (loginSucceeded host s email address u)).throttle .account).entries k =
          if k = normalize host.toLowerCase email then [] else (windowsOf s.throttle .account).entries k :=
        Windows.entries_erase _ _ _
      rw [hentries]
      by_cases hk : k = normalize host.toLowerCase email
      · rw [if_pos hk, if_pos (by simp [Attempt.countsFor, keyOf, hk])]
        exact hq.reset hopen
      · rw [if_neg hk, if_neg (by simp [Attempt.countsFor, keyOf, Ne.symm hk]), List.append_nil]
        exact hq.leave hopen

theorem start_other (host : Host) (s : State) {request : Request}
    (h : ∀ email password address, request ≠ .login email password address) :
    (request.start host s).throttle = none ∧ (request.start host s).attempt = none ∧
      ∀ f', (request.start host s).next.frame = some f' → f'.attempt = none := by
  cases request with
  | login email password address => exact absurd rfl (h email password address)
  | register =>
      simp only [Request.start]
      split
      · exact ⟨rfl, rfl, fun f' hf => by cases hf; rfl⟩
      · exact ⟨rfl, rfl, fun f' hf => by rw [throw_frame] at hf; cases hf⟩
  | getActiveUser =>
      simp only [Request.start]
      split
      · split
        · exact ⟨rfl, rfl, fun f' hf => by cases hf⟩
        · exact ⟨rfl, rfl, fun f' hf => by cases hf; rfl⟩
      · exact ⟨rfl, rfl, fun f' hf => by cases hf; rfl⟩
  | listUsers | createUser | updateUser | resetPassword | changeOwnPassword =>
      exact ⟨rfl, rfl, fun f' hf => by cases hf; rfl⟩

theorem withinQuota_step {a : Action} (hi : WithinQuota host s)
    (hC : AdmitsBelowLimit host s a ∧ EvictsNothing host s a) (h : step host s a = some t) :
    WithinQuota host t := by
  cases step_shape h with
  | tick ms ht =>
      rw [ht]
      exact fun scope k => (hi scope k).later (Nat.le_add_right s.now ms)
  | reject call f e hf he ht =>
      rw [ht]
      refine withinQuota_perform hi (reject_other he).1 (reject_other he).2 ?_
      intro f' hf'
      rw [(reject_quiet he).2.2] at hf'
      cases hf'
  | call request ht =>
      by_cases hl : ∃ email password address, request = .login email password address
      · obtain ⟨email, password, address, rfl⟩ := hl
        exact withinQuota_login hi hC.1 h
      · simp only [not_exists] at hl
        obtain ⟨hthr, hatt, hnext⟩ := start_other host s hl
        rw [ht]
        exact withinQuota_perform hi hthr hatt fun f' hf' hne => absurd (hnext f' hf') hne
  | resume call fresh f e hf he ht =>
      rw [ht]
      by_cases hl : ∃ email password address user, f = .loginCompare email password address user
      · obtain ⟨email, password, address, user, rfl⟩ := hl
        obtain rfl := Option.some.inj he
        rw [loginCompared]
        cases ha : accepted host password user with
        | none => exact withinQuota_failed hi hf ha hC.2
        | some u => exact withinQuota_succeeded hi hf
      · simp only [not_exists] at hl
        obtain ⟨hthr, hatt⟩ := resume_other he hl
        refine withinQuota_perform hi hthr hatt ?_
        intro f' hf' hne
        exact ⟨f, hf, follows_attempt (resume_follows he hf') hne⟩

theorem withinQuota_boot (users : Table User) (tokens : List JwtPayload) :
    WithinQuota host (State.boot users tokens) := by
  intro scope k
  cases scope <;> exact Quota.empty _ _ _

theorem countP_failures (s : State) (scope : LockScope) (k : String) (start : Nat) :
    (failures host s scope k).countP (fun x => start ≤ x ∧ x < start + LOGIN_WINDOW_MS) =
      s.attempts.countP fun x => x.failed && x.countsFor host scope k &&
        start ≤ x.at_ && x.at_ < start + LOGIN_WINDOW_MS := by
  rw [failures, List.countP_map, List.countP_filter]
  apply List.countP_congr
  intro x _
  simp only [Function.comp_apply, Bool.and_eq_true, decide_eq_true_eq]
  constructor
  · rintro ⟨⟨h₁, h₂⟩, h₃, h₄⟩
    exact ⟨⟨⟨h₃, h₄⟩, h₁⟩, h₂⟩
  · rintro ⟨⟨⟨h₃, h₄⟩, h₁⟩, h₂⟩
    exact ⟨⟨h₁, h₂⟩, h₃, h₄⟩

/-- In every window without a success of the account, no more comparisons than
the limit fail for one normalised email, and in every window no more than the
limit for one client address, in every run in which logins are let in only
while recorded failures and logins in flight are together below the limits and
in which no unexpired failures are evicted. -/
theorem brute_force_bound {users : Table User} {tokens : List JwtPayload} {as : List Action}
    (h : run (step host) (State.boot users tokens) as = some s)
    (hC : Along (step host) (fun s a => AdmitsBelowLimit host s a ∧ EvictsNothing host s a)
      (State.boot users tokens) as) (start : Nat) :
    (∀ account, (∀ x ∈ s.attempts, normalize host.toLowerCase x.email = account →
        start ≤ x.at_ → x.at_ < start + LOGIN_WINDOW_MS → x.failed = true) →
      s.attempts.countP (fun x => x.failed && normalize host.toLowerCase x.email = account &&
        start ≤ x.at_ && x.at_ < start + LOGIN_WINDOW_MS) ≤ MAX_FAILURES_PER_ACCOUNT) ∧
    ∀ address, s.attempts.countP (fun x => x.failed && x.address = address &&
        start ≤ x.at_ && x.at_ < start + LOGIN_WINDOW_MS) ≤ MAX_FAILURES_PER_ADDRESS := by
  have hi : WithinQuota host s :=
    invariant_along (fun _ _ _ hi hC hs => withinQuota_step hi hC hs) h hC (withinQuota_boot users tokens)
  refine ⟨?_, ?_⟩
  · intro account hsuccess
    have hb := (hi .account account).bound start ?_
    · rw [countP_failures] at hb
      exact hb
    · intro r hr hin
      obtain ⟨x, hx, rfl⟩ := List.mem_map.mp hr
      obtain ⟨hx, hf⟩ := List.mem_filter.mp hx
      simp only [Bool.and_eq_true, Bool.not_eq_true', Attempt.countsFor, decide_eq_true_eq] at hf
      have := hsuccess x hx hf.2 hin.1 hin.2
      rw [hf.1] at this
      cases this
  · intro address
    have hb := (hi .address address).bound start nofun
    rw [countP_failures] at hb
    exact hb

def volley (n : Nat) : List Action :=
  List.replicate n (.call (.login "a@x" "guess" (some "10.0.0.9"))) ++
    (List.range n).flatMap fun call => [.resume call "", .resume call ""]

theorem volley_exceeds_limit : ¬ ∀ (host : Host) (as : List Action) (s : State) (start : Nat),
    run (step host) (State.boot .empty []) as = some s →
      (∀ x ∈ s.attempts, normalize host.toLowerCase x.email = "a@x" →
        start ≤ x.at_ → x.at_ < start + LOGIN_WINDOW_MS → x.failed = true) →
      s.attempts.countP (fun x => x.failed && normalize host.toLowerCase x.email = "a@x" &&
        start ≤ x.at_ && x.at_ < start + LOGIN_WINDOW_MS) ≤ MAX_FAILURES_PER_ACCOUNT := by
  intro h
  have hsix : ∀ s ∈ run (step plainHost) (State.boot .empty []) (volley 6),
      (∀ x ∈ s.attempts, normalize plainHost.toLowerCase x.email = "a@x" →
        0 ≤ x.at_ → x.at_ < 0 + LOGIN_WINDOW_MS → x.failed = true) →
      s.attempts.countP (fun x => x.failed && normalize plainHost.toLowerCase x.email = "a@x" &&
        0 ≤ x.at_ && x.at_ < 0 + LOGIN_WINDOW_MS) ≤ MAX_FAILURES_PER_ACCOUNT :=
    fun s hs => h plainHost (volley 6) s 0 hs
  exact absurd hsix (by decide +kernel)

theorem volley_within_limit : ∃ s, run (step plainHost) (State.boot .empty []) (volley 5) = some s ∧
    s.attempts.countP (fun x => x.failed && x.address = "10.0.0.9" &&
      0 ≤ x.at_ && x.at_ < 0 + LOGIN_WINDOW_MS) ≤ MAX_FAILURES_PER_ADDRESS := by
  obtain ⟨s, hs⟩ : ∃ s, run (step plainHost) (State.boot .empty []) (volley 5) = some s :=
    Option.isSome_iff_exists.mp (by decide +kernel)
  exact ⟨s, hs, (brute_force_bound hs (by decide +kernel) 0).2 "10.0.0.9"⟩

end EspClawPlatform.Identity
