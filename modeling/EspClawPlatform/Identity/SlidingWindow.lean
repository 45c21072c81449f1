import Mathlib.Order.Bounds.Defs
import Mathlib.Order.MinMax
import EspClawPlatform.Identity.Independence

namespace EspClawPlatform.Identity

open Run

variable {toLowerCase : String → String} {throttle : LoginThrottle} {calls : List TimedCall} {scope : LockScope}
  {k email address : String} {now : Nat}

/-- The histories of login attempts made one after another, with what the throttle remembers. -/
inductive Attempts (toLowerCase : String → String) : List TimedCall → LoginThrottle → Prop
  | nil : Attempts toLowerCase [] {}
  | refused {calls : List TimedCall} {throttle : LoginThrottle} (h : Attempts toLowerCase calls throttle)
      (asked : Nat) (email address : String) (hwait : 0 < throttle.retryAfter toLowerCase asked email address) :
      Attempts toLowerCase (calls ++ [⟨asked, .assertAllowed email address⟩])
        (throttle.asserted toLowerCase asked email address)
  | failed {calls : List TimedCall} {throttle : LoginThrottle} (h : Attempts toLowerCase calls throttle)
      (asked compared : Nat) (email address : String)
      (hwait : throttle.retryAfter toLowerCase asked email address = 0) :
      Attempts toLowerCase
        (calls ++ [⟨asked, .assertAllowed email address⟩, ⟨compared, .recordFailure email address⟩])
        ((throttle.asserted toLowerCase asked email address).recordFailure toLowerCase compared email address)
  | succeeded {calls : List TimedCall} {throttle : LoginThrottle} (h : Attempts toLowerCase calls throttle)
      (asked compared : Nat) (email address : String)
      (hwait : throttle.retryAfter toLowerCase asked email address = 0) :
      Attempts toLowerCase (calls ++ [⟨asked, .assertAllowed email address⟩, ⟨compared, .recordSuccess email⟩])
        ((throttle.asserted toLowerCase asked email address).recordSuccess toLowerCase email)

theorem attempts_run (h : Attempts toLowerCase calls throttle) :
    run (LoginThrottle.handle toLowerCase) {} calls = some throttle := by
  induction h with
  | nil => rfl
  | refused _ _ _ _ _ ih => exact run_append.mpr ⟨_, ih, rfl⟩
  | failed _ _ _ _ _ _ ih => exact run_append.mpr ⟨_, ih, rfl⟩
  | succeeded _ _ _ _ _ _ ih => exact run_append.mpr ⟨_, ih, rfl⟩

def Fits (toLowerCase : String → String) (throttle : LoginThrottle) (x : TimedCall) : Prop :=
  ∀ y ∈ x.call.failure,
    (Windows.record x.at_ throttle.byAccount (normalize toLowerCase y.1)).size ≤ MAX_TRACKED_KEYS ∧
      (Windows.record x.at_ throttle.byAddress y.2).size ≤ MAX_TRACKED_KEYS

instance (toLowerCase : String → String) (throttle : LoginThrottle) (x : TimedCall) :
    Decidable (Fits toLowerCase throttle x) :=
  inferInstanceAs (Decidable (∀ y ∈ x.call.failure, _))

theorem retains_of_fits {x : TimedCall} (h : Fits toLowerCase throttle x) (scope : LockScope) (k : String) :
    Retains toLowerCase scope k throttle x := by
  intro y hy
  have hnone : Windows.evicted x.at_ (windowsOf throttle scope) (failureKey toLowerCase y.1 y.2 scope) = [] := by
    cases scope with
    | account => exact Windows.evicted_of_size (h y hy).1
    | address => exact Windows.evicted_of_size (h y hy).2
  rw [hnone]
  exact List.not_mem_nil

theorem limitOf_pos (scope : LockScope) : 0 < limitOf scope := by cases scope <;> decide

theorem below_of_allowed (hrec : OnRecord toLowerCase scope (failureKey toLowerCase email address scope) now calls throttle)
    (h : throttle.retryAfter toLowerCase now email address = 0) :
    ((failuresOf toLowerCase scope (failureKey toLowerCase email address scope) calls).filter
      (Windows.live now)).length < limitOf scope := by
  have hscope : Windows.retryAfterMs now (windowsOf throttle scope) (failureKey toLowerCase email address scope)
      (limitOf scope) = 0 := by
    rw [LoginThrottle.retryAfter] at h
    cases scope with
    | account => exact Nat.le_zero.mp (h ▸ Nat.le_max_left ..)
    | address => exact Nat.le_zero.mp (h ▸ Nat.le_max_right ..)
  rw [Windows.retryAfterMs_eq (limitOf_pos scope), hrec] at hscope
  by_contra hle
  have hpos := (Window.wait_pos (limitOf_pos scope)).mpr (Nat.not_lt.mp hle)
  exact absurd hscope (Nat.ne_of_gt hpos)

theorem failuresOf_asserted (calls : List TimedCall) (asked : Nat) (email address : String) :
    failuresOf toLowerCase scope k (calls ++ [⟨asked, .assertAllowed email address⟩]) =
      failuresOf toLowerCase scope k calls :=
  failuresOf_concat calls _

theorem failuresOf_attempt (calls : List TimedCall) (asked : Nat) (email address : String) (x : TimedCall) :
    failuresOf toLowerCase scope k (calls ++ [⟨asked, .assertAllowed email address⟩, x]) =
      x.recorded toLowerCase scope k (failuresOf toLowerCase scope k calls) := by
  rw [List.append_cons, failuresOf_concat, failuresOf_asserted]

theorem live_le_limit (h : Attempts toLowerCase calls throttle) (hclock : (calls.map TimedCall.at_).Pairwise (· ≤ ·))
    (hret : Along (LoginThrottle.handle toLowerCase) (Retains toLowerCase scope k) {} calls)
    (hnow : ∀ x ∈ calls, x.at_ ≤ now) :
    ((failuresOf toLowerCase scope k calls).filter (Windows.live now)).length ≤ limitOf scope := by
  induction h with
  | nil => exact Nat.zero_le _
  | @refused calls throttle h asked email address hwait ih =>
      rw [List.map_append] at hclock
      rw [failuresOf_asserted]
      exact ih (List.pairwise_append.mp hclock).1 ((along_append (attempts_run h)).mp hret).1
        fun x hx => hnow x (List.mem_append_left _ hx)
  | @failed calls throttle h asked compared email address hwait ih =>
      have hbefore := ((along_append (attempts_run h)).mp hret).1
      have hpast := fun x hx => hnow x (List.mem_append_left _ hx)
      rw [List.map_append, List.pairwise_append] at hclock
      rw [failuresOf_attempt]
      simp only [TimedCall.recorded]
      split
      · rename_i hkey
        subst hkey
        have hasked : ∀ x ∈ calls, x.at_ ≤ asked := fun x hx =>
          hclock.2.2 _ (List.mem_map_of_mem hx) _ List.mem_cons_self
        have hroom := below_of_allowed (onRecord_run (attempts_run h) hbefore hasked) hwait
        have hlater : asked ≤ now :=
          hnow ⟨asked, .assertAllowed email address⟩ (List.mem_append_right _ List.mem_cons_self)
        have hfewer := Window.length_live_of_le LOGIN_WINDOW_MS hlater
          (failuresOf toLowerCase scope (failureKey toLowerCase email address scope) calls)
        rw [List.filter_append, List.length_append]
        have hone := List.length_filter_le (Windows.live now) [compared]
        rw [List.length_singleton] at hone
        rw [Windows.live_eq] at hroom hone ⊢
        omega
      · exact ih hclock.1 hbefore hpast
  | @succeeded calls throttle h asked compared email address hwait ih =>
      have hkept := ih (List.pairwise_append.mp (List.map_append ▸ hclock)).1
        ((along_append (attempts_run h)).mp hret).1 fun x hx => hnow x (List.mem_append_left _ hx)
      rw [failuresOf_attempt]
      cases scope with
      | account =>
          simp only [TimedCall.recorded]
          split
          · exact Nat.zero_le _
          · exact hkept
      | address => exact hkept

theorem failuresOf_sorted (hclock : (calls.map TimedCall.at_).Pairwise (· ≤ ·)) (scope : LockScope) (k : String) :
    (failuresOf toLowerCase scope k calls).Pairwise (· ≤ ·) :=
  hclock.sublist (failuresOf_sublist calls)

theorem failuresOf_past (hnow : ∀ x ∈ calls, x.at_ ≤ now) : ∀ t ∈ failuresOf toLowerCase scope k calls, t ≤ now := by
  intro t ht
  obtain ⟨x, hx, rfl⟩ := List.mem_map.mp ((failuresOf_sublist calls).mem ht)
  exact hnow x hx

def failuresInWindow (toLowerCase : String → String) (calls : List TimedCall) (now : Nat) (scope : LockScope)
    (k : String) : Nat :=
  Window.inWindow LOGIN_WINDOW_MS now (failuresOf toLowerCase scope k calls)

theorem wait_pos_iff (hnow : ∀ x ∈ calls, x.at_ ≤ now) (scope : LockScope) (k : String) :
    0 < Window.wait LOGIN_WINDOW_MS (limitOf scope) now
        ((failuresOf toLowerCase scope k calls).filter (Windows.live now)) ↔
      limitOf scope ≤ failuresInWindow toLowerCase calls now scope k := by
  rw [failuresInWindow, Window.inWindow_of_past (failuresOf_past hnow)]
  exact Window.wait_pos (limitOf_pos scope)

theorem retryAfter_later (h : Attempts toLowerCase calls throttle)
    (hclock : (calls.map TimedCall.at_).Pairwise (· ≤ ·))
    (hret : Along (LoginThrottle.handle toLowerCase) (RetainsBoth toLowerCase email address) {} calls)
    (hnow : ∀ x ∈ calls, x.at_ ≤ now) (d : Nat) :
    (throttle.asserted toLowerCase now email address).retryAfter toLowerCase (now + d) email address =
      throttle.retryAfter toLowerCase now email address - d := by
  have hrun := attempts_run h
  obtain ⟨haccount, haddress⟩ := along_and.mp hret
  have hrun' : run (LoginThrottle.handle toLowerCase) {} (calls ++ [⟨now, .assertAllowed email address⟩]) =
      some (throttle.asserted toLowerCase now email address) := run_append.mpr ⟨throttle, hrun, rfl⟩
  have hret' : Along (LoginThrottle.handle toLowerCase) (RetainsBoth toLowerCase email address) {}
      (calls ++ [⟨now, .assertAllowed email address⟩]) :=
    (along_append hrun).mpr ⟨hret, ⟨nofun, nofun⟩, fun _ _ => trivial⟩
  have hnow' : ∀ x ∈ calls ++ [⟨now, .assertAllowed email address⟩], x.at_ ≤ now + d := by
    intro x hx
    rcases List.mem_append.mp hx with hx | hx
    · exact Nat.le_add_right_of_le (hnow x hx)
    · rw [List.mem_singleton.mp hx]
      exact Nat.le_add_right now d
  have hlater : ∀ scope k, Along (LoginThrottle.handle toLowerCase) (Retains toLowerCase scope k) {} calls →
      Window.wait LOGIN_WINDOW_MS (limitOf scope) (now + d)
          ((failuresOf toLowerCase scope k calls).filter (Windows.live (now + d))) =
        Window.wait LOGIN_WINDOW_MS (limitOf scope) now
          ((failuresOf toLowerCase scope k calls).filter (Windows.live now)) - d :=
    fun scope k hret => Window.wait_later (limitOf_pos scope) (failuresOf_sorted hclock scope k)
      (live_le_limit h hclock hret hnow) d
  rw [retryAfter_run hrun' hret' hnow', retryAfter_run hrun hret hnow, failuresOf_asserted, failuresOf_asserted]
  rw [show MAX_FAILURES_PER_ACCOUNT = limitOf .account from rfl,
    show MAX_FAILURES_PER_ADDRESS = limitOf .address from rfl, hlater .account _ haccount, hlater .address _ haddress]
  omega

/-- `assertAllowed` throws exactly when the failures of the account since its
last success or those of the address in the window have reached the limit, and
the wait is the least after which the same call does not throw. -/
theorem window_is_exact (h : Attempts toLowerCase calls throttle)
    (hclock : (calls.map TimedCall.at_).Pairwise (· ≤ ·)) (hnow : ∀ x ∈ calls, x.at_ ≤ now)
    (hfits : Along (LoginThrottle.handle toLowerCase) (Fits toLowerCase) {} calls) (email address : String) :
    (0 < throttle.retryAfter toLowerCase now email address ↔
      MAX_FAILURES_PER_ACCOUNT ≤ failuresInWindow toLowerCase calls now .account (normalize toLowerCase email) ∨
        MAX_FAILURES_PER_ADDRESS ≤ failuresInWindow toLowerCase calls now .address address) ∧
    (0 < throttle.retryAfter toLowerCase now email address →
      IsLeast {d | 0 < d ∧
          (throttle.asserted toLowerCase now email address).retryAfter toLowerCase (now + d) email address = 0}
        (throttle.retryAfter toLowerCase now email address)) := by
  have hret : Along (LoginThrottle.handle toLowerCase) (RetainsBoth toLowerCase email address) {} calls :=
    along_imp (fun _ _ hf => ⟨retains_of_fits hf .account _, retains_of_fits hf .address _⟩) hfits
  refine ⟨?_, fun hpos => ⟨⟨hpos, ?_⟩, ?_⟩⟩
  · rw [retryAfter_run (attempts_run h) hret hnow, lt_max_iff]
    exact or_congr (wait_pos_iff hnow .account _) (wait_pos_iff hnow .address _)
  · rw [retryAfter_later h hclock hret hnow, Nat.sub_self]
  · rintro d ⟨-, hd⟩
    rw [retryAfter_later h hclock hret hnow] at hd
    exact Nat.sub_eq_zero_iff_le.mp hd

theorem fifth_failure_waits : ∃ calls throttle, Attempts id calls throttle ∧
    IsLeast {d | 0 < d ∧ (throttle.asserted id 5000 "a@x" "10.0.0.1").retryAfter id (5000 + d) "a@x" "10.0.0.1" = 0}
      896000 := by
  have h₁ := (Attempts.nil : Attempts id [] {}).failed 1000 1000 "a@x" "10.0.0.1" (by decide +kernel)
  have h₂ := h₁.failed 2000 2000 "a@x" "10.0.0.1" (by decide +kernel)
  have h₃ := h₂.failed 3000 3000 "a@x" "10.0.0.1" (by decide +kernel)
  have h₄ := h₃.failed 4000 4000 "a@x" "10.0.0.1" (by decide +kernel)
  have h₅ := h₄.failed 5000 5000 "a@x" "10.0.0.1" (by decide +kernel)
  refine ⟨_, _, h₅, ?_⟩
  exact (window_is_exact h₅ (by decide) (by decide) (by decide +kernel) "a@x" "10.0.0.1").2 (by decide +kernel)

end EspClawPlatform.Identity
