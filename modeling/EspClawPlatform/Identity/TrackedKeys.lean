import EspClawPlatform.Identity.ThrottleHistory

namespace EspClawPlatform.Identity

open Run

/-- A window as the throttle keeps it: failures, in the order in which they happened. -/
def Chronicle (now : Nat) (failures : List Nat) : Prop :=
  failures ≠ [] ∧ failures.Pairwise (· ≤ ·) ∧ ∀ t ∈ failures, t ≤ now

theorem chronicle_sublist {now : Nat} {failures kept : List Nat} (h : Chronicle now failures)
    (hsub : kept.Sublist failures) (hne : kept ≠ []) : Chronicle now kept :=
  ⟨hne, h.2.1.sublist hsub, fun t ht => h.2.2 t (hsub.mem ht)⟩

theorem chronicle_later {now now' : Nat} {failures : List Nat} (h : Chronicle now failures) (hle : now ≤ now') :
    Chronicle now' failures :=
  ⟨h.1, h.2.1, fun t ht => Nat.le_trans (h.2.2 t ht) hle⟩

theorem chronicle_concat {now : Nat} {failures : List Nat} (hs : failures.Pairwise (· ≤ ·))
    (hpast : ∀ t ∈ failures, t ≤ now) : Chronicle now (failures ++ [now]) := by
  refine ⟨List.append_ne_nil_of_right_ne_nil _ (List.cons_ne_nil _ _), ?_, ?_⟩
  · rw [List.pairwise_append]
    exact ⟨hs, List.pairwise_singleton _ _, fun t ht u hu => List.mem_singleton.mp hu ▸ hpast t ht⟩
  · intro t ht
    rcases List.mem_append.mp ht with ht | ht
    · exact hpast t ht
    · exact Nat.le_of_eq (List.mem_singleton.mp ht)

namespace Windows

variable {now : Nat} {map : Windows} {key : String}

def Ordered (now : Nat) (map : Windows) : Prop := ∀ row ∈ map.rows, Chronicle now row.2

theorem ordered_set {failures : List Nat} (h : Ordered now map) (hf : Chronicle now failures) :
    Ordered now (map.set key failures) := by
  intro row hrow
  rcases Table.mem_save.mp hrow with rfl | ⟨hrow, -⟩
  · exact hf
  · exact h row hrow

theorem ordered_erase (h : Ordered now map) (key : String) : Ordered now (map.erase key) :=
  fun row hrow => h row (Table.mem_erase.mp hrow).1

theorem ordered_drop (h : Ordered now map) (n : Nat) : Ordered now (map.drop n) :=
  fun row hrow => h row (List.mem_of_mem_drop hrow)

theorem ordered_prune (h : Ordered now map) (at_ : Nat) (key : String) : Ordered now (prune at_ map key) := by
  rw [prune]
  split
  · exact h
  · rename_i failures hget
    split
    · exact ordered_erase h key
    · rename_i kept hkept
      exact ordered_set h (chronicle_sublist (h _ (Table.get_eq_some.mp hget)) List.filter_sublist hkept)

theorem ordered_expire (h : Ordered now map) (at_ : Nat) : Ordered now (expire at_ map) := by
  rw [expire]
  generalize map.rows.map Prod.fst = pruned
  induction pruned generalizing map with
  | nil => exact h
  | cons key pruned ih => exact ih (ordered_prune h at_ key)

theorem ordered_record (h : Ordered now map) (key : String) : Ordered now (record now map key) := by
  have hpruned := ordered_prune h now key
  refine ordered_set hpruned ?_
  cases hget : (prune now map key).get key with
  | none => exact chronicle_concat List.Pairwise.nil fun t ht => absurd ht List.not_mem_nil
  | some failures =>
      have hrow := hpruned _ (Table.get_eq_some.mp hget)
      exact chronicle_concat hrow.2.1 hrow.2.2

theorem ordered_push (h : Ordered now map) (key : String) : Ordered now (push now map key).1 := by
  rw [push]
  split
  · exact ordered_drop (ordered_expire (ordered_record h key) now) _
  · exact ordered_record h key

theorem getLast?_push (h : map.size ≤ MAX_TRACKED_KEYS) :
    (entries (push now map key).1 key).getLast? = some now := by
  have hrecord : entries (record now map key) key = (entries map key).filter (live now) ++ [now] := by
    rw [entries_record, if_pos rfl]
  have hlive : live now now = true := decide_eq_true (Nat.lt_add_of_pos_right (by decide))
  rcases entries_push_of_kept (not_evicted_self h) with he | he
  · rw [he, hrecord, List.getLast?_concat]
  · rw [he, hrecord, List.filter_append, List.filter_cons_of_pos hlive, List.filter_nil, List.getLast?_concat]

theorem get_of_getLast? {t : Nat} (h : (entries map key).getLast? = some t) :
    ∃ failures, map.get key = some failures ∧ failures.getLast? = some t := by
  rw [entries] at h
  cases hget : map.get key with
  | none =>
      rw [hget] at h
      cases h
  | some failures =>
      rw [hget] at h
      exact ⟨failures, rfl, h⟩

end Windows

section History

variable {toLowerCase : String → String} {throttle throttle' : LoginThrottle} {calls : List TimedCall} {now : Nat}

structure Tracked (now : Nat) (throttle : LoginThrottle) : Prop where
  size : ∀ scope, (windowsOf throttle scope).size ≤ MAX_TRACKED_KEYS
  ordered : ∀ scope, (windowsOf throttle scope).Ordered now

theorem tracked_empty : Tracked now {} where
  size scope := by cases scope <;> exact Nat.zero_le _
  ordered scope row hrow := by cases scope <;> cases hrow

theorem tracked_later {at_ : Nat} (h : Tracked at_ throttle) (hle : at_ ≤ now) : Tracked now throttle where
  size := h.size
  ordered scope row hrow := chronicle_later (h.ordered scope row hrow) hle

theorem tracked_handle {x : TimedCall} (h : Tracked x.at_ throttle)
    (hx : throttle.handle toLowerCase x = some throttle') : Tracked x.at_ throttle' := by
  obtain ⟨at_, call⟩ := x
  cases call with
  | assertAllowed email address =>
      obtain rfl := Option.some.inj hx
      refine ⟨fun scope => ?_, fun scope => ?_⟩
      · rw [windowsOf_asserted]
        exact Nat.le_trans (Windows.size_prune_le _ _ _) (h.size scope)
      · rw [windowsOf_asserted]
        exact Windows.ordered_prune (h.ordered scope) at_ _
  | recordFailure email address =>
      obtain rfl := Option.some.inj hx
      refine ⟨fun scope => ?_, fun scope => ?_⟩
      · rw [windowsOf_recordFailure]
        exact Windows.size_push_le _ _ _
      · rw [windowsOf_recordFailure]
        exact Windows.ordered_push (h.ordered scope) _
  | recordSuccess email =>
      obtain rfl := Option.some.inj hx
      refine ⟨fun scope => ?_, fun scope => ?_⟩
      · cases scope with
        | account => exact Nat.le_trans (List.length_filter_le _ _) (h.size .account)
        | address => exact h.size .address
      · cases scope with
        | account => exact Windows.ordered_erase (h.ordered .account) _
        | address => exact h.ordered .address

theorem tracked_run (hclock : (calls.map TimedCall.at_).Pairwise (· ≤ ·))
    (h : run (LoginThrottle.handle toLowerCase) {} calls = some throttle) (hnow : ∀ x ∈ calls, x.at_ ≤ now) :
    Tracked now throttle := by
  induction calls using List.reverseRecOn generalizing throttle now with
  | nil =>
      obtain rfl := Option.some.inj h
      exact tracked_empty
  | append_singleton calls x ih =>
      obtain ⟨before, hbefore, hx⟩ := run_append.mp h
      rw [List.map_append, List.pairwise_append] at hclock
      have hpast : ∀ y ∈ calls, y.at_ ≤ x.at_ := fun y hy =>
        hclock.2.2 _ (List.mem_map_of_mem hy) _ List.mem_cons_self
      have hlast := tracked_handle (ih hclock.1 hbefore hpast) (run_singleton.mp hx)
      exact tracked_later hlast (hnow x (List.mem_append_right calls List.mem_cons_self))

theorem tracked_before {x : TimedCall} (hclock : ((calls ++ [x]).map TimedCall.at_).Pairwise (· ≤ ·))
    (h : run (LoginThrottle.handle toLowerCase) {} calls = some throttle) : Tracked x.at_ throttle := by
  rw [List.map_append, List.pairwise_append] at hclock
  exact tracked_run hclock.1 h fun y hy => hclock.2.2 _ (List.mem_map_of_mem hy) _ List.mem_cons_self

end History

/-- After every call both maps are within the bound, no window in them is empty
or out of order, and a failure that has just been recorded is in both. -/
theorem maps_stay_bounded {toLowerCase : String → String} {calls : List TimedCall} {x : TimedCall}
    {throttle : LoginThrottle} (hclock : ((calls ++ [x]).map TimedCall.at_).Pairwise (· ≤ ·))
    (h : run (LoginThrottle.handle toLowerCase) {} (calls ++ [x]) = some throttle) (scope : LockScope) :
    (windowsOf throttle scope).size ≤ MAX_TRACKED_KEYS ∧
    (∀ row ∈ (windowsOf throttle scope).rows, row.2 ≠ [] ∧ row.2.Pairwise (· ≤ ·)) ∧
    ∀ email address, x.call = .recordFailure email address →
      ∃ failures, (windowsOf throttle scope).get (failureKey toLowerCase email address scope) = some failures ∧
        failures.getLast? = some x.at_ := by
  obtain ⟨before, hbefore, hx⟩ := run_append.mp h
  have htracked := tracked_before hclock hbefore
  have hafter := tracked_handle htracked (run_singleton.mp hx)
  refine ⟨hafter.size scope, fun row hrow => ?_, fun email address hcall => ?_⟩
  · have hrow := hafter.ordered scope row hrow
    exact ⟨hrow.1, hrow.2.1⟩
  · obtain ⟨at_, call⟩ := x
    obtain rfl : call = .recordFailure email address := hcall
    obtain rfl := Option.some.inj (run_singleton.mp hx)
    rw [windowsOf_recordFailure]
    exact Windows.get_of_getLast? (Windows.getLast?_push (htracked.size scope))

theorem second_failure_is_last : ∃ throttle failures,
    run (LoginThrottle.handle id) {}
      [⟨1000, .recordFailure "a@x" "10.0.0.1"⟩, ⟨2000, .recordFailure "b@x" "10.0.0.1"⟩] = some throttle ∧
    throttle.byAddress.get "10.0.0.1" = some failures ∧ failures.getLast? = some 2000 := by
  obtain ⟨failures, hget, hlast⟩ := (@maps_stay_bounded id [⟨1000, .recordFailure "a@x" "10.0.0.1"⟩]
    ⟨2000, .recordFailure "b@x" "10.0.0.1"⟩ _ (by decide) rfl .address).2.2 "b@x" "10.0.0.1" rfl
  exact ⟨_, failures, rfl, hget, hlast⟩

end EspClawPlatform.Identity
