import EspClawPlatform.Lib.Run
import EspClawPlatform.Lib.Window
import EspClawPlatform.Identity.LoginThrottle

namespace EspClawPlatform.Identity

open Run

inductive ThrottleCall
  | assertAllowed (email address : String)
  | recordFailure (email address : String)
  | recordSuccess (email : String)
  deriving DecidableEq

structure TimedCall where
  at_ : Nat
  call : ThrottleCall
  deriving DecidableEq

def ThrottleCall.failure : ThrottleCall → Option (String × String)
  | .recordFailure email address => some (email, address)
  | _ => none

namespace Windows

variable {now : Nat} {map : Windows} {key k : String}

/-- The keys that `push` drops with failures that are still in the window. -/
def evicted (now : Nat) (map : Windows) (key : String) : List String :=
  let added := record now map key
  if MAX_TRACKED_KEYS < added.size then
    ((expire now added).rows.take ((expire now added).size - MAX_TRACKED_KEYS)).map Prod.fst
  else []

theorem live_eq (now : Nat) : live now = Window.live LOGIN_WINDOW_MS now := rfl

theorem get_of_drop {n : Nat} {failures : List Nat} (h : (map.drop n).get k = some failures) :
    map.get k = some failures :=
  Table.get_eq_some.mpr (List.mem_of_mem_drop (Table.get_eq_some.mp h))

theorem get_drop {n : Nat} (h : k ∉ (map.rows.take n).map Prod.fst) : (map.drop n).get k = map.get k := by
  apply Option.ext
  intro failures
  rw [Table.get_eq_some, Table.get_eq_some]
  refine ⟨List.mem_of_mem_drop, fun hm => ?_⟩
  rw [← List.take_append_drop n map.rows] at hm
  rcases List.mem_append.mp hm with hm | hm
  · exact absurd (List.mem_map_of_mem hm) h
  · exact hm

theorem entries_expire (now : Nat) (map : Windows) (k : String) :
    entries (expire now map) k = entries map k ∨
      entries (expire now map) k = (entries map k).filter (live now) :=
  entries_foldl_prune now _ map k

theorem entries_push_of_kept (h : k ∉ evicted now map key) :
    entries (push now map key).1 k = entries (record now map key) k ∨
      entries (push now map key).1 k = (entries (record now map key) k).filter (live now) := by
  rw [evicted] at h
  rw [push]
  split at h
  · rename_i hmax
    rw [if_pos hmax, evictExpired, entries, get_drop h, ← entries]
    exact entries_expire now _ k
  · rename_i hmax
    rw [if_neg hmax]
    exact .inl rfl

theorem evicted_of_fits (h : (expire now (record now map key)).size ≤ MAX_TRACKED_KEYS) :
    evicted now map key = [] := by
  simp only [evicted, Nat.sub_eq_zero_of_le h, List.take_zero, List.map_nil, ite_self]

theorem evicted_of_size (h : (record now map key).size ≤ MAX_TRACKED_KEYS) : evicted now map key = [] := by
  rw [evicted, if_neg (Nat.not_lt.mpr h)]

def keys (map : Windows) : List String := map.rows.map Prod.fst

theorem length_keys (map : Windows) : map.keys.length = map.size := List.length_map _

theorem keys_set (map : Windows) (key : String) (failures : List Nat) :
    keys (map.set key failures) = if key ∈ keys map then keys map else keys map ++ [key] :=
  Table.put_keys map.rows (key, failures)

theorem keys_prune (now : Nat) (map : Windows) (key : String) : (prune now map key).keys.Sublist map.keys := by
  rw [prune]
  split
  · exact List.Sublist.refl _
  · rename_i failures hg
    split
    · exact List.filter_sublist.map _
    · have hkey : key ∈ keys map := List.mem_map_of_mem (Table.get_eq_some.mp hg)
      rw [keys_set, if_pos hkey]

theorem keys_expire (now : Nat) (map : Windows) : (expire now map).keys.Sublist map.keys := by
  rw [expire]
  generalize map.rows.map Prod.fst = pruned
  induction pruned generalizing map with
  | nil => exact List.Sublist.refl _
  | cons key pruned ih => exact (ih (prune now map key)).trans (keys_prune now map key)

theorem size_prune_le (now : Nat) (map : Windows) (key : String) : (prune now map key).size ≤ map.size := by
  rw [← length_keys, ← length_keys]
  exact (keys_prune now map key).length_le

theorem size_push_le (now : Nat) (map : Windows) (key : String) : (push now map key).1.size ≤ MAX_TRACKED_KEYS := by
  rw [push]
  split
  · rw [evictExpired, Table.size, Table.drop, List.length_drop, ← Table.size]
    omega
  · rename_i h
    exact Nat.not_lt.mp h

/-- A failure under a new key comes last in the map, and eviction starts from the front. -/
theorem not_evicted_self (h : map.size ≤ MAX_TRACKED_KEYS) : key ∉ evicted now map key := by
  have hpruned := Nat.le_trans (size_prune_le now map key) h
  rw [← length_keys] at hpruned
  have hrecord : (record now map key).keys = _ := keys_set (prune now map key) key _
  rw [evicted]
  split
  · rename_i hmax
    rw [← length_keys] at hmax
    split at hrecord
    · rw [hrecord] at hmax
      exact absurd hpruned (Nat.not_le.mpr hmax)
    · rename_i hnew
      have hlength : (record now map key).keys.length = (prune now map key).keys.length + 1 := by
        rw [hrecord, List.length_append, List.length_singleton]
      rw [List.map_take, ← keys, ← length_keys]
      by_cases hfits : (expire now (record now map key)).keys.length ≤ MAX_TRACKED_KEYS
      · rw [Nat.sub_eq_zero_of_le hfits, List.take_zero]
        exact List.not_mem_nil
      · -- nothing has expired, and one key is dropped
        have hall : (expire now (record now map key)).keys = (record now map key).keys :=
          (keys_expire now (record now map key)).eq_of_length_le (by omega)
        have hone : (prune now map key).keys.length + 1 - MAX_TRACKED_KEYS ≤ (prune now map key).keys.length := by
          have : 0 < MAX_TRACKED_KEYS := by decide
          omega
        rw [hall, hlength, hrecord, List.take_append_of_le_length hone]
        exact fun hmem => hnew (List.mem_of_mem_take hmem)
  · exact List.not_mem_nil

theorem push_count (now : Nat) (map : Windows) (key : String) :
    (push now map key).2 = ((entries map key).filter (live now)).length + 1 := by
  change (entries (record now map key) key).length = _
  rw [entries_record, if_pos rfl, List.length_append, List.length_singleton]

theorem get_prune (now : Nat) (map : Windows) (key : String) :
    (prune now map key).get key =
      if (entries map key).filter (live now) = [] then none
      else some ((entries map key).filter (live now)) := by
  rw [prune, entries]
  cases hg : map.get key with
  | none => exact hg
  | some failures =>
      rw [Option.getD_some]
      cases hf : failures.filter (live now) with
      | nil => simp only [hf, Table.get_erase_self, if_true]
      | cons t rest => simp only [hf, Table.get_set_self, reduceCtorEq, if_false]

theorem retryAfterMs_eq {limit : Nat} (hl : 0 < limit) (now : Nat) (map : Windows) (key : String) :
    retryAfterMs now map key limit =
      Window.wait LOGIN_WINDOW_MS limit now ((entries map key).filter (live now)) := by
  rw [retryAfterMs, get_prune]
  cases (entries map key).filter (live now) with
  | nil => exact (if_pos hl).symm
  | cons t rest => rfl

end Windows

section History

variable (toLowerCase : String → String)

def failureKey (email address : String) : LockScope → String
  | .account => normalize toLowerCase email
  | .address => address

def LoginThrottle.handle (throttle : LoginThrottle) (x : TimedCall) : Option LoginThrottle :=
  match x.call with
  | .assertAllowed email address => some (throttle.asserted toLowerCase x.at_ email address)
  | .recordFailure email address => some (throttle.recordFailure toLowerCase x.at_ email address)
  | .recordSuccess email => some (throttle.recordSuccess toLowerCase email)

def TimedCall.recorded (scope : LockScope) (k : String) (past : List Nat) (x : TimedCall) : List Nat :=
  match x.call, scope with
  | .assertAllowed .., _ => past
  | .recordFailure email address, scope =>
      if failureKey toLowerCase email address scope = k then past ++ [x.at_] else past
  | .recordSuccess email, .account => if normalize toLowerCase email = k then [] else past
  | .recordSuccess _, .address => past

/-- When the failures of `k` have happened: of an account those since its last
success, of an address all. -/
def failuresOf (scope : LockScope) (k : String) (calls : List TimedCall) : List Nat :=
  calls.foldl (TimedCall.recorded toLowerCase scope k) []

def Retains (scope : LockScope) (k : String) (throttle : LoginThrottle) (x : TimedCall) : Prop :=
  ∀ y ∈ x.call.failure, k ∉ Windows.evicted x.at_ (windowsOf throttle scope) (failureKey toLowerCase y.1 y.2 scope)

instance (scope : LockScope) (k : String) (throttle : LoginThrottle) (x : TimedCall) :
    Decidable (Retains toLowerCase scope k throttle x) :=
  inferInstanceAs (Decidable (∀ y ∈ x.call.failure, _))

variable {toLowerCase : String → String} {scope : LockScope} {k : String} {throttle throttle' : LoginThrottle}
  {calls : List TimedCall} {now : Nat}

theorem failuresOf_concat (calls : List TimedCall) (x : TimedCall) :
    failuresOf toLowerCase scope k (calls ++ [x]) =
      x.recorded toLowerCase scope k (failuresOf toLowerCase scope k calls) := by
  rw [failuresOf, List.foldl_concat, ← failuresOf]

theorem recorded_sublist (past : List Nat) (x : TimedCall) :
    (x.recorded toLowerCase scope k past).Sublist (past ++ [x.at_]) := by
  obtain ⟨at_, call⟩ := x
  have hkept : past.Sublist (past ++ [at_]) := List.sublist_append_left past [at_]
  cases call with
  | assertAllowed => exact hkept
  | recordFailure email address =>
      simp only [TimedCall.recorded]
      split
      · exact List.Sublist.refl _
      · exact hkept
  | recordSuccess email =>
      cases scope with
      | account =>
          simp only [TimedCall.recorded]
          split
          · exact List.nil_sublist _
          · exact hkept
      | address => exact hkept

theorem failuresOf_sublist (calls : List TimedCall) :
    (failuresOf toLowerCase scope k calls).Sublist (calls.map TimedCall.at_) := by
  induction calls using List.reverseRecOn with
  | nil => exact List.Sublist.refl []
  | append_singleton calls x ih =>
      rw [failuresOf_concat, List.map_append]
      exact (recorded_sublist _ x).trans (ih.append_right [x.at_])

/-- What is on record under `k` is, as far as it is still in the window. -/
def OnRecord (toLowerCase : String → String) (scope : LockScope) (k : String) (now : Nat)
    (calls : List TimedCall) (throttle : LoginThrottle) : Prop :=
  ((windowsOf throttle scope).entries k).filter (Windows.live now) =
    (failuresOf toLowerCase scope k calls).filter (Windows.live now)

theorem windowsOf_asserted (throttle : LoginThrottle) (now : Nat) (email address : String) (scope : LockScope) :
    windowsOf (throttle.asserted toLowerCase now email address) scope =
      Windows.prune now (windowsOf throttle scope) (failureKey toLowerCase email address scope) := by
  cases scope <;> rfl

theorem windowsOf_recordFailure (throttle : LoginThrottle) (now : Nat) (email address : String) (scope : LockScope) :
    windowsOf (throttle.recordFailure toLowerCase now email address) scope =
      (Windows.push now (windowsOf throttle scope) (failureKey toLowerCase email address scope)).1 := by
  cases scope <;> rfl

theorem asserted_record {at_ : Nat} (email address : String) (h : at_ ≤ now) :
    ((windowsOf (throttle.asserted toLowerCase at_ email address) scope).entries k).filter (Windows.live now) =
      ((windowsOf throttle scope).entries k).filter (Windows.live now) := by
  rw [windowsOf_asserted, Windows.entries_prune]
  split
  · exact Window.filter_live_of_le _ h _
  · rfl

theorem failed_record {at_ : Nat} {email address : String}
    (hk : k ∉ Windows.evicted at_ (windowsOf throttle scope) (failureKey toLowerCase email address scope))
    (h : at_ ≤ now) :
    ((windowsOf (throttle.recordFailure toLowerCase at_ email address) scope).entries k).filter
        (Windows.live now) =
      (if failureKey toLowerCase email address scope = k then (windowsOf throttle scope).entries k ++ [at_]
        else (windowsOf throttle scope).entries k).filter (Windows.live now) := by
  have hpush : (((windowsOf (throttle.recordFailure toLowerCase at_ email address) scope)).entries k).filter
      (Windows.live now) = (Windows.entries (Windows.record at_ (windowsOf throttle scope)
        (failureKey toLowerCase email address scope)) k).filter (Windows.live now) := by
    rw [windowsOf_recordFailure]
    rcases Windows.entries_push_of_kept hk with he | he
    · rw [he]
    · rw [he, Windows.live_eq, Windows.live_eq, Window.filter_live_of_le _ h]
  rw [hpush, Windows.entries_record]
  by_cases hkey : k = failureKey toLowerCase email address scope
  · rw [if_pos hkey, if_pos hkey.symm, List.filter_append, List.filter_append, Windows.live_eq, Windows.live_eq,
      Window.filter_live_of_le _ h]
  · rw [if_neg hkey, if_neg (Ne.symm hkey)]

def LoginThrottle.kept (throttle : LoginThrottle) (toLowerCase : String → String) (now : Nat)
    (email address : String) (scope : LockScope) : Nat :=
  ((windowsOf throttle scope).entries (failureKey toLowerCase email address scope)).countP (Windows.live now)

theorem kept_recordFailure {email address : String} (h : (windowsOf throttle scope).size ≤ MAX_TRACKED_KEYS) :
    (throttle.recordFailure toLowerCase now email address).kept toLowerCase now email address scope =
      throttle.kept toLowerCase now email address scope + 1 := by
  have hnow : Windows.live now now = true := decide_eq_true (Nat.lt_add_of_pos_right (by decide))
  rw [LoginThrottle.kept, List.countP_eq_length_filter,
    failed_record (Windows.not_evicted_self h) (Nat.le_refl now), if_pos rfl, ← List.countP_eq_length_filter,
    List.countP_append, List.countP_singleton, if_pos hnow]
  rfl

theorem succeeded_record (email : String) :
    ((windowsOf (throttle.recordSuccess toLowerCase email) scope).entries k).filter (Windows.live now) =
      (if scope = .account ∧ normalize toLowerCase email = k then []
        else (windowsOf throttle scope).entries k).filter (Windows.live now) := by
  cases scope with
  | account =>
      have herase : (windowsOf (throttle.recordSuccess toLowerCase email) .account).entries k =
          if k = normalize toLowerCase email then [] else (windowsOf throttle .account).entries k :=
        Windows.entries_erase _ _ _
      by_cases hk : normalize toLowerCase email = k
      · rw [herase, if_pos hk.symm, if_pos ⟨rfl, hk⟩]
      · rw [herase, if_neg (Ne.symm hk), if_neg fun h => hk h.2]
  | address => rw [if_neg fun h => LockScope.noConfusion h.1]; rfl

theorem onRecord_handle {x : TimedCall} (hi : OnRecord toLowerCase scope k now calls throttle)
    (hret : Retains toLowerCase scope k throttle x) (h : throttle.handle toLowerCase x = some throttle')
    (hnow : x.at_ ≤ now) : OnRecord toLowerCase scope k now (calls ++ [x]) throttle' := by
  rw [OnRecord, failuresOf_concat]
  rw [OnRecord] at hi
  obtain ⟨at_, call⟩ := x
  cases call with
  | assertAllowed email address =>
      obtain rfl := Option.some.inj h
      rw [asserted_record email address hnow, hi]
      rfl
  | recordFailure email address =>
      obtain rfl := Option.some.inj h
      rw [failed_record (hret _ rfl) hnow]
      simp only [TimedCall.recorded]
      split
      · rw [List.filter_append, List.filter_append, hi]
      · exact hi
  | recordSuccess email =>
      obtain rfl := Option.some.inj h
      rw [succeeded_record]
      cases scope with
      | account =>
          simp only [TimedCall.recorded, true_and]
          split
          · rfl
          · exact hi
      | address =>
          rw [if_neg fun h => LockScope.noConfusion h.1]
          exact hi

theorem onRecord_run (h : run (LoginThrottle.handle toLowerCase) {} calls = some throttle)
    (hret : Along (LoginThrottle.handle toLowerCase) (Retains toLowerCase scope k) {} calls)
    (hnow : ∀ x ∈ calls, x.at_ ≤ now) : OnRecord toLowerCase scope k now calls throttle := by
  induction calls using List.reverseRecOn generalizing throttle with
  | nil =>
      cases h
      cases scope <;> rfl
  | append_singleton calls x ih =>
      obtain ⟨before, hbefore, hx⟩ := run_append.mp h
      obtain ⟨hretain, hlast, -⟩ := (along_append hbefore).mp hret
      have hi := ih hbefore hretain fun y hy => hnow y (List.mem_append_left [x] hy)
      exact onRecord_handle hi hlast (run_singleton.mp hx) (hnow x (List.mem_append_right calls List.mem_cons_self))

end History

end EspClawPlatform.Identity
