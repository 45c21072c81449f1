import EspClawPlatform.Events
import EspClawPlatform.Lib.Text

namespace EspClawPlatform.Identity

def LOGIN_WINDOW_MS : Nat := 15 * 60 * 1000

def MAX_FAILURES_PER_ACCOUNT : Nat := 5

def MAX_FAILURES_PER_ADDRESS : Nat := 20

def MAX_TRACKED_KEYS : Nat := 10000

/-- The failure timestamps tracked for each key, in insertion order of the keys. -/
abbrev Windows := Table (String × List Nat)

namespace Windows

def live (now t : Nat) : Bool := now < t + LOGIN_WINDOW_MS

def prune (now : Nat) (map : Windows) (key : String) : Windows :=
  match map.get key with
  | none => map
  | some failures =>
      match failures.filter (live now) with
      | [] => map.erase key
      | kept => map.set key kept

/-- The first loop of `evictExpired`. -/
def expire (now : Nat) (map : Windows) : Windows :=
  (map.rows.map Prod.fst).foldl (prune now) map

def evictExpired (now : Nat) (map : Windows) : Windows :=
  (expire now map).drop ((expire now map).size - MAX_TRACKED_KEYS)

/-- The map right after `push` has added the failure, before any eviction. -/
def record (now : Nat) (map : Windows) (key : String) : Windows :=
  (prune now map key).set key (((prune now map key).get key).getD [] ++ [now])

/-- The map after `push`, and how many failures it returns. -/
def push (now : Nat) (map : Windows) (key : String) : Windows × Nat :=
  let added := record now map key
  (if MAX_TRACKED_KEYS < added.size then evictExpired now added else added,
   ((added.get key).getD []).length)

def retryAfterMs (now : Nat) (map : Windows) (key : String) (limit : Nat) : Nat :=
  match (prune now map key).get key with
  | none => 0
  | some failures =>
      if failures.length < limit then 0
      else failures.headD 0 + LOGIN_WINDOW_MS - now

def entries (map : Windows) (key : String) : List Nat := (map.get key).getD []

theorem entries_set (map : Windows) (key k : String) (failures : List Nat) :
    entries (map.set key failures) k = if k = key then failures else entries map k := by
  rw [entries, Table.get_set]
  split <;> rfl

theorem entries_erase (map : Windows) (key k : String) :
    entries (map.erase key) k = if k = key then [] else entries map k := by
  rw [entries, Table.get_erase]
  split <;> rfl

theorem entries_prune (now : Nat) (map : Windows) (key k : String) :
    entries (prune now map key) k =
      if k = key then (entries map k).filter (live now) else entries map k := by
  rw [prune]
  split
  · rename_i h
    split
    · rename_i hk
      rw [hk, entries, h]
      rfl
    · rfl
  · rename_i failures h
    have he : entries map key = failures := by rw [entries, h]; rfl
    split
    · rename_i hf
      rw [entries_erase]
      split
      · rename_i hk
        rw [hk, he, hf]
      · rfl
    · rename_i hf
      rw [entries_set]
      split
      · rename_i hk
        rw [hk, he]
      · rfl

theorem entries_record (now : Nat) (map : Windows) (key k : String) :
    entries (record now map key) k =
      if k = key then (entries map k).filter (live now) ++ [now] else entries map k := by
  rw [record, entries_set]
  split
  · rename_i h
    rw [← entries, entries_prune, if_pos rfl, h]
  · rename_i h
    rw [entries_prune, if_neg h]

theorem entries_foldl_prune (now : Nat) (keys : List String) (map : Windows) (k : String) :
    entries (keys.foldl (prune now) map) k = entries map k ∨
      entries (keys.foldl (prune now) map) k = (entries map k).filter (live now) := by
  induction keys generalizing map with
  | nil => exact .inl rfl
  | cons key keys ih =>
      have hp := entries_prune now map key k
      rw [List.foldl_cons]
      split at hp
      · right
        rcases ih (prune now map key) with h | h
        · rw [h, hp]
        · rw [h, hp, List.filter_filter]
          simp only [Bool.and_self]
      · exact hp ▸ ih (prune now map key)

theorem entries_push {now : Nat} {map : Windows} {key : String}
    (h : (expire now (record now map key)).size ≤ MAX_TRACKED_KEYS) (k : String) :
    entries (push now map key).1 k = entries (record now map key) k ∨
      entries (push now map key).1 k = (entries (record now map key) k).filter (live now) := by
  rw [push]
  split
  · have hdrop : evictExpired now (record now map key) = expire now (record now map key) := by
      rw [evictExpired, Nat.sub_eq_zero_of_le h]
      exact Table.ext rfl
    rw [hdrop]
    exact entries_foldl_prune now _ _ k
  · exact .inl rfl

end Windows

structure LoginThrottle where
  byAccount : Windows := .empty
  byAddress : Windows := .empty

def limitOf : LockScope → Nat
  | .account => MAX_FAILURES_PER_ACCOUNT
  | .address => MAX_FAILURES_PER_ADDRESS

def windowsOf (throttle : LoginThrottle) : LockScope → Windows
  | .account => throttle.byAccount
  | .address => throttle.byAddress

def normalize (toLowerCase : String → String) (email : String) : String := toLowerCase (trim email)

namespace LoginThrottle

variable (toLowerCase : String → String)

/-- How long `assertAllowed` asks the caller to wait; it throws unless this is zero. -/
def retryAfter (throttle : LoginThrottle) (now : Nat) (email address : String) : Nat :=
  max (Windows.retryAfterMs now throttle.byAccount (normalize toLowerCase email) MAX_FAILURES_PER_ACCOUNT)
    (Windows.retryAfterMs now throttle.byAddress address MAX_FAILURES_PER_ADDRESS)

def asserted (throttle : LoginThrottle) (now : Nat) (email address : String) : LoginThrottle where
  byAccount := Windows.prune now throttle.byAccount (normalize toLowerCase email)
  byAddress := Windows.prune now throttle.byAddress address

def recordFailure (throttle : LoginThrottle) (now : Nat) (email address : String) : LoginThrottle where
  byAccount := (Windows.push now throttle.byAccount (normalize toLowerCase email)).1
  byAddress := (Windows.push now throttle.byAddress address).1

/-- The limit, if any, that `login` reports this failure to have reached. -/
def locked (throttle : LoginThrottle) (now : Nat) (email address : String) : Option LockScope :=
  if (Windows.push now throttle.byAccount (normalize toLowerCase email)).2 = MAX_FAILURES_PER_ACCOUNT then
    some .account
  else if (Windows.push now throttle.byAddress address).2 = MAX_FAILURES_PER_ADDRESS then some .address
  else none

def recordSuccess (throttle : LoginThrottle) (email : String) : LoginThrottle :=
  { throttle with byAccount := throttle.byAccount.erase (normalize toLowerCase email) }

end LoginThrottle

end EspClawPlatform.Identity
