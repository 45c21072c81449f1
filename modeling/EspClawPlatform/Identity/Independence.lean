import EspClawPlatform.Identity.ThrottleHistory

namespace EspClawPlatform.Identity

open Run

variable {toLowerCase : String → String} {throttle throttle' : LoginThrottle} {calls calls' : List TimedCall}
  {now : Nat}

section

variable (toLowerCase)

def TimedCall.concerns (account address : String) (x : TimedCall) : Bool :=
  match x.call with
  | .assertAllowed email a | .recordFailure email a => normalize toLowerCase email = account || a = address
  | .recordSuccess email => normalize toLowerCase email = account

end

theorem recorded_of_unconcerned {account address : String} {past : List Nat} {x : TimedCall}
    (h : x.concerns toLowerCase account address = false) :
    x.recorded toLowerCase .account account past = past ∧
      x.recorded toLowerCase .address address past = past := by
  obtain ⟨at_, call⟩ := x
  cases call with
  | assertAllowed => exact ⟨rfl, rfl⟩
  | recordFailure email a =>
      simp only [TimedCall.concerns, Bool.or_eq_false_iff, decide_eq_false_iff_not] at h
      exact ⟨if_neg h.1, if_neg h.2⟩
  | recordSuccess email =>
      simp only [TimedCall.concerns, decide_eq_false_iff_not] at h
      exact ⟨if_neg h, rfl⟩

variable (toLowerCase) in
theorem failuresOf_concerning (account address : String) (calls : List TimedCall) :
    failuresOf toLowerCase .account account (calls.filter (TimedCall.concerns toLowerCase account address)) =
        failuresOf toLowerCase .account account calls ∧
      failuresOf toLowerCase .address address (calls.filter (TimedCall.concerns toLowerCase account address)) =
        failuresOf toLowerCase .address address calls := by
  induction calls using List.reverseRecOn with
  | nil => exact ⟨rfl, rfl⟩
  | append_singleton calls x ih =>
      rw [List.filter_append, failuresOf_concat, failuresOf_concat]
      cases hx : x.concerns toLowerCase account address with
      | true =>
          have hone : [x].filter (TimedCall.concerns toLowerCase account address) = [x] := by
            rw [List.filter_cons_of_pos hx, List.filter_nil]
          rw [hone, failuresOf_concat, failuresOf_concat, ih.1, ih.2]
          exact ⟨rfl, rfl⟩
      | false =>
          have hnone : [x].filter (TimedCall.concerns toLowerCase account address) = [] := by
            rw [List.filter_cons_of_neg (by rw [hx]; exact Bool.false_ne_true), List.filter_nil]
          rw [hnone, List.append_nil, (recorded_of_unconcerned hx).1, (recorded_of_unconcerned hx).2]
          exact ih

theorem retryAfter_onRecord {email address : String}
    (haccount : OnRecord toLowerCase .account (normalize toLowerCase email) now calls throttle)
    (haddress : OnRecord toLowerCase .address address now calls throttle) :
    throttle.retryAfter toLowerCase now email address =
      max (Window.wait LOGIN_WINDOW_MS MAX_FAILURES_PER_ACCOUNT now
          ((failuresOf toLowerCase .account (normalize toLowerCase email) calls).filter (Windows.live now)))
        (Window.wait LOGIN_WINDOW_MS MAX_FAILURES_PER_ADDRESS now
          ((failuresOf toLowerCase .address address calls).filter (Windows.live now))) := by
  rw [LoginThrottle.retryAfter, Windows.retryAfterMs_eq (by decide), Windows.retryAfterMs_eq (by decide)]
  exact congrArg₂ max (congrArg _ haccount) (congrArg _ haddress)

/-- Neither the account nor the address is pushed out by the call. -/
def RetainsBoth (toLowerCase : String → String) (email address : String) (throttle : LoginThrottle)
    (x : TimedCall) : Prop :=
  Retains toLowerCase .account (normalize toLowerCase email) throttle x ∧
    Retains toLowerCase .address address throttle x

instance (toLowerCase : String → String) (email address : String) (throttle : LoginThrottle) (x : TimedCall) :
    Decidable (RetainsBoth toLowerCase email address throttle x) :=
  inferInstanceAs (Decidable (_ ∧ _))

theorem retryAfter_run {email address : String}
    (h : run (LoginThrottle.handle toLowerCase) {} calls = some throttle)
    (hret : Along (LoginThrottle.handle toLowerCase) (RetainsBoth toLowerCase email address) {} calls)
    (hnow : ∀ x ∈ calls, x.at_ ≤ now) :
    throttle.retryAfter toLowerCase now email address =
      max (Window.wait LOGIN_WINDOW_MS MAX_FAILURES_PER_ACCOUNT now
          ((failuresOf toLowerCase .account (normalize toLowerCase email) calls).filter (Windows.live now)))
        (Window.wait LOGIN_WINDOW_MS MAX_FAILURES_PER_ADDRESS now
          ((failuresOf toLowerCase .address address calls).filter (Windows.live now))) := by
  obtain ⟨haccount, haddress⟩ := along_and.mp hret
  exact retryAfter_onRecord (onRecord_run h haccount hnow) (onRecord_run h haddress hnow)

theorem entries_push_le (now : Nat) (map : Windows) {key k : String} (h : k ≠ key) :
    ((Windows.push now map key).1.entries k).length ≤ (map.entries k).length := by
  have hrecord : (Windows.record now map key).entries k = map.entries k := by
    rw [Windows.entries_record, if_neg h]
  rw [← hrecord, Windows.push]
  split
  · rw [Windows.evictExpired, Windows.entries]
    cases hg : ((Windows.expire now (Windows.record now map key)).drop
        ((Windows.expire now (Windows.record now map key)).size - MAX_TRACKED_KEYS)).get k with
    | none => exact Nat.zero_le _
    | some failures =>
        have hkept : (Windows.expire now (Windows.record now map key)).entries k = failures := by
          rw [Windows.entries, Windows.get_of_drop hg, Option.getD_some]
        rw [Option.getD_some, ← hkept]
        rcases Windows.entries_expire now (Windows.record now map key) k with he | he
        · exact Nat.le_of_eq (congrArg List.length he)
        · exact Nat.le_trans (Nat.le_of_eq (congrArg List.length he)) (List.length_filter_le _ _)
  · exact Nat.le_refl _

theorem prune_of_live {map : Windows} {key : String}
    (h : ∀ r ∈ map.rows, r.2 ≠ [] ∧ ∀ t ∈ r.2, Windows.live now t = true) :
    Windows.prune now map key = map := by
  rw [Windows.prune]
  cases hg : map.get key with
  | none => rfl
  | some failures =>
      have hmem := Table.get_eq_some.mp hg
      obtain ⟨hne, hlive⟩ := h _ hmem
      simp only [List.filter_eq_self.mpr hlive]
      cases failures with
      | nil => exact absurd rfl hne
      | cons t rest => exact Table.save_of_mem hmem

theorem expire_of_live (now : Nat) (map : Windows)
    (h : ∀ r ∈ map.rows, r.2 ≠ [] ∧ ∀ t ∈ r.2, Windows.live now t = true) : Windows.expire now map = map := by
  rw [Windows.expire]
  generalize map.rows.map Prod.fst = keys
  induction keys with
  | nil => rfl
  | cons key keys ih => rw [List.foldl_cons, prune_of_live h, ih]

def lockedOut : List TimedCall := List.replicate 5 ⟨0, .recordFailure "victim" "10.0.0.1"⟩

def flood (n : Nat) : List TimedCall := (List.range n).map fun i => ⟨0, .recordFailure (toString i) "10.0.0.9"⟩

def floodRows (n : Nat) : List (String × List Nat) :=
  ("victim", [0, 0, 0, 0, 0]) :: (List.range n).map fun i => (toString i, [0])

theorem toString_inj {m n : Nat} (h : toString m = toString n) : m = n := by
  have hnumber := numberOf_toString m
  rw [h, numberOf_toString] at hnumber
  exact (Option.some.inj hnumber).symm

theorem isDigit_of_mem_toString {n : Nat} {c : Char} (h : c ∈ (toString n).toList) : c.isDigit = true := by
  have htext : (toString n).toList = Nat.toDigits 10 n := Nat.toList_repr
  exact Nat.isDigit_of_mem_toDigits (by decide) (by decide) (htext ▸ h)

theorem trim_toString (n : Nat) : trim (toString n) = toString n :=
  trim_eq_self fun _ h => isWhiteSpace_of_isDigit (isDigit_of_mem_toString h)

theorem toString_ne_victim (n : Nat) : toString n ≠ "victim" := by
  intro h
  have hv : 'v' ∈ (toString n).toList := by rw [h]; decide
  exact absurd (isDigit_of_mem_toString hv) (by decide)

theorem floodRows_live {n : Nat} {r : String × List Nat} (h : r ∈ floodRows n) :
    r.2 ≠ [] ∧ ∀ t ∈ r.2, Windows.live 0 t = true := by
  rcases List.mem_cons.mp h with rfl | h
  · decide
  · obtain ⟨i, -, rfl⟩ := List.mem_map.mp h
    exact ⟨List.cons_ne_nil 0 [], fun t ht => by rw [List.mem_singleton.mp ht]; rfl⟩

theorem floodRows_concat (n : Nat) : floodRows (n + 1) = floodRows n ++ [(toString n, [0])] := by
  rw [floodRows, List.range_succ, List.map_append]
  rfl

theorem record_flood {map : Windows} {n : Nat} (h : map.rows = floodRows n) :
    (Windows.record 0 map (toString n)).rows = floodRows (n + 1) := by
  have hfresh : map.get (toString n) = none := by
    rw [← Option.not_isSome_iff_eq_none, Option.isSome_iff_exists]
    rintro ⟨failures, hg⟩
    have hmem := Table.get_eq_some.mp hg
    rw [h] at hmem
    rcases List.mem_cons.mp hmem with he | hmem
    · exact toString_ne_victim n (Prod.mk.inj he).1
    · obtain ⟨i, hi, he⟩ := List.mem_map.mp hmem
      exact absurd (List.mem_range.mp hi) (toString_inj (Prod.mk.inj he).1 ▸ Nat.lt_irrefl i)
  have hprune : Windows.prune 0 map (toString n) = map := prune_of_live fun r hr => floodRows_live (h ▸ hr)
  rw [Windows.record, hprune, hfresh]
  rw [floodRows_concat, ← h]
  exact Table.rows_save_of_none (Option.map_eq_none_iff.mp hfresh)

theorem flood_concat (n : Nat) :
    lockedOut ++ flood (n + 1) = lockedOut ++ flood n ++ [⟨0, .recordFailure (toString n) "10.0.0.9"⟩] := by
  rw [flood, List.range_succ, List.map_append, ← List.append_assoc]
  rfl

theorem flood_rows {n : Nat} (hn : n < MAX_TRACKED_KEYS)
    (h : run (LoginThrottle.handle id) {} (lockedOut ++ flood n) = some throttle) :
    throttle.byAccount.rows = floodRows n := by
  induction n generalizing throttle with
  | zero =>
      have hrows : ∀ throttle ∈ run (LoginThrottle.handle id) {} lockedOut,
          throttle.byAccount.rows = floodRows 0 := by
        decide +kernel
      exact hrows throttle h
  | succ n ih =>
      rw [flood_concat] at h
      obtain ⟨before, hbefore, hlast⟩ := run_append.mp h
      obtain rfl := Option.some.inj (run_singleton.mp hlast)
      have hrows := record_flood (ih (Nat.lt_of_succ_lt hn) hbefore)
      have hsize : ¬ MAX_TRACKED_KEYS < (Windows.record 0 before.byAccount (toString n)).size := by
        rw [Table.size, hrows, floodRows, List.length_cons, List.length_map, List.length_range]
        omega
      change (Windows.push 0 before.byAccount (trim (toString n))).1.rows = _
      rw [trim_toString, Windows.push, if_neg hsize]
      exact hrows

theorem flood_drops
    (h : run (LoginThrottle.handle id) {} (lockedOut ++ flood MAX_TRACKED_KEYS) = some throttle) :
    throttle.byAccount.entries "victim" = [] := by
  rw [show MAX_TRACKED_KEYS = 9999 + 1 from rfl, flood_concat] at h
  obtain ⟨before, hbefore, hlast⟩ := run_append.mp h
  obtain rfl := Option.some.inj (run_singleton.mp hlast)
  have hrows := record_flood (flood_rows (by decide) hbefore)
  have hsize : (Windows.record 0 before.byAccount (toString 9999)).size = 10001 := by
    rw [Table.size, hrows, floodRows, List.length_cons, List.length_map, List.length_range]
  have hexpire := expire_of_live 0 (Windows.record 0 before.byAccount (toString 9999))
    fun r hr => floodRows_live (hrows ▸ hr)
  change (Windows.push 0 before.byAccount (trim (toString 9999))).1.entries "victim" = []
  rw [trim_toString, Windows.push, if_pos (by rw [hsize]; decide), Windows.evictExpired, hexpire, hsize,
    Windows.entries]
  cases hg : ((Windows.record 0 before.byAccount (toString 9999)).drop (10001 - MAX_TRACKED_KEYS)).get
      "victim" with
  | none => rfl
  | some failures =>
      have hmem : ("victim", failures) ∈ (floodRows (9999 + 1)).drop 1 := hrows ▸ Table.get_eq_some.mp hg
      obtain ⟨i, -, he⟩ := List.mem_map.mp hmem
      exact absurd (Prod.mk.inj he).1 (toString_ne_victim i)

theorem flood_address (n : Nat)
    (h : run (LoginThrottle.handle id) {} (lockedOut ++ flood n) = some throttle) :
    (throttle.byAddress.entries "10.0.0.1").length ≤ 5 := by
  induction n generalizing throttle with
  | zero =>
      have hentries : ∀ throttle ∈ run (LoginThrottle.handle id) {} lockedOut,
          (throttle.byAddress.entries "10.0.0.1").length ≤ 5 := by
        decide +kernel
      exact hentries throttle h
  | succ n ih =>
      rw [flood_concat] at h
      obtain ⟨before, hbefore, hlast⟩ := run_append.mp h
      obtain rfl := Option.some.inj (run_singleton.mp hlast)
      exact Nat.le_trans (entries_push_le 0 before.byAddress (by decide)) (ih hbefore)

theorem flood_allowed
    (h : run (LoginThrottle.handle id) {} (lockedOut ++ flood MAX_TRACKED_KEYS) = some throttle) :
    throttle.retryAfter id 0 "victim" "10.0.0.1" = 0 := by
  have haddress := flood_address MAX_TRACKED_KEYS h
  have hlive := Nat.le_trans (List.length_filter_le (Windows.live 0) (throttle.byAddress.entries "10.0.0.1"))
    haddress
  have hvictim : normalize id "victim" = "victim" := by decide +kernel
  rw [LoginThrottle.retryAfter, Windows.retryAfterMs_eq (by decide), Windows.retryAfterMs_eq (by decide),
    hvictim, flood_drops h, Window.wait, Window.wait, if_pos (by decide), if_pos (Nat.lt_of_le_of_lt hlive (by decide)),
    Nat.max_self]

theorem handle_total (toLowerCase : String → String) (throttle : LoginThrottle) (x : TimedCall) :
    ∃ throttle', throttle.handle toLowerCase x = some throttle' := by
  obtain ⟨at_, call⟩ := x
  cases call <;> exact ⟨_, rfl⟩

theorem flood_unconcerned (n : Nat) : (flood n).filter (TimedCall.concerns id "victim" "10.0.0.1") = [] := by
  apply List.filter_eq_nil_iff.mpr
  intro x hx
  obtain ⟨i, -, rfl⟩ := List.mem_map.mp hx
  simp only [TimedCall.concerns, normalize, trim_toString, id_eq, toString_ne_victim, decide_false,
    Bool.false_or]
  decide

theorem at_of_mem_flood {n : Nat} {x : TimedCall} (h : x ∈ lockedOut ++ flood n) : x.at_ = 0 := by
  rcases List.mem_append.mp h with h | h
  · rw [List.eq_of_mem_replicate h]
  · obtain ⟨i, -, rfl⟩ := List.mem_map.mp h
    rfl

/-- What `assertAllowed` answers for an email and an address depends only on the
calls that concern the account or the address, as long as neither of them is
pushed out of the maps with failures that are still in the window. -/
theorem others_never_unlock {email address : String}
    (h : run (LoginThrottle.handle toLowerCase) {} calls = some throttle)
    (h' : run (LoginThrottle.handle toLowerCase) {} calls' = some throttle')
    (hsame : calls.filter (TimedCall.concerns toLowerCase (normalize toLowerCase email) address) =
      calls'.filter (TimedCall.concerns toLowerCase (normalize toLowerCase email) address))
    (hret : Along (LoginThrottle.handle toLowerCase) (RetainsBoth toLowerCase email address) {} calls)
    (hret' : Along (LoginThrottle.handle toLowerCase) (RetainsBoth toLowerCase email address) {} calls')
    (hnow : ∀ x ∈ calls ++ calls', x.at_ ≤ now) :
    throttle.retryAfter toLowerCase now email address = throttle'.retryAfter toLowerCase now email address := by
  rw [retryAfter_run h hret fun x hx => hnow x (List.mem_append_left calls' hx),
    retryAfter_run h' hret' fun x hx => hnow x (List.mem_append_right calls hx)]
  have hof := failuresOf_concerning toLowerCase (normalize toLowerCase email) address calls
  have hof' := failuresOf_concerning toLowerCase (normalize toLowerCase email) address calls'
  rw [← hof.1, ← hof.2, ← hof'.1, ← hof'.2, hsame]

theorem flood_unlocks : ¬ ∀ (toLowerCase : String → String) (calls calls' : List TimedCall)
    (throttle throttle' : LoginThrottle) (now : Nat) (email address : String),
    run (LoginThrottle.handle toLowerCase) {} calls = some throttle →
    run (LoginThrottle.handle toLowerCase) {} calls' = some throttle' →
    (calls.map TimedCall.at_).Pairwise (· ≤ ·) → (calls'.map TimedCall.at_).Pairwise (· ≤ ·) →
    (∀ x ∈ calls ++ calls', x.at_ ≤ now) →
    calls.filter (TimedCall.concerns toLowerCase (normalize toLowerCase email) address) =
      calls'.filter (TimedCall.concerns toLowerCase (normalize toLowerCase email) address) →
    (0 < throttle.retryAfter toLowerCase now email address ↔
      0 < throttle'.retryAfter toLowerCase now email address) := by
  intro hclaim
  obtain ⟨throttle, h⟩ := exists_run (handle_total id) {} lockedOut
  obtain ⟨throttle', h'⟩ := exists_run (handle_total id) {} (lockedOut ++ flood MAX_TRACKED_KEYS)
  have hzero : ∀ x ∈ lockedOut ++ (lockedOut ++ flood MAX_TRACKED_KEYS), x.at_ ≤ 0 := by
    intro x hx
    rcases List.mem_append.mp hx with hx | hx
    · exact Nat.le_of_eq (at_of_mem_flood (List.mem_append_left (flood 0) hx))
    · exact Nat.le_of_eq (at_of_mem_flood hx)
  have hsorted : ((lockedOut ++ flood MAX_TRACKED_KEYS).map TimedCall.at_).Pairwise (· ≤ ·) := by
    apply List.pairwise_map.mpr
    apply List.pairwise_of_forall_mem_list
    intro x hx y hy
    rw [at_of_mem_flood hx, at_of_mem_flood hy]
  have hvictim : normalize id "victim" = "victim" := by decide +kernel
  have hlocked : ∀ throttle ∈ run (LoginThrottle.handle id) {} lockedOut,
      0 < throttle.retryAfter id 0 "victim" "10.0.0.1" := by
    decide +kernel
  have hallowed := flood_allowed h'
  have hthrows := (hclaim id lockedOut (lockedOut ++ flood MAX_TRACKED_KEYS) throttle throttle' 0 "victim"
    "10.0.0.1" h h' (by decide) hsorted hzero
    (by rw [hvictim, List.filter_append, flood_unconcerned, List.append_nil])).mp (hlocked throttle h)
  rw [hallowed] at hthrows
  exact Nat.lt_irrefl 0 hthrows

theorem one_other_failure : ∃ throttle throttle',
    run (LoginThrottle.handle id) {} lockedOut = some throttle ∧
      run (LoginThrottle.handle id) {} (lockedOut ++ [⟨0, .recordFailure "guest" "10.0.0.9"⟩]) = some throttle' ∧
        throttle.retryAfter id 0 "victim" "10.0.0.1" = throttle'.retryAfter id 0 "victim" "10.0.0.1" := by
  obtain ⟨throttle, h⟩ := exists_run (handle_total id) {} lockedOut
  obtain ⟨throttle', h'⟩ := exists_run (handle_total id) {}
    (lockedOut ++ [⟨0, .recordFailure "guest" "10.0.0.9"⟩])
  exact ⟨throttle, throttle', h, h', others_never_unlock h h' (by decide +kernel) (by decide +kernel)
    (by decide +kernel) (by decide)⟩

end EspClawPlatform.Identity
