import Mathlib.Data.List.Count

namespace EspClawPlatform

/-- Bookkeeping of a limit on failures in a sliding window: when failures and
resets have happened, which failures are on record, and how many attempts are
still open. What is on record and what is open stays within the limit. -/
structure Quota (width limit now : Nat) (failures resets record : List Nat) (opened : Nat) : Prop where
  past : ∀ x ∈ failures, x ≤ now
  resetPast : ∀ x ∈ resets, x ≤ now
  recorded : ∀ t, now < t + width → (∀ r ∈ resets, r < t) →
    failures.countP (fun x => t ≤ x) ≤ record.countP (fun x => t ≤ x)
  room : record.countP (fun x => now < x + width) + opened ≤ limit
  bound : ∀ t, (∀ r ∈ resets, ¬ (t ≤ r ∧ r < t + width)) →
    failures.countP (fun x => t ≤ x ∧ x < t + width) ≤ limit

namespace Quota

variable {width limit now : Nat} {failures resets record : List Nat} {opened : Nat}

theorem empty (width limit now : Nat) : Quota width limit now [] [] [] 0 where
  past := by simp
  resetPast := by simp
  recorded := by simp
  room := by simp
  bound := by simp

theorem later (q : Quota width limit now failures resets record opened) {now' : Nat} (h : now ≤ now') :
    Quota width limit now' failures resets record opened where
  past := fun x hx => Nat.le_trans (q.past x hx) h
  resetPast := fun x hx => Nat.le_trans (q.resetPast x hx) h
  recorded := fun t ht => q.recorded t (Nat.lt_of_le_of_lt h ht)
  room := by
    refine Nat.le_trans (Nat.add_le_add_right ?_ _) q.room
    apply List.countP_mono_left
    intro x _ hx
    simp only [decide_eq_true_eq] at hx ⊢
    omega
  bound := q.bound

theorem prune (q : Quota width limit now failures resets record opened) :
    Quota width limit now failures resets (record.filter fun x => now < x + width) opened where
  past := q.past
  resetPast := q.resetPast
  recorded := by
    intro t ht hr
    refine Nat.le_trans (q.recorded t ht hr) (Nat.le_of_eq ?_)
    rw [List.countP_filter]
    apply List.countP_congr
    intro x _
    simp only [decide_eq_true_eq, Bool.and_eq_true]
    omega
  room := by
    rw [List.countP_filter]
    simpa only [Bool.and_self] using q.room
  bound := q.bound

theorem forget (q : Quota width limit now failures resets record opened) {record' : List Nat}
    (h : record' = record ∨ record' = record.filter fun x => now < x + width) :
    Quota width limit now failures resets record' opened := by
  rcases h with rfl | rfl
  · exact q
  · exact q.prune

theorem enter (q : Quota width limit now failures resets record opened)
    (h : record.countP (fun x => now < x + width) + opened < limit) :
    Quota width limit now failures resets record (opened + 1) :=
  { q with room := h }

theorem leave (q : Quota width limit now failures resets record opened) {opened' : Nat}
    (h : opened' ≤ opened) :
    Quota width limit now failures resets record opened' :=
  { q with room := Nat.le_trans (Nat.add_le_add_left h _) q.room }

theorem fail (hw : 0 < width) (q : Quota width limit now failures resets record (opened + 1)) :
    Quota width limit now (failures ++ [now]) resets (record ++ [now]) opened := by
  have recorded : ∀ t, now < t + width → (∀ r ∈ resets, r < t) →
      (failures ++ [now]).countP (fun x => t ≤ x) ≤ (record ++ [now]).countP (fun x => t ≤ x) := by
    intro t ht hr
    rw [List.countP_append, List.countP_append]
    exact Nat.add_le_add_right (q.recorded t ht hr) _
  have room : (record ++ [now]).countP (fun x => now < x + width) + opened ≤ limit := by
    have hnow : [now].countP (fun x => now < x + width) = 1 := by simp [hw]
    rw [List.countP_append, hnow]
    have := q.room
    omega
  refine ⟨?_, q.resetPast, recorded, room, ?_⟩
  · intro x hx
    rcases List.mem_append.mp hx with hx | hx
    · exact q.past x hx
    · exact Nat.le_of_eq (List.mem_singleton.mp hx)
  · intro t hr
    by_cases ht : t ≤ now ∧ now < t + width
    · -- the window is the current one, so all its failures are on record
      have hresets : ∀ r ∈ resets, r < t := by
        intro r hm
        have := q.resetPast r hm
        have := hr r hm
        omega
      calc (failures ++ [now]).countP (fun x => t ≤ x ∧ x < t + width)
          ≤ (failures ++ [now]).countP (fun x => t ≤ x) := by
            apply List.countP_mono_left
            intro x _ hx
            simp only [decide_eq_true_eq] at hx ⊢
            exact hx.1
        _ ≤ (record ++ [now]).countP (fun x => t ≤ x) := recorded t ht.2 hresets
        _ ≤ (record ++ [now]).countP (fun x => now < x + width) := by
            apply List.countP_mono_left
            intro x _ hx
            simp only [decide_eq_true_eq] at hx ⊢
            omega
        _ ≤ limit := Nat.le_trans (Nat.le_add_right _ _) room
    · have hnow : [now].countP (fun x => t ≤ x ∧ x < t + width) = 0 := by simpa using ht
      rw [List.countP_append, hnow]
      exact q.bound t hr

theorem reset (q : Quota width limit now failures resets record opened) {opened' : Nat}
    (h : opened' ≤ opened) :
    Quota width limit now failures (resets ++ [now]) [] opened' where
  past := q.past
  resetPast := by
    intro x hx
    rcases List.mem_append.mp hx with hx | hx
    · exact q.resetPast x hx
    · exact Nat.le_of_eq (List.mem_singleton.mp hx)
  recorded := by
    intro t ht hr
    have hnow : now < t := hr now (List.mem_append.mpr (.inr (List.mem_singleton.mpr rfl)))
    refine Nat.le_of_eq (List.countP_eq_zero.mpr ?_)
    intro x hx
    have := q.past x hx
    simp only [decide_eq_true_eq]
    omega
  room := by
    have := q.room
    simp only [List.countP_nil]
    omega
  bound := fun t hr => q.bound t fun r hm => hr r (List.mem_append.mpr (.inl hm))

end Quota

end EspClawPlatform
