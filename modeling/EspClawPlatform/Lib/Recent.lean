import Mathlib.Data.List.DropRight

namespace EspClawPlatform.Recent

variable {α β : Type} {n : Nat} {log : List α} {x y : α} {stored said : α → β}

/-- Add an item to a window on the last `n` items, and forget the oldest one if there are too many. -/
def push (n : Nat) (seen : List α) (x : α) : List α :=
  if (seen ++ [x]).length > n then (seen ++ [x]).drop 1 else seen ++ [x]

/-- What an item says is not stored of the `n` items before it. -/
def Spaced (n : Nat) (stored said : α → β) (log : List α) : Prop :=
  ∀ pre x post, log = pre ++ x :: post → said x ∉ (pre.map stored).rtake n

theorem length_rtake (n : Nat) (log : List α) : (log.rtake n).length = min n log.length := by
  rw [List.rtake, List.length_drop]
  omega

theorem mem_push {n : Nat} (hn : 0 < n) (window : List α) (x : α) : x ∈ push n window x := by
  rw [push]
  split
  · rename_i hlen
    cases window with
    | nil =>
        rw [List.nil_append, List.length_singleton] at hlen
        omega
    | cons y ys => exact List.mem_append_right _ List.mem_cons_self
  · exact List.mem_append_right _ List.mem_cons_self

theorem push_rtake (n : Nat) (log : List α) (x : α) : push n (log.rtake n) x = (log ++ [x]).rtake n := by
  cases n with
  | zero => simp [push]
  | succ n =>
      rw [List.rtake_concat_succ, push, List.length_append, length_rtake, List.length_singleton]
      split
      · -- the window is full, and its oldest item is the one that leaves it
        have hlt : n < log.length := by omega
        rw [List.rtake, List.rtake, ← List.drop_append_of_le_length (by omega), List.drop_drop,
          ← List.drop_append_of_le_length (by omega)]
        congr 1
        omega
      · have hle : log.length ≤ n := by omega
        rw [List.rtake, List.rtake, Nat.sub_eq_zero_of_le hle, Nat.sub_eq_zero_of_le (by omega)]

theorem mem_rtake_append (pre post : List α) (x : α) (h : x ∉ post) :
    x ∈ (pre ++ x :: post).rtake n ↔ post.length < n := by
  rw [List.rtake, List.length_append, List.length_cons]
  by_cases hlt : post.length < n
  · refine iff_of_true ?_ hlt
    rw [List.drop_append_of_le_length (by omega)]
    exact List.mem_append_right _ List.mem_cons_self
  · refine iff_of_false (fun hmem => h ?_) hlt
    obtain ⟨k, hk⟩ : ∃ k, pre.length + (post.length + 1) - n = (pre ++ [x]).length + k :=
      ⟨post.length - n, by rw [List.length_append, List.length_singleton]; omega⟩
    rw [List.append_cons, hk, ← List.drop_drop, List.drop_left] at hmem
    exact List.mem_of_mem_drop hmem

theorem spaced_nil (n : Nat) (stored said : α → β) : Spaced n stored said [] := by
  intro pre x post h
  cases pre <;> cases h

theorem Spaced.append (hs : Spaced n stored said log) (hx : said x ∉ (log.map stored).rtake n) :
    Spaced n stored said (log ++ [x]) := by
  intro pre y post h
  rcases List.eq_nil_or_concat post with rfl | ⟨post, z, rfl⟩
  · obtain ⟨rfl, hy⟩ := List.append_inj' h rfl
    exact (List.cons.inj hy).1 ▸ hx
  · rw [List.concat_eq_append, ← List.cons_append, ← List.append_assoc] at h
    exact hs pre y post (List.append_inj' h rfl).1

/-- An item that says what is stored of an earlier one comes after `n` others. -/
theorem Spaced.gap {pre mid post : List α} (hs : Spaced n stored said log)
    (h : log = pre ++ x :: mid ++ y :: post) (hxy : stored x = said y) : n ≤ mid.length := by
  have hy := hs _ y post h
  rw [List.map_append, List.map_cons, hxy] at hy
  by_contra hlt
  apply hy
  by_cases hm : said y ∈ mid.map stored
  · rw [List.rtake, List.length_append, List.length_cons, List.append_cons,
      List.drop_append_of_le_length (by simp only [List.length_append, List.length_map, List.length_singleton]; omega)]
    exact List.mem_append_right _ hm
  · exact (mem_rtake_append _ _ _ hm).mpr (by rw [List.length_map]; exact not_le.mp hlt)

end EspClawPlatform.Recent
