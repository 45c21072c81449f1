import Mathlib.Data.List.Basic

namespace EspClawPlatform.Window

variable {width limit now : Nat} {times : List Nat}

/-- An occurrence at `t` is inside the window that ends at `now`. -/
def live (width now t : Nat) : Bool := now < t + width

/-- How long the oldest occurrence stays in the window, when there are at least
`limit` of them. -/
def wait (width limit now : Nat) (times : List Nat) : Nat :=
  if times.length < limit then 0 else times.headD 0 + width - now

def inWindow (width now : Nat) (times : List Nat) : Nat := times.countP fun t => now < t + width ∧ t ≤ now

variable (width) in
theorem filter_live_of_le {now' : Nat} (h : now ≤ now') (times : List Nat) :
    (times.filter (live width now)).filter (live width now') = times.filter (live width now') := by
  rw [List.filter_filter]
  apply List.filter_congr
  intro t _
  rw [live, live, ← Bool.decide_and, decide_eq_decide]
  omega

variable (width) in
theorem length_live_of_le {now' : Nat} (h : now ≤ now') (times : List Nat) :
    (times.filter (live width now')).length ≤ (times.filter (live width now)).length := by
  rw [← filter_live_of_le width h]
  exact List.length_filter_le _ _

theorem inWindow_of_past (h : ∀ t ∈ times, t ≤ now) :
    inWindow width now times = (times.filter (live width now)).length := by
  rw [inWindow, ← List.countP_eq_length_filter]
  apply List.countP_congr
  intro t ht
  simp only [live, decide_eq_true_eq, and_iff_left (h t ht)]

theorem wait_pos (hl : 0 < limit) :
    0 < wait width limit now (times.filter (live width now)) ↔
      limit ≤ (times.filter (live width now)).length := by
  rw [wait]
  split
  · rename_i h
    exact ⟨fun h' => absurd h' (Nat.lt_irrefl 0), fun h' => absurd h (Nat.not_lt.mpr h')⟩
  · rename_i h
    have hlimit := Nat.not_lt.mp h
    refine ⟨fun _ => hlimit, fun _ => ?_⟩
    cases hf : times.filter (live width now) with
    | nil =>
        rw [hf] at hlimit
        exact absurd hlimit (Nat.not_le.mpr hl)
    | cons t rest =>
        have ht : t ∈ times.filter (live width now) := hf ▸ List.mem_cons_self
        have hlive := (List.mem_filter.mp ht).2
        simp only [live, decide_eq_true_eq] at hlive
        exact Nat.sub_pos_of_lt hlive

/-- Of a sorted list with no more live occurrences than the limit, the oldest
one is the first to leave the window, and the first that has to. -/
theorem wait_later (hl : 0 < limit) (hs : times.Pairwise (· ≤ ·))
    (hle : (times.filter (live width now)).length ≤ limit) (d : Nat) :
    wait width limit (now + d) (times.filter (live width (now + d))) =
      wait width limit now (times.filter (live width now)) - d := by
  have hlater := filter_live_of_le width (Nat.le_add_right now d) times
  rw [← hlater]
  have hsorted := hs.filter (live width now)
  generalize times.filter (live width now) = kept at hle hsorted
  by_cases hlt : kept.length < limit
  · have hlt' := Nat.lt_of_le_of_lt (List.length_filter_le (live width (now + d)) kept) hlt
    rw [wait, wait, if_pos hlt, if_pos hlt', Nat.zero_sub]
  · have hlen : kept.length = limit := Nat.le_antisymm hle (Nat.not_lt.mp hlt)
    cases kept with
    | nil => exact absurd hlen (Nat.ne_of_lt hl)
    | cons t rest =>
        have hfirst := (List.pairwise_cons.mp hsorted).1
        by_cases ht : now + d < t + width
        · -- nothing has left the window yet
          have hall : (t :: rest).filter (live width (now + d)) = t :: rest := by
            apply List.filter_eq_self.mpr
            intro u hu
            rw [live, decide_eq_true_eq]
            rcases List.mem_cons.mp hu with rfl | hu
            · exact ht
            · have := hfirst u hu
              omega
          rw [hall, wait, wait, if_neg hlt, if_neg hlt, Nat.sub_sub]
        · have hout : live width (now + d) t = false := by rw [live]; exact decide_eq_false ht
          have hlt' : ((t :: rest).filter (live width (now + d))).length < limit := by
            rw [List.filter_cons_of_neg (by rw [hout]; exact Bool.false_ne_true), ← hlen]
            exact Nat.lt_succ_of_le (List.length_filter_le _ _)
          rw [wait, wait, if_neg hlt, if_pos hlt', List.headD_cons]
          omega

end EspClawPlatform.Window
