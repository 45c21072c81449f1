import Mathlib.Algebra.GroupWithZero.Nat
import Mathlib.Data.List.Basic
import EspClawPlatform.Lib.Run

namespace EspClawPlatform.Run

variable {σ α : Type} {step : σ → α → Option σ} {P : σ → Prop} (own : α → Bool) (work : σ → Nat)

def Idle (step : σ → α → Option σ) (own : α → Bool) (s : σ) : Prop := ∀ a, own a = true → step s a = none

/-- When each step does work of its own out of what there is and what it is given,
a run does no more than it has been given. -/
theorem work_along {given : σ → α → List Nat}
    (hstep : ∀ s a t, P s → step s a = some t → P t ∧ work t + (own a).toNat ≤ work s + (given s a).sum)
    {s t : σ} {as : List α} (h : run step s as = some t) (hs : P s) :
    as.countP own + work t ≤ work s + (trace step given s as).sum := by
  induction as generalizing s with
  | nil =>
      cases h
      simp only [List.countP_nil, trace, List.sum_nil, Nat.zero_add, Nat.add_zero, Nat.le_refl]
  | cons a as ih =>
      obtain ⟨u, hu, hrest⟩ := run_cons.mp h
      obtain ⟨hPu, hone⟩ := hstep s a u hs hu
      have hlater := ih hrest hPu
      rw [trace_cons hu, List.sum_append_nat, List.countP_cons]
      cases ha : own a with
      | false =>
          simp only [ha, Bool.toNat_false] at hone
          simp only [Bool.false_eq_true, if_false]
          omega
      | true =>
          simp only [ha, Bool.toNat_true] at hone
          simp only [if_true]
          omega

theorem exists_idle (hstep : ∀ s a t, P s → own a = true → step s a = some t → P t ∧ work t < work s) {s : σ}
    (hs : P s) : ∃ as t, (∀ a ∈ as, own a = true) ∧ run step s as = some t ∧ P t ∧ Idle step own t := by
  induction hn : work s using Nat.strongRecOn generalizing s with
  | ind n ih =>
      by_cases hidle : Idle step own s
      · exact ⟨[], s, fun _ ha => (by cases ha), rfl, hs, hidle⟩
      · rw [Idle, not_forall] at hidle
        obtain ⟨a, ha⟩ := hidle
        rw [Classical.not_imp] at ha
        obtain ⟨u, hu⟩ := Option.ne_none_iff_exists'.mp ha.2
        obtain ⟨hPu, hless⟩ := hstep s a u hs ha.1 hu
        obtain ⟨as, t, hall, hrun, hPt, hidle⟩ := ih (work u) (hn ▸ hless) hPu rfl
        refine ⟨a :: as, t, fun b hb => ?_, run_cons.mpr ⟨u, hu, hrun⟩, hPt, hidle⟩
        rcases List.mem_cons.mp hb with rfl | hb
        · exact ha.1
        · exact hall b hb

end EspClawPlatform.Run
