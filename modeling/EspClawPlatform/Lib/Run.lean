import Mathlib.Data.Option.Basic
import Mathlib.Data.List.Basic

namespace EspClawPlatform.Run

variable {σ α : Type}

/-- The state reached by performing the listed actions one after another;
there is none when an action is not enabled at its turn. -/
def run (step : σ → α → Option σ) : σ → List α → Option σ
  | s, [] => some s
  | s, a :: as => (step s a).bind fun t => run step t as

/-- Every action of the run satisfies `C` in the state it is performed in. -/
def Along (step : σ → α → Option σ) (C : σ → α → Prop) : σ → List α → Prop
  | _, [] => True
  | s, a :: as => C s a ∧ ∀ t ∈ step s a, Along step C t as

instance Along.decidable (step : σ → α → Option σ) (C : σ → α → Prop)
    [∀ s a, Decidable (C s a)] : ∀ s as, Decidable (Along step C s as)
  | _, [] => inferInstanceAs (Decidable True)
  | s, a :: as =>
      have := fun t => Along.decidable step C t as
      inferInstanceAs (Decidable (C s a ∧ ∀ t ∈ step s a, Along step C t as))

variable {step : σ → α → Option σ}

@[simp]
theorem run_nil (s : σ) : run step s [] = some s := rfl

theorem run_cons {s u : σ} {a : α} {as : List α} :
    run step s (a :: as) = some u ↔ ∃ t, step s a = some t ∧ run step t as = some u := by
  simp [run, Option.bind_eq_some_iff]

theorem run_append {s u : σ} {as bs : List α} :
    run step s (as ++ bs) = some u ↔ ∃ t, run step s as = some t ∧ run step t bs = some u := by
  induction as generalizing s with
  | nil => simp
  | cons a as ih =>
      simp only [List.cons_append, run_cons, ih]
      constructor
      · rintro ⟨t, ht, v, hv, hu⟩
        exact ⟨v, ⟨t, ht, hv⟩, hu⟩
      · rintro ⟨v, ⟨t, ht, hv⟩, hu⟩
        exact ⟨t, ht, v, hv, hu⟩

theorem run_singleton {s t : σ} {a : α} : run step s [a] = some t ↔ step s a = some t := by
  simp [run_cons]

theorem exists_run (hstep : ∀ s a, ∃ t, step s a = some t) (s : σ) (as : List α) :
    ∃ t, run step s as = some t := by
  induction as generalizing s with
  | nil => exact ⟨s, rfl⟩
  | cons a as ih =>
      obtain ⟨v, hv⟩ := hstep s a
      obtain ⟨t, ht⟩ := ih v
      exact ⟨t, run_cons.mpr ⟨v, hv, ht⟩⟩

/-- Where a list of actions comes to a stop: at its end, or at the first action that is not enabled. -/
def drive (step : σ → α → Option σ) : σ → List α → σ
  | s, [] => s
  | s, a :: as => (step s a).elim s fun t => drive step t as

theorem drive_cons {s t : σ} {a : α} {as : List α} (h : step s a = some t) :
    drive step s (a :: as) = drive step t as := by
  rw [drive, h, Option.elim_some]

theorem drive_stuck {s : σ} {a : α} (h : step s a = none) (as : List α) : drive step s (a :: as) = s := by
  rw [drive, h, Option.elim_none]

def states (step : σ → α → Option σ) : σ → List α → List σ
  | _, [] => []
  | s, a :: as => (step s a).elim [] fun t => t :: states step t as

theorem states_cons {s t : σ} {a : α} {as : List α} (h : step s a = some t) :
    states step s (a :: as) = t :: states step t as := by
  rw [states, h, Option.elim_some]

theorem states_append {s t : σ} {as bs : List α} (h : run step s as = some t) :
    states step s (as ++ bs) = states step s as ++ states step t bs := by
  induction as generalizing s with
  | nil => cases h; rfl
  | cons a as ih =>
      obtain ⟨v, hv, ht⟩ := run_cons.mp h
      rw [List.cons_append, states_cons hv, states_cons hv, ih ht, List.cons_append]

/-- Two runs in lockstep: what relates the states before two related actions
relates the states after them. -/
theorem run_lockstep {R : σ → σ → Prop} {A : α → α → Prop}
    (hstep : ∀ s s' a a' t, R s s' → A a a' → step s a = some t → ∃ t', step s' a' = some t' ∧ R t t')
    {s s' t : σ} {as as' : List α} (h : run step s as = some t) (hA : List.Forall₂ A as as') (hs : R s s') :
    ∃ t', run step s' as' = some t' ∧ R t t' := by
  induction hA generalizing s s' with
  | nil => cases h; exact ⟨s', rfl, hs⟩
  | cons ha _ ih =>
      obtain ⟨v, hv, hrun⟩ := run_cons.mp h
      obtain ⟨v', hv', hR⟩ := hstep _ _ _ _ _ hs ha hv
      obtain ⟨t', ht', hR'⟩ := ih hrun hR
      exact ⟨t', run_cons.mpr ⟨v', hv', ht'⟩, hR'⟩

theorem exists_step_of_change {P : σ → Prop} {s t : σ} {as : List α} (h : run step s as = some t) (hs : ¬ P s)
    (ht : P t) : ∃ pre a post u v, as = pre ++ a :: post ∧ run step s pre = some u ∧ step u a = some v ∧
      run step v post = some t ∧ ¬ P u ∧ P v := by
  induction as generalizing s with
  | nil => cases h; exact absurd ht hs
  | cons a as ih =>
      obtain ⟨v, hv, hrun⟩ := run_cons.mp h
      by_cases hP : P v
      · exact ⟨[], a, as, s, v, rfl, rfl, hv, hrun, hs, hP⟩
      · obtain ⟨pre, b, post, u, w, rfl, hu, hw, hpost, hn, hp⟩ := ih hrun hP
        exact ⟨a :: pre, b, post, u, w, rfl, run_cons.mpr ⟨v, hv, hu⟩, hw, hpost, hn, hp⟩

section Along

variable {C D : σ → α → Prop} {P : σ → Prop}

theorem along_cons {s t : σ} {a : α} {as : List α} (h : step s a = some t) :
    Along step C s (a :: as) ↔ C s a ∧ Along step C t as := by
  simp [Along, h]

theorem along_append {s t : σ} {as bs : List α} (h : run step s as = some t) :
    Along step C s (as ++ bs) ↔ Along step C s as ∧ Along step C t bs := by
  induction as generalizing s with
  | nil => cases h; simp [Along]
  | cons a as ih =>
      obtain ⟨v, hv, ht⟩ := run_cons.mp h
      rw [List.cons_append, along_cons hv, along_cons hv, ih ht, and_assoc]

theorem along_and {s : σ} {as : List α} :
    Along step (fun s a => C s a ∧ D s a) s as ↔ Along step C s as ∧ Along step D s as := by
  induction as generalizing s with
  | nil => exact (and_self_iff (a := True)).symm
  | cons a as ih =>
      simp only [Along, ih]
      grind

theorem along_imp (h : ∀ s a, C s a → D s a) {s : σ} {as : List α} (hC : Along step C s as) :
    Along step D s as := by
  induction as generalizing s with
  | nil => trivial
  | cons a as ih => exact ⟨h s a hC.1, fun t ht => ih (hC.2 t ht)⟩

theorem invariant_along (hstep : ∀ s a t, P s → C s a → step s a = some t → P t) {s t : σ}
    {as : List α} (h : run step s as = some t) (hC : Along step C s as) (hs : P s) : P t := by
  induction as generalizing s with
  | nil => cases h; exact hs
  | cons a as ih =>
      obtain ⟨v, hv, ht⟩ := run_cons.mp h
      exact ih ht (hC.2 v hv) (hstep s a v hs hC.1 hv)

theorem history_along {I : List σ → σ → Prop}
    (hstep : ∀ past s a t, I past s → C s a → step s a = some t → I (past ++ [t]) t) {s t : σ}
    {as : List α} (h : run step s as = some t) (hC : Along step C s as) {past : List σ}
    (hs : I past s) :
    I (past ++ states step s as) t := by
  induction as generalizing s past with
  | nil => cases h; rwa [states, List.append_nil]
  | cons a as ih =>
      obtain ⟨v, hv, ht⟩ := run_cons.mp h
      rw [states_cons hv, List.append_cons]
      exact ih ht (hC.2 v hv) (hstep past s a v hs hC.1 hv)

theorem along_of_mem {as : List α} (h : ∀ a ∈ as, ∀ s, C s a) (s : σ) : Along step C s as := by
  induction as generalizing s with
  | nil => trivial
  | cons a as ih =>
      exact ⟨h a List.mem_cons_self s, fun t _ => ih (fun b hb => h b (List.mem_cons_of_mem a hb)) t⟩

theorem along_true (s : σ) (as : List α) : Along step (fun _ _ => True) s as := by
  induction as generalizing s with
  | nil => trivial
  | cons a as ih => exact ⟨trivial, fun t _ => ih t⟩

theorem invariant (hstep : ∀ s a t, P s → step s a = some t → P t) {s t : σ} {as : List α}
    (h : run step s as = some t) (hs : P s) : P t :=
  invariant_along (C := fun _ _ => True) (fun s a t hp _ => hstep s a t hp) h (along_true s as) hs

theorem change_unique {P : σ → Prop} (hkeep : ∀ s a t, P s → step s a = some t → P t) {s u v u' v' : σ}
    {pre post pre' post' : List α} {a a' : α} (has : pre ++ a :: post = pre' ++ a' :: post')
    (hu : run step s pre = some u) (hv : step u a = some v) (hn : ¬ P u) (hp : P v)
    (hu' : run step s pre' = some u') (hv' : step u' a' = some v') (hn' : ¬ P u') (hp' : P v') :
    pre = pre' ∧ a = a' := by
  induction pre generalizing s pre' with
  | nil =>
      cases hu
      cases pre' with
      | nil => exact ⟨rfl, (List.cons.inj has).1⟩
      | cons b pre' =>
          obtain rfl := (List.cons.inj has).1
          obtain ⟨w, hw, hrun⟩ := run_cons.mp hu'
          obtain rfl := Option.some.inj (hv.symm.trans hw)
          exact absurd (invariant hkeep hrun hp) hn'
  | cons b pre ih =>
      obtain ⟨w, hw, hrun⟩ := run_cons.mp hu
      cases pre' with
      | nil =>
          cases hu'
          obtain rfl := (List.cons.inj has).1
          obtain rfl := Option.some.inj (hv'.symm.trans hw)
          exact absurd (invariant hkeep hrun hp') hn
      | cons b' pre' =>
          obtain ⟨rfl, htail⟩ := List.cons.inj has
          obtain ⟨w', hw', hrun'⟩ := run_cons.mp hu'
          obtain rfl := Option.some.inj (hw.symm.trans hw')
          obtain ⟨hpre, ha⟩ := ih htail hrun hrun'
          exact ⟨hpre ▸ rfl, ha⟩

/-- A flaw that a step outside `C` leaves behind and that no step repairs is
seen at the end of the run, so a run without it has kept to `C`. -/
theorem along_of_persistent {B : σ → Prop} (hstep : ∀ s a t, P s → step s a = some t → P t)
    (hkeep : ∀ s a t, P s → step s a = some t → B s → B t)
    (hflaw : ∀ s a t, P s → step s a = some t → ¬ C s a → B t) {s t : σ} {as : List α}
    (h : run step s as = some t) (hs : P s) (ht : ¬ B t) : Along step C s as := by
  induction as generalizing s with
  | nil => trivial
  | cons a as ih =>
      obtain ⟨v, hv, hrun⟩ := run_cons.mp h
      have hPv := hstep s a v hs hv
      rw [along_cons hv]
      refine ⟨?_, ih hrun hPv⟩
      by_contra hC
      apply ht
      have hB := hflaw s a v hs hv hC
      refine (invariant (P := fun s => P s ∧ B s) ?_ hrun ⟨hPv, hB⟩).2
      exact fun s a t hp hs => ⟨hstep s a t hp.1 hs, hkeep s a t hp.1 hs hp.2⟩

/-- A flaw that is there exactly when it was there before or the step is outside
`C` is there at the end exactly when a step was outside `C`. -/
theorem flaw_iff {B : σ → Prop} (hstep : ∀ s a t, P s → step s a = some t → P t)
    (hflaw : ∀ s a t, P s → step s a = some t → (B t ↔ B s ∨ ¬ C s a)) {s t : σ} {as : List α}
    (h : run step s as = some t) (hs : P s) : B t ↔ B s ∨ ¬ Along step C s as := by
  induction as generalizing s with
  | nil => cases h; simp [Along]
  | cons a as ih =>
      obtain ⟨v, hv, hrun⟩ := run_cons.mp h
      rw [ih hrun (hstep s a v hs hv), hflaw s a v hs hv, along_cons hv, not_and_or, or_assoc]

theorem relates_along {R : σ → σ → Prop} (hrefl : ∀ s, R s s)
    (htrans : ∀ s t u, R s t → R t u → R s u)
    (hstep : ∀ s a t, P s → C s a → step s a = some t → P t ∧ R s t) {s t : σ} {as : List α}
    (h : run step s as = some t) (hC : Along step C s as) (hs : P s) :
    R s t := by
  induction as generalizing s with
  | nil => cases h; exact hrefl _
  | cons a as ih =>
      obtain ⟨v, hv, ht⟩ := run_cons.mp h
      obtain ⟨hPv, hR⟩ := hstep s a v hs hC.1 hv
      exact htrans s v t hR (ih ht (hC.2 v hv) hPv)

end Along

section Refinement

variable {τ β : Type} {astep : τ → β → Option τ} (obs : σ → τ) {ops : σ → α → List β} {P : σ → Prop}

/-- The abstract actions that the steps of a run stand for. -/
def trace (step : σ → α → Option σ) (ops : σ → α → List β) : σ → List α → List β
  | _, [] => []
  | s, a :: as => ops s a ++ (step s a).elim [] fun t => trace step ops t as

theorem trace_cons {s t : σ} {a : α} {as : List α} (h : step s a = some t) :
    trace step ops s (a :: as) = ops s a ++ trace step ops t as := by
  rw [trace, h, Option.elim_some]

theorem mem_trace {s t : σ} {as : List α} {x : β} (h : run step s as = some t) (hx : x ∈ trace step ops s as) :
    ∃ pre a post u v, as = pre ++ a :: post ∧ run step s pre = some u ∧ step u a = some v ∧
      run step v post = some t ∧ x ∈ ops u a := by
  induction as generalizing s with
  | nil => cases hx
  | cons a as ih =>
      obtain ⟨v, hv, hrun⟩ := run_cons.mp h
      rw [trace_cons hv] at hx
      rcases List.mem_append.mp hx with hx | hx
      · exact ⟨[], a, as, s, v, rfl, rfl, hv, hrun, hx⟩
      · obtain ⟨pre, b, post, u, w, rfl, hu, hw, hpost, hmem⟩ := ih hrun hx
        exact ⟨a :: pre, b, post, u, w, rfl, run_cons.mpr ⟨v, hv, hu⟩, hw, hpost, hmem⟩

theorem log_along {f : α → Option β} {I : List β → σ → Prop}
    (hstep : ∀ l s a t, I l s → step s a = some t → I (l ++ (f a).toList) t) {s t : σ} {as : List α}
    (h : run step s as = some t) {l : List β} (hs : I l s) : I (l ++ as.filterMap f) t := by
  induction as generalizing s l with
  | nil =>
      cases h
      rwa [List.filterMap_nil, List.append_nil]
  | cons a as ih =>
      obtain ⟨v, hv, hrun⟩ := run_cons.mp h
      have hnext := ih hrun (hstep l s a v hs hv)
      rw [List.append_assoc] at hnext
      rw [List.filterMap_cons]
      cases hf : f a with
      | none => rwa [hf] at hnext
      | some b => rwa [hf] at hnext

theorem logs_along {γ : Type} (ops : σ → α → List β) (ops' : σ → α → List γ) {C : σ → α → Prop} {I : List β → List γ → σ → Prop}
    (hstep : ∀ l m s a t, I l m s → C s a → step s a = some t → I (l ++ ops s a) (m ++ ops' s a) t) {s t : σ}
    {as : List α} (h : run step s as = some t) (hC : Along step C s as) {l : List β} {m : List γ}
    (hs : I l m s) : I (l ++ trace step ops s as) (m ++ trace step ops' s as) t := by
  induction as generalizing s l m with
  | nil =>
      cases h
      rwa [trace, trace, List.append_nil, List.append_nil]
  | cons a as ih =>
      obtain ⟨v, hv, hrun⟩ := run_cons.mp h
      rw [trace_cons hv, trace_cons hv, ← List.append_assoc, ← List.append_assoc]
      exact ih hrun (hC.2 v hv) (hstep l m s a v hs hC.1 hv)

theorem filterMap_trace {γ : Type} {f : β → Option γ} {g : α → Option γ}
    (hstep : ∀ s a t, step s a = some t → (ops s a).filterMap f = (g a).toList) {s t : σ} {as : List α}
    (h : run step s as = some t) : (trace step ops s as).filterMap f = as.filterMap g := by
  induction as generalizing s with
  | nil => rfl
  | cons a as ih =>
      obtain ⟨v, hv, hrun⟩ := run_cons.mp h
      rw [trace_cons hv, List.filterMap_append, hstep s a v hv, ih hrun, List.filterMap_cons]
      cases g a <;> rfl

/-- When every step is seen as a run of its abstract actions, every run is. -/
theorem run_trace (hstep : ∀ s a t, P s → step s a = some t → P t ∧
    run astep (obs s) (ops s a) = some (obs t))
    {s t : σ} {as : List α} (h : run step s as = some t) (hs : P s) :
    run astep (obs s) (trace step ops s as) = some (obs t) := by
  induction as generalizing s with
  | nil => cases h; rfl
  | cons a as ih =>
      obtain ⟨v, hv, hrun⟩ := run_cons.mp h
      obtain ⟨hPv, hseen⟩ := hstep s a v hs hv
      rw [trace_cons hv]
      exact run_append.mpr ⟨obs v, hseen, ih hrun hPv⟩

omit obs in
theorem trace_append {s t : σ} {as bs : List α} (h : run step s as = some t) :
    trace step ops s (as ++ bs) = trace step ops s as ++ trace step ops t bs := by
  induction as generalizing s with
  | nil => cases h; rfl
  | cons a as ih =>
      obtain ⟨v, hv, hrun⟩ := run_cons.mp h
      rw [List.cons_append, trace_cons hv, trace_cons hv, ih hrun, List.append_assoc]

theorem trace_trace {γ : Type} {aops : τ → β → List γ} {cops : σ → α → List γ}
    (hstep : ∀ s a t, P s → step s a = some t → P t ∧ run astep (obs s) (ops s a) = some (obs t) ∧
      trace astep aops (obs s) (ops s a) = cops s a)
    {s t : σ} {as : List α} (h : run step s as = some t) (hs : P s) :
    trace astep aops (obs s) (trace step ops s as) = trace step cops s as := by
  induction as generalizing s with
  | nil => rfl
  | cons a as ih =>
      obtain ⟨v, hv, hrun⟩ := run_cons.mp h
      obtain ⟨hPv, hseen, hsaid⟩ := hstep s a v hs hv
      rw [trace_cons hv, trace_cons hv, trace_append hseen, hsaid, ih hrun hPv]

/-- A step condition that is seen as one on the abstract actions holds along a
run exactly when that one holds along what is seen of it. -/
theorem along_trace {C : σ → α → Prop} {D : τ → β → Prop}
    (hstep : ∀ s a t, P s → step s a = some t → P t ∧ run astep (obs s) (ops s a) = some (obs t))
    (hcond : ∀ s a t, P s → step s a = some t → (C s a ↔ Along astep D (obs s) (ops s a))) {s t : σ}
    {as : List α} (h : run step s as = some t) (hs : P s) :
    Along step C s as ↔ Along astep D (obs s) (trace step ops s as) := by
  induction as generalizing s with
  | nil => exact Iff.rfl
  | cons a as ih =>
      obtain ⟨v, hv, hrun⟩ := run_cons.mp h
      obtain ⟨hPv, hseen⟩ := hstep s a v hs hv
      rw [along_cons hv, trace_cons hv, along_append hseen, hcond s a v hs hv, ih hrun hPv]

end Refinement

end EspClawPlatform.Run
