import EspClawPlatform.Lib.Cell
import EspClawPlatform.Twin.TwinService

namespace EspClawPlatform.Twin

open Run

variable {shadows : Table DeviceShadow} {s t : State} {d : String}

inductive Shape (s : State) : Action → State → Prop
  | noop {call : Call} (hn : call.isNoop = true) :
      Shape s (.begins call) { s with calls := s.calls ++ [call] }
  | begins {call : Call} (hn : call.isNoop = false) :
      Shape s (.begins call) ({ s with calls := s.calls ++ [call] }.goto s.calls.length (.finding call))
  | finds {k : Nat} {call : Call} (hf : s.frames.get k = some (.finding call)) :
      Shape s (.commit k) (s.goto k (.found call (s.shadows.find call.deviceId)))
  | creates {k : Nat} {call : Call} (hf : s.frames.get k = some (.creating call)) :
      Shape s (.commit k)
        ({ s with shadows := s.shadows.save (emptyShadow call.deviceId) }.goto k
          (.created call (emptyShadow call.deviceId)))
  | saves {k : Nat} {call : Call} {row : DeviceShadow} (hf : s.frames.get k = some (.saving call row)) :
      Shape s (.commit k)
        ({ s with shadows := s.shadows.save (call.update row), saved := s.saved ++ [call] }.goto k
          (.saved call (call.update row)))
  | missing {k : Nat} {call : Call} (hf : s.frames.get k = some (.found call none)) :
      Shape s (.resume k) (s.goto k (.creating call))
  | loaded {k : Nat} {call : Call} {row : DeviceShadow}
      (hf : s.frames.get k = some (.found call (some row)) ∨ s.frames.get k = some (.created call row)) :
      Shape s (.resume k) (s.goto k (.saving call row))
  | returns {k : Nat} {call : Call} {row : DeviceShadow} (hf : s.frames.get k = some (.saved call row)) :
      Shape s (.resume k) (s.finish k call row)

theorem step_shape {a : Action} (h : step s a = some t) : Shape s a t := by
  cases a with
  | begins call =>
      cases h
      rw [State.begins]
      cases hn : call.isNoop with
      | true => exact .noop hn
      | false => exact .begins hn
  | commit k =>
      obtain ⟨f, hf, h⟩ := Option.bind_eq_some_iff.mp h
      cases f with
      | finding => cases h; exact .finds hf
      | creating => cases h; exact .creates hf
      | saving => cases h; exact .saves hf
      | _ => cases h
  | resume k =>
      obtain ⟨f, hf, h⟩ := Option.bind_eq_some_iff.mp h
      cases f with
      | found call row =>
          cases row with
          | none => cases h; exact .missing hf
          | some row => cases h; exact .loaded (.inl hf)
      | created => cases h; exact .loaded (.inr hf)
      | saved => cases h; exact .returns hf
      | _ => cases h

def Frame.Owns (shadows : Table DeviceShadow) : Frame → Prop
  | .finding _ => True
  | .found call none | .creating call => shadows.find call.deviceId = none
  | .found call (some row) | .created call row | .saving call row | .saved call row =>
      row.deviceId = call.deviceId

structure TwinInv (shadows : Table DeviceShadow) (s : State) : Prop where
  fresh : ∀ k f, s.frames.get k = some f → k < s.calls.length
  owns : ∀ k f, s.frames.get k = some f → f.Owns shadows
  rows : ∀ d, s.shadows.find d = none → shadows.find d = none

theorem twinInv_init : TwinInv shadows (init shadows) where
  fresh := fun _ _ h => by cases h
  owns := fun _ _ h => by cases h
  rows := fun _ h => h

@[simp]
theorem deviceId_update (call : Call) (row : DeviceShadow) : (call.update row).deviceId = row.deviceId := by
  cases call <;> rfl

theorem frames_finish (k : Nat) (call : Call) (row : DeviceShadow) :
    (s.finish k call row).frames = s.frames.erase k ∧ (s.finish k call row).shadows = s.shadows ∧
      (s.finish k call row).saved = s.saved ∧ (s.finish k call row).calls = s.calls := by
  cases call <;> exact ⟨rfl, rfl, rfl, rfl⟩

theorem twinInv_goto {k : Nat} {f : Frame} (hi : TwinInv shadows s) (hk : k < s.calls.length)
    (hf : f.Owns shadows) :
    TwinInv shadows (s.goto k f) where
  fresh := by
    intro j g hg
    rw [State.goto, Table.get_set] at hg
    split at hg
    · rename_i hj
      exact hj ▸ hk
    · exact hi.fresh j g hg
  owns := by
    intro j g hg
    rw [State.goto, Table.get_set] at hg
    split at hg
    · cases hg; exact hf
    · exact hi.owns j g hg
  rows := hi.rows

theorem twinInv_save {row : DeviceShadow} {saved : List Call} (hi : TwinInv shadows s) :
    TwinInv shadows { s with shadows := s.shadows.save row, saved := saved } where
  fresh := hi.fresh
  owns := hi.owns
  rows := by
    intro d hd
    rw [Table.find_save] at hd
    split at hd
    · cases hd
    · exact hi.rows d hd

theorem twinInv_step {a : Action} (hi : TwinInv shadows s) (h : step s a = some t) : TwinInv shadows t := by
  have hcalls (call : Call) : TwinInv shadows { s with calls := s.calls ++ [call] } := by
    refine ⟨fun k f hf => ?_, hi.owns, hi.rows⟩
    have := hi.fresh k f hf
    rw [List.length_append]
    omega
  cases step_shape h with
  | @noop call _ => exact hcalls call
  | @begins call _ => exact twinInv_goto (hcalls call) (by simp) trivial
  | @finds k call hf =>
      apply twinInv_goto hi (hi.fresh k _ hf)
      cases hrow : s.shadows.find call.deviceId with
      | none => exact hi.rows _ hrow
      | some row => exact Table.key_of_find hrow
  | creates hf => exact twinInv_goto (twinInv_save hi) (hi.fresh _ _ hf) rfl
  | saves hf =>
      have hown := hi.owns _ _ hf
      exact twinInv_goto (twinInv_save hi) (hi.fresh _ _ hf) ((deviceId_update _ _).trans hown)
  | missing hf =>
      have hown := hi.owns _ _ hf
      exact twinInv_goto hi (hi.fresh _ _ hf) hown
  | loaded hf =>
      rcases hf with hf | hf
      · have hown := hi.owns _ _ hf
        exact twinInv_goto hi (hi.fresh _ _ hf) hown
      · have hown := hi.owns _ _ hf
        exact twinInv_goto hi (hi.fresh _ _ hf) hown
  | @returns k call row hf =>
      obtain ⟨hframes, hshadows, -, hlen⟩ := frames_finish (s := s) k call row
      have hback {j : Nat} {g : Frame} (hg : (s.finish k call row).frames.get j = some g) :
        s.frames.get j = some g := by
        rw [hframes, Table.get_erase] at hg
        split at hg
        · cases hg
        · exact hg
      exact ⟨fun j g hg => hlen ▸ hi.fresh j g (hback hg), fun j g hg => hi.owns j g (hback hg),
        hshadows ▸ hi.rows⟩

def State.shadow (s : State) (d : String) : DeviceShadow := (s.shadows.find d).getD (emptyShadow d)

def Frame.copy (d : String) : Frame → Option DeviceShadow
  | .found call (some row) | .created call row | .saving call row =>
      if call.deviceId = d then some row else none
  | _ => none

/-- The shadow of one device as a cell that the calls load and store. -/
def cell (d : String) (s : State) : Cell Nat Call DeviceShadow where
  content := s.shadow d
  copies := fun k => (s.frames.get k).bind (Frame.copy d)
  stored := s.saved.filter fun call => call.deviceId = d

def Frame.op (d : String) (s : State) (k : Nat) : Frame → List (Cell.Op Nat Call)
  | .finding call => if call.deviceId = d ∧ (s.shadows.find d).isSome then [.load k] else []
  | .creating call => if call.deviceId = d then [.create k] else []
  | .saving call _ => if call.deviceId = d then [.store k call] else []
  | _ => []

def ops (d : String) (s : State) : Action → List (Cell.Op Nat Call)
  | .commit k => (s.frames.get k).elim [] (Frame.op d s k)
  | _ => []

theorem copies_goto (k j : Nat) (f : Frame) :
    (cell d (s.goto k f)).copies j = if j = k then f.copy d else (cell d s).copies j := by
  show ((s.goto k f).frames.get j).bind (Frame.copy d) = _
  rw [State.goto, Table.get_set]
  split <;> rfl

theorem copies_of_frame {k : Nat} {f : Frame} (hf : s.frames.get k = some f) :
    (cell d s).copies k = f.copy d := by
  show (s.frames.get k).bind (Frame.copy d) = _
  rw [hf, Option.bind_some]

theorem cell_goto {k : Nat} {f : Frame} (hf : f.copy d = (cell d s).copies k) :
    cell d (s.goto k f) = cell d s := by
  refine Cell.ext rfl (funext fun j => ?_) rfl
  rw [copies_goto]
  split
  · rename_i hj
    rw [hj, hf]
  · rfl

theorem cell_hold {k : Nat} {f : Frame} {v : DeviceShadow} (hf : f.copy d = some v) (hv : s.shadow d = v) :
    cell d (s.goto k f) = (cell d s).hold k v := by
  refine Cell.ext hv (funext fun j => ?_) rfl
  rw [copies_goto, Cell.copies_hold, hf]

theorem shadow_save {row : DeviceShadow} {saved : List Call} (hd : row.deviceId = d) :
    { s with shadows := s.shadows.save row, saved := saved }.shadow d = row := by
  subst hd
  have hrow : (s.shadows.save row).find row.deviceId = some row := Table.find_save_self _ _
  rw [State.shadow, hrow]
  rfl

theorem shadow_save_of_ne {row : DeviceShadow} {saved : List Call} (hd : row.deviceId ≠ d) :
    { s with shadows := s.shadows.save row, saved := saved }.shadow d = s.shadow d :=
  congrArg (fun row => Option.getD row _) (Table.find_save_of_ne _ (Ne.symm hd))

theorem cell_save_of_ne {row : DeviceShadow} {saved : List Call} (hd : row.deviceId ≠ d)
    (hs : (saved.filter fun call => call.deviceId = d) = s.saved.filter fun call => call.deviceId = d) :
    cell d { s with shadows := s.shadows.save row, saved := saved } = cell d s :=
  Cell.ext (shadow_save_of_ne hd) rfl hs

theorem copy_of_ne {call : Call} {row : DeviceShadow} (hd : call.deviceId ≠ d) :
    (Frame.found call (some row)).copy d = none ∧ (Frame.created call row).copy d = none ∧
      (Frame.saving call row).copy d = none :=
  ⟨if_neg hd, if_neg hd, if_neg hd⟩

def base (shadows : Table DeviceShadow) (d : String) : DeviceShadow := (shadows.find d).getD (emptyShadow d)

theorem seen_finds {k : Nat} {call : Call} (hf : s.frames.get k = some (.finding call)) :
    run (Cell.step Call.update (base shadows d)) (cell d s) (ops d s (.commit k)) =
      some (cell d (s.goto k (.found call (s.shadows.find call.deviceId)))) := by
  have hnone : (cell d s).copies k = none := copies_of_frame hf
  have hops : ops d s (.commit k) = if call.deviceId = d ∧
    (s.shadows.find d).isSome then [.load k] else [] := by
    rw [ops, hf]
    rfl
  rw [hops]
  cases hrow : s.shadows.find call.deviceId with
  | none =>
      rw [if_neg, run_nil, cell_goto (f := .found call none) hnone.symm]
      rintro ⟨rfl, hd⟩
      rw [hrow] at hd
      cases hd
  | some row =>
      by_cases hd : call.deviceId = d
      · subst hd
        have hv : s.shadow call.deviceId = row := by rw [State.shadow, hrow]; rfl
        rw [if_pos ⟨rfl, by rw [hrow]; rfl⟩, run_singleton,
          cell_hold (f := .found call (some row)) (if_pos rfl) hv, ← hv]
        exact if_neg (by simp [hnone])
      · rw [if_neg fun h => hd h.1, run_nil, cell_goto ((copy_of_ne hd).1.trans hnone.symm)]

theorem seen_creates {k : Nat} {call : Call} (hi : TwinInv shadows s)
    (hf : s.frames.get k = some (.creating call)) :
    run (Cell.step Call.update (base shadows d)) (cell d s) (ops d s (.commit k)) =
      some (cell d ({ s with shadows := s.shadows.save (emptyShadow call.deviceId) }.goto k
        (.created call (emptyShadow call.deviceId)))) := by
  have hnone : (cell d s).copies k = none := copies_of_frame hf
  have hops : ops d s (.commit k) = if call.deviceId = d then [.create k] else [] := by
    rw [ops, hf]
    rfl
  rw [hops]
  by_cases hd : call.deviceId = d
  · subst hd
    have hbase : base shadows call.deviceId = emptyShadow call.deviceId := by
      rw [base, show shadows.find call.deviceId = none from hi.owns k _ hf]
      rfl
    have hhold := cell_hold (s := { s with shadows := s.shadows.save (emptyShadow call.deviceId) }) (k := k)
      (f := .created call (emptyShadow call.deviceId)) (if_pos rfl) (shadow_save rfl)
    rw [if_pos rfl, run_singleton, hhold, hbase]
    exact if_neg (by simp [hnone])
  · rw [if_neg hd, run_nil, cell_goto, cell_save_of_ne hd rfl]
    rw [cell_save_of_ne hd rfl, hnone]
    exact (copy_of_ne hd).2.1

theorem seen_saves {k : Nat} {call : Call} {row : DeviceShadow} (hi : TwinInv shadows s)
    (hf : s.frames.get k = some (.saving call row)) :
    run (Cell.step Call.update (base shadows d)) (cell d s) (ops d s (.commit k)) =
      some (cell d ({ s with shadows := s.shadows.save (call.update row), saved := s.saved ++ [call] }.goto k
        (.saved call (call.update row)))) := by
  have hown : (call.update row).deviceId = call.deviceId := (deviceId_update call row).trans (hi.owns k _ hf)
  have hops : ops d s (.commit k) = if call.deviceId = d then [.store k call] else [] := by
    rw [ops, hf]
    rfl
  rw [hops]
  by_cases hd : call.deviceId = d
  · have hcopy : (cell d s).copies k = some row := (copies_of_frame hf).trans (if_pos hd)
    have hput : (cell d s).put k (call.update row) call =
        cell d ({ s with shadows := s.shadows.save (call.update row), saved := s.saved ++ [call] }.goto k
          (.saved call (call.update row))) := by
      have hcontent :
          { s with shadows := s.shadows.save (call.update row), saved := s.saved ++ [call] }.shadow d =
          call.update row := shadow_save (hown.trans hd)
      refine Cell.ext hcontent.symm (funext fun j => ?_) ?_
      · rw [copies_goto, Cell.copies_put]
        rfl
      · simp [Cell.put, cell, State.goto, hd]
    rw [if_pos hd, run_singleton, ← hput, Cell.step, hcopy]
    rfl
  · have hcopy : (cell d s).copies k = none := (copies_of_frame hf).trans (copy_of_ne hd).2.2
    have hfilter : ((s.saved ++ [call]).filter fun call => call.deviceId = d) =
        s.saved.filter fun call => call.deviceId = d := by simp [List.filter_append, hd]
    have hne : (call.update row).deviceId ≠ d := fun he => hd (hown.symm.trans he)
    rw [if_neg hd, run_nil, cell_goto, cell_save_of_ne hne hfilter]
    rw [cell_save_of_ne hne hfilter, hcopy]
    rfl

theorem cell_finish {k : Nat} {call : Call} {row : DeviceShadow}
    (hf : s.frames.get k = some (.saved call row)) :
    cell d (s.finish k call row) = cell d s := by
  obtain ⟨hframes, hshadows, hsaved, -⟩ := frames_finish (s := s) k call row
  refine Cell.ext ?_ (funext fun j => ?_) ?_
  · rw [cell, State.shadow, hshadows]
    rfl
  · show ((s.finish k call row).frames.get j).bind (Frame.copy d) = (s.frames.get j).bind (Frame.copy d)
    rw [hframes, Table.get_erase]
    split
    · rename_i hj
      rw [hj, hf]
      rfl
    · rfl
  · rw [cell, hsaved]
    rfl

theorem seen_step {a : Action} (hi : TwinInv shadows s) (h : step s a = some t) :
    run (Cell.step Call.update (base shadows d)) (cell d s) (ops d s a) = some (cell d t) := by
  cases step_shape h with
  | noop => rfl
  | @begins call _ =>
      have hnew : s.frames.get s.calls.length = none := by
        cases hf : s.frames.get s.calls.length with
        | none => rfl
        | some f => exact absurd (hi.fresh _ f hf) (Nat.lt_irrefl _)
      have hnone : (cell d { s with calls := s.calls ++ [call] }).copies s.calls.length = none := by
        show (s.frames.get s.calls.length).bind (Frame.copy d) = none
        rw [hnew]
        rfl
      exact congrArg some (cell_goto (f := .finding call) hnone.symm).symm
  | finds hf => exact seen_finds hf
  | creates hf => exact seen_creates hi hf
  | saves hf => exact seen_saves hi hf
  | @missing k call hf => exact congrArg some (cell_goto (f := .creating call) (copies_of_frame hf).symm).symm
  | @loaded k call row hf =>
      have hcopy : (cell d s).copies k = (Frame.saving call row).copy d := by
        rcases hf with hf | hf
        · exact (copies_of_frame hf).trans rfl
        · exact (copies_of_frame hf).trans rfl
      exact congrArg some (cell_goto hcopy.symm).symm
  | returns hf => exact congrArg some (cell_finish hf).symm

end EspClawPlatform.Twin
