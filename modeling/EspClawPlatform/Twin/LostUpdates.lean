import EspClawPlatform.Twin.Steps

namespace EspClawPlatform.Twin

open Run

variable {shadows : Table DeviceShadow} {s t : State} {d : String}

def Call.patch (d : String) : Call → Option Record
  | .setDesired deviceId patch => if deviceId = d then some patch else none
  | .mergeReported .. => none

def Call.samples (d : String) : Call → Option (List ReportedSample)
  | .setDesired .. => none
  | .mergeReported deviceId samples => if deviceId = d ∧ samples ≠ [] then some samples else none

def patches (d : String) (calls : List Call) : List Record := calls.filterMap (Call.patch d)

def merges (d : String) (calls : List Call) : List (List ReportedSample) := calls.filterMap (Call.samples d)

structure NoLostUpdate (shadows : Table DeviceShadow) (s : State) (d : String) : Prop where
  desiredVersion : (s.shadow d).desiredVersion = (base shadows d).desiredVersion + (patches d s.calls).length
  reportedVersion : (s.shadow d).reportedVersion = (base shadows d).reportedVersion + (merges d s.calls).length
  desired : ∃ ps : List Record, ps.Perm (patches d s.calls) ∧
    (s.shadow d).desired = ps.foldl spread (base shadows d).desired
  reported : ∀ samples ∈ merges d s.calls, ∀ x ∈ samples, ∃ samples' ∈ merges d s.calls, ∃ x' ∈ samples',
    x'.metric = x.metric ∧ (s.shadow d).reported.get x.metric = some x'.value

/-- What is saved for the device replaces the very row that the call has loaded,
or no row. -/
def Frame.Fresh (d : String) (s : State) : Frame → Prop
  | .creating call => call.deviceId = d → s.shadow d = emptyShadow d
  | .saving call row => call.deviceId = d → s.shadow d = row
  | _ => True

instance (d : String) (s : State) : ∀ f : Frame, Decidable (f.Fresh d s)
  | .creating call => inferInstanceAs (Decidable (call.deviceId = d → s.shadow d = emptyShadow d))
  | .saving call row => inferInstanceAs (Decidable (call.deviceId = d → s.shadow d = row))
  | .finding _ | .found .. | .created .. | .saved .. => inferInstanceAs (Decidable True)

def Fresh (d : String) (s : State) : Action → Prop
  | .commit k => ∀ f ∈ s.frames.get k, f.Fresh d s
  | _ => True

instance (d : String) : ∀ s a, Decidable (Fresh d s a)
  | s, .commit k => inferInstanceAs (Decidable (∀ f ∈ s.frames.get k, f.Fresh d s))
  | _, .begins _ | _, .resume _ => inferInstanceAs (Decidable True)

/-- No metric is reported that an assignment does not store. -/
def Storable (reported : Record) (merges : List (List ReportedSample)) : Prop :=
  ∀ samples ∈ merges, ∀ x ∈ samples, x.metric = "__proto__" → reported.get "__proto__" ≠ none

instance (reported : Record) (merges : List (List ReportedSample)) : Decidable (Storable reported merges) :=
  inferInstanceAs (Decidable (∀ samples ∈ merges, ∀ x ∈ samples, x.metric = "__proto__" → _))

section Seen

theorem along_singleton {a : Cell.Op Nat Call} {c : Cell Nat Call DeviceShadow} {b : DeviceShadow} :
    Along (Cell.step Call.update b) (Cell.Fresh b) c [a] ↔ Cell.Fresh b c a := by
  simp [Along]

theorem fresh_seen {a : Action} (hi : TwinInv shadows s) :
    Fresh d s a ↔ Along (Cell.step Call.update (base shadows d)) (Cell.Fresh (base shadows d))
      (cell d s) (ops d s a) := by
  cases a with
  | begins | resume => exact Iff.rfl
  | commit k =>
      rw [ops]
      cases hf : s.frames.get k with
      | none => simp [Fresh, hf, Along]
      | some f =>
          have hfresh : Fresh d s (.commit k) ↔ f.Fresh d s := by simp [Fresh, hf]
          rw [hfresh, Option.elim_some]
          cases f with
          | finding call =>
              rw [Frame.op]
              split
              · exact iff_of_true trivial (along_singleton.mpr trivial)
              · exact Iff.rfl
          | creating call =>
              rw [Frame.op]
              split
              · rename_i hd
                subst hd
                have hnone : shadows.find call.deviceId = none := hi.owns k _ hf
                have hbase : base shadows call.deviceId = emptyShadow call.deviceId := by rw [base, hnone]; rfl
                rw [along_singleton, hbase]
                exact ⟨fun h => h rfl, fun h _ => h⟩
              · rename_i hd
                exact iff_of_true (fun h => absurd h hd) trivial
          | saving call row =>
              rw [Frame.op]
              split
              · rename_i hd
                have hcopy : (cell d s).copies k = some row := (copies_of_frame hf).trans (if_pos hd)
                rw [along_singleton, Cell.Fresh, hcopy]
                exact ⟨fun h => congrArg some (h hd).symm, fun h _ => (Option.some.inj h).symm⟩
              · rename_i hd
                exact iff_of_true (fun h => absurd h hd) trivial
          | _ => exact Iff.rfl

theorem run_seen {as : List Action} (h : run step (init shadows) as = some s) :
    run (Cell.step Call.update (base shadows d)) (Cell.start (base shadows d))
      (trace step (ops d) (init shadows) as) = some (cell d s) :=
  run_trace (cell d) (fun _ _ _ hi hs => ⟨twinInv_step hi hs, seen_step hi hs⟩) h twinInv_init

theorem along_seen {as : List Action} (h : run step (init shadows) as = some s) :
    Along step (Fresh d) (init shadows) as ↔
      Along (Cell.step Call.update (base shadows d)) (Cell.Fresh (base shadows d))
        (Cell.start (base shadows d))
        (trace step (ops d) (init shadows) as) :=
  along_trace (cell d) (fun _ _ _ hi hs => ⟨twinInv_step hi hs, seen_step hi hs⟩)
    (fun _ _ _ hi _ => fresh_seen hi) h twinInv_init

end Seen

section Calls

def Frame.unsaved : Frame → Option Call
  | .finding call | .found call _ | .creating call | .created call _ | .saving call _ => some call
  | .saved .. => none

def Accounted (s : State) : Prop :=
  ∀ c, (s.calls.filter fun call => !call.isNoop).count c =
    s.saved.count c + s.frames.count fun e => e.2.unsaved = some c

theorem count_snoc (calls : List Call) (call c : Call) :
    (calls ++ [call]).count c = calls.count c + (decide (some call = some c)).toNat := by
  rw [List.count_append, List.count_singleton]
  by_cases hc : call = c <;> simp [hc]

theorem count_goto {k : Nat} {g : Frame} {old : Option Call} (c : Call)
    (hold : (s.frames.get k).bind Frame.unsaved = old) :
    ((s.goto k g).frames.count fun e => e.2.unsaved = some c) + (decide (old = some c)).toNat =
      (s.frames.count fun e => e.2.unsaved = some c) + (decide (g.unsaved = some c)).toNat := by
  have hsave := Table.count_save s.frames (fun e => e.2.unsaved = some c) (k, g)
  have hold' : (s.frames.find k).any (fun e => decide (e.2.unsaved = some c)) = decide (old = some c) := by
    subst hold
    rw [Table.get]
    cases s.frames.find k with
    | none => rfl
    | some e => rfl
  rw [← hold']
  exact hsave

theorem count_erase_saved {k : Nat} {call : Call} {row : DeviceShadow} (c : Call)
    (hf : s.frames.get k = some (.saved call row)) :
    ((s.frames.erase k).count fun e => e.2.unsaved = some c) = s.frames.count fun e =>
      e.2.unsaved = some c := by
  have herase := Table.count_erase s.frames (fun e => e.2.unsaved = some c) k
  obtain ⟨e, he, hsaved⟩ := Option.map_eq_some_iff.mp hf
  rw [he] at herase
  simpa [hsaved, Frame.unsaved] using herase

theorem accounted_goto {k : Nat} {f g : Frame} (ha : Accounted s) (hf : s.frames.get k = some f)
    (hg : g.unsaved = f.unsaved) : Accounted (s.goto k g) := by
  intro c
  have hcount := count_goto (g := g) c (show _ = f.unsaved by rw [hf, Option.bind_some])
  rw [hg] at hcount
  exact (ha c).trans (congrArg _ (Nat.add_right_cancel hcount).symm)

theorem accounted_step {a : Action} (hi : TwinInv shadows s) (ha : Accounted s)
    (h : step s a = some t) : Accounted t := by
  cases step_shape h with
  | noop hn =>
      intro c
      simpa [List.filter_append, hn] using ha c
  | @begins call hn =>
      intro c
      have hnew : s.frames.get s.calls.length = none := by
        cases hf : s.frames.get s.calls.length with
        | none => rfl
        | some f => exact absurd (hi.fresh _ f hf) (Nat.lt_irrefl _)
      have hcount := count_goto (s := { s with calls := s.calls ++ [call] }) (k := s.calls.length)
        (g := .finding call) c (show _ = none by rw [hnew, Option.bind_none])
      have hfilter : ((s.calls ++ [call]).filter fun call => !call.isNoop) =
          (s.calls.filter fun call => !call.isNoop) ++ [call] := by simp [List.filter_append, hn]
      show ((s.calls ++ [call]).filter fun call => !call.isNoop).count c = s.saved.count c + _
      rw [hfilter, count_snoc, ha c, Nat.add_assoc]
      exact congrArg _ hcount.symm
  | finds hf => exact accounted_goto ha hf rfl
  | creates hf => exact accounted_goto (s := { s with shadows := _ }) ha hf rfl
  | @saves k call row hf =>
      intro c
      have hcount := count_goto
        (s := { s with shadows := s.shadows.save (call.update row), saved := s.saved ++ [call] })
        (g := .saved call (call.update row)) c (show _ = some call by rw [hf]; rfl)
      show (s.calls.filter fun call => !call.isNoop).count c = (s.saved ++ [call]).count c + _
      rw [count_snoc, ha c, Nat.add_assoc, Nat.add_comm (decide _).toNat]
      exact congrArg _ hcount.symm
  | missing hf => exact accounted_goto ha hf rfl
  | loaded hf =>
      rcases hf with hf | hf
      · exact accounted_goto ha hf rfl
      · exact accounted_goto ha hf rfl
  | @returns k call row hf =>
      intro c
      obtain ⟨hframes, -, hsaved, hcalls⟩ := frames_finish (s := s) k call row
      rw [hframes, hsaved, hcalls, count_erase_saved c hf]
      exact ha c

theorem saved_perm {as : List Action} (h : run step (init shadows) as = some s) (hidle : s.frames = .empty) :
    s.saved.Perm (s.calls.filter fun call => !call.isNoop) := by
  have ha : TwinInv shadows s ∧ Accounted s :=
    invariant (P := fun s => TwinInv shadows s ∧ Accounted s)
      (fun _ _ _ hi hs => ⟨twinInv_step hi.1 hs, accounted_step hi.1 hi.2 hs⟩) h ⟨twinInv_init, fun _ => rfl⟩
  refine List.perm_iff_count.mpr fun c => ?_
  rw [ha.2 c, hidle]
  rfl

end Calls

section Folds

def Own (d : String) (calls : List Call) : Prop := ∀ call ∈ calls, call.deviceId = d ∧ call.isNoop = false

@[simp]
theorem patches_setDesired (patch : Record) (calls : List Call) :
    patches d (.setDesired d patch :: calls) = patch :: patches d calls := by
  have hp : Call.patch d (.setDesired d patch) = some patch := if_pos rfl
  exact List.filterMap_cons_some hp

@[simp]
theorem patches_mergeReported (deviceId : String) (samples : List ReportedSample) (calls : List Call) :
    patches d (.mergeReported deviceId samples :: calls) = patches d calls := rfl

@[simp]
theorem merges_setDesired (deviceId : String) (patch : Record) (calls : List Call) :
    merges d (.setDesired deviceId patch :: calls) = merges d calls := rfl

@[simp]
theorem merges_mergeReported (x : ReportedSample) (xs : List ReportedSample) (calls : List Call) :
    merges d (.mergeReported d (x :: xs) :: calls) = (x :: xs) :: merges d calls := by
  have hs : Call.samples d (.mergeReported d (x :: xs)) = some (x :: xs) :=
    if_pos ⟨rfl, List.cons_ne_nil x xs⟩
  exact List.filterMap_cons_some hs

theorem fold_update {calls : List Call} (ho : Own d calls) (row : DeviceShadow) :
    calls.foldl (fun row call => call.update row) row =
      { row with
        desired := (patches d calls).foldl spread row.desired
        reported := (merges d calls).flatten.foldl assign row.reported
        desiredVersion := row.desiredVersion + (patches d calls).length
        reportedVersion := row.reportedVersion + (merges d calls).length } := by
  induction calls generalizing row with
  | nil => rfl
  | cons call calls ih =>
      obtain ⟨hd, hn⟩ := ho call List.mem_cons_self
      rw [List.foldl_cons, ih fun c hc => ho c (List.mem_cons_of_mem _ hc)]
      cases call with
      | setDesired deviceId patch =>
          obtain rfl : deviceId = d := hd
          simp only [Call.update, patches_setDesired, merges_setDesired, List.foldl_cons, List.length_cons]
          congr 1
          omega
      | mergeReported deviceId samples =>
          obtain rfl : deviceId = d := hd
          cases samples with
          | nil => cases hn
          | cons x xs =>
              simp only [Call.update, patches_mergeReported, merges_mergeReported, List.flatten_cons,
                List.foldl_append, List.length_cons]
              congr 1
              omega

theorem get_assign (r : Record) (x : ReportedSample) (m : String) :
    (assign r x).get m =
      if m = x.metric ∧ ¬ (m = "__proto__" ∧ r.get "__proto__" = none) then some x.value else r.get m := by
  rw [assign]
  by_cases hp : x.metric = "__proto__" ∧ r.get "__proto__" = none
  · rw [if_pos hp, if_neg]
    rintro ⟨rfl, hn⟩
    exact hn hp
  · rw [if_neg hp, Table.get_set]
    by_cases hm : m = x.metric
    · subst hm
      rw [if_pos rfl, if_pos ⟨rfl, hp⟩]
    · rw [if_neg hm, if_neg fun h => hm h.1]

theorem get_proto_foldl (xs : List ReportedSample) {r : Record} (h : r.get "__proto__" = none) :
    (xs.foldl assign r).get "__proto__" = none := by
  induction xs generalizing r with
  | nil => exact h
  | cons x xs ih =>
      apply ih
      rw [get_assign, if_neg fun hc => hc.2 ⟨rfl, h⟩, h]

theorem get_foldl_assign (xs : List ReportedSample) {r : Record} {m : String}
    (h : m = "__proto__" → r.get "__proto__" ≠ none) :
    (∃ x ∈ xs, x.metric = m ∧ (xs.foldl assign r).get m = some x.value) ∨
      (∀ x ∈ xs, x.metric ≠ m) ∧ (xs.foldl assign r).get m = r.get m := by
  induction xs generalizing r with
  | nil => exact .inr ⟨fun _ hx => (List.not_mem_nil hx).elim, rfl⟩
  | cons x xs ih =>
      have hkept : m = "__proto__" → (assign r x).get "__proto__" ≠ none := by
        intro hm
        rw [get_assign]
        split
        · exact Option.some_ne_none _
        · exact h hm
      have hfirst : (assign r x).get m = if m = x.metric then some x.value else r.get m := by
        rw [get_assign]
        by_cases hm : m = x.metric
        · rw [if_pos hm, if_pos ⟨hm, fun hp => h hp.1 hp.2⟩]
        · rw [if_neg hm, if_neg fun hc => hm hc.1]
      rcases ih hkept with ⟨y, hy, hm, hget⟩ | ⟨hnone, hget⟩
      · exact .inl ⟨y, List.mem_cons_of_mem _ hy, hm, hget⟩
      · rw [hfirst] at hget
        by_cases hm : m = x.metric
        · rw [if_pos hm] at hget
          exact .inl ⟨x, List.mem_cons_self, hm.symm, hget⟩
        · rw [if_neg hm] at hget
          refine .inr ⟨fun y hy => ?_, hget⟩
          rcases List.mem_cons.mp hy with rfl | hy
          · exact Ne.symm hm
          · exact hnone y hy

theorem length_own {calls : List Call} (ho : Own d calls) :
    calls.length = (patches d calls).length + (merges d calls).length := by
  induction calls with
  | nil => rfl
  | cons call calls ih =>
      obtain ⟨hd, hn⟩ := ho call List.mem_cons_self
      have hrest := ih fun c hc => ho c (List.mem_cons_of_mem _ hc)
      cases call with
      | setDesired deviceId patch =>
          obtain rfl : deviceId = d := hd
          rw [patches_setDesired, merges_setDesired, List.length_cons, List.length_cons]
          omega
      | mergeReported deviceId samples =>
          obtain rfl : deviceId = d := hd
          cases samples with
          | nil => cases hn
          | cons x xs =>
              rw [patches_mergeReported, merges_mergeReported, List.length_cons, List.length_cons]
              omega

end Folds

theorem filterMap_filter_of_none {α : Type} {g : Call → Option α} {p : Call → Bool} (calls : List Call)
    (h : ∀ call, p call = false → g call = none) : (calls.filter p).filterMap g = calls.filterMap g := by
  rw [List.filterMap_filter]
  refine List.filterMap_congr fun call _ => ?_
  cases hp : p call with
  | true => rfl
  | false => exact (h call hp).symm

section Stored

variable {as : List Action}

theorem own_stored (h : run step (init shadows) as = some s) (hidle : s.frames = .empty) :
    Own d (cell d s).stored := by
  intro call hc
  obtain ⟨hsaved, hd⟩ := List.mem_filter.mp hc
  have hcall := (saved_perm h hidle).mem_iff.mp hsaved
  exact ⟨by simpa using hd, by simpa using (List.mem_filter.mp hcall).2⟩

theorem stored_perm {α : Type} {g : Call → Option α} (h : run step (init shadows) as = some s)
    (hidle : s.frames = .empty) (hd : ∀ call : Call, call.deviceId ≠ d → g call = none)
    (hn : ∀ call : Call, call.isNoop → g call = none) :
    ((cell d s).stored.filterMap g).Perm (s.calls.filterMap g) := by
  have hown : (cell d s).stored.filterMap g = s.saved.filterMap g :=
    filterMap_filter_of_none _ fun call hc => hd call (by simpa using hc)
  have hcalls : (s.calls.filter fun call => !call.isNoop).filterMap g = s.calls.filterMap g :=
    filterMap_filter_of_none _ fun call hc => hn call (by simpa using hc)
  rw [hown, ← hcalls]
  exact (saved_perm h hidle).filterMap g

theorem patches_perm (h : run step (init shadows) as = some s) (hidle : s.frames = .empty) :
    (patches d (cell d s).stored).Perm (patches d s.calls) := by
  refine stored_perm h hidle ?_ ?_
  · rintro (⟨deviceId, patch⟩ | ⟨deviceId, samples⟩) hd
    · exact if_neg hd
    · rfl
  · rintro (⟨deviceId, patch⟩ | ⟨deviceId, samples⟩) hn
    · cases hn
    · rfl

theorem merges_perm (h : run step (init shadows) as = some s) (hidle : s.frames = .empty) :
    (merges d (cell d s).stored).Perm (merges d s.calls) := by
  refine stored_perm h hidle ?_ ?_
  · rintro (⟨deviceId, patch⟩ | ⟨deviceId, samples⟩) hd
    · rfl
    · exact if_neg fun hc => hd hc.1
  · rintro (⟨deviceId, patch⟩ | ⟨deviceId, samples⟩) hn
    · rfl
    · cases samples with
      | nil => exact if_neg fun hc => hc.2 rfl
      | cons => cases hn

theorem versions_iff_fresh (h : run step (init shadows) as = some s) (hidle : s.frames = .empty) :
    (s.shadow d).desiredVersion + (s.shadow d).reportedVersion =
        (base shadows d).desiredVersion + (base shadows d).reportedVersion +
          ((patches d s.calls).length + (merges d s.calls).length) ↔
      Along step (Fresh d) (init shadows) as := by
  have hnone (k : Nat) : (cell d s).copies k = none := by
    show (s.frames.get k).bind (Frame.copy d) = none
    rw [hidle]
    rfl
  have hcount := Cell.measure_eq_iff_fresh
    (fun row : DeviceShadow => row.desiredVersion + row.reportedVersion)
    (fun call row => by cases call <;> simp only [Call.update] <;> omega) (run_seen (d := d) h) hnone
  rw [along_seen h, ← hcount, length_own (own_stored h hidle), (patches_perm h hidle).length_eq,
    (merges_perm h hidle).length_eq]
  exact Iff.rfl

theorem shadow_eq_fold (h : run step (init shadows) as = some s) (hidle : s.frames = .empty)
    (hC : Along step (Fresh d) (init shadows) as) :
    s.shadow d =
      { base shadows d with
        desired := (patches d (cell d s).stored).foldl spread (base shadows d).desired
        reported := (merges d (cell d s).stored).flatten.foldl assign (base shadows d).reported
        desiredVersion := (base shadows d).desiredVersion + (patches d (cell d s).stored).length
        reportedVersion := (base shadows d).reportedVersion + (merges d (cell d s).stored).length } :=
  (Cell.content_eq_foldl (run_seen h) ((along_seen h).mp hC)).trans (fold_update (own_stored h hidle) _)

end Stored

/-- When all calls have finished, none of those for a device has been lost
exactly when every save for it was fresh and every metric could be stored. -/
theorem no_lost_update_iff {as : List Action} (h : run step (init shadows) as = some s)
    (hidle : s.frames = .empty) :
    NoLostUpdate shadows s d ↔
      Along step (Fresh d) (init shadows) as ∧ Storable (base shadows d).reported (merges d s.calls) := by
  have hmerges := merges_perm (d := d) h hidle
  have hpatches := patches_perm (d := d) h hidle
  constructor
  · intro hno
    have hC : Along step (Fresh d) (init shadows) as := by
      rw [← versions_iff_fresh h hidle, hno.desiredVersion, hno.reportedVersion]
      omega
    refine ⟨hC, fun samples hs x hx hproto hnone => ?_⟩
    obtain ⟨-, -, x', -, -, hget⟩ := hno.reported samples hs x hx
    rw [hproto, shadow_eq_fold h hidle hC, get_proto_foldl _ hnone] at hget
    cases hget
  · rintro ⟨hC, hstore⟩
    have hfold := shadow_eq_fold h hidle hC
    refine ⟨?_, ?_, ?_, ?_⟩
    · rw [hfold, hpatches.length_eq]
    · rw [hfold, hmerges.length_eq]
    · exact ⟨_, hpatches, by rw [hfold]⟩
    · intro samples hs x hx
      have hmem : x ∈ (merges d (cell d s).stored).flatten :=
        List.mem_flatten.mpr ⟨samples, hmerges.mem_iff.mpr hs, hx⟩
      rw [hfold]
      rcases get_foldl_assign (m := x.metric) _ (hstore samples hs x hx) with ⟨y, hy, hm, hget⟩ | ⟨hnone, -⟩
      · obtain ⟨samples', hs', hy'⟩ := List.mem_flatten.mp hy
        exact ⟨samples', hmerges.mem_iff.mp hs', y, hy', hm, hget⟩
      · exact absurd rfl (hnone x hmem)

def temperature : List ReportedSample := [{ metric := "temperature", value := .num (.finite 20) }]

def interval : Record := Table.empty.set "interval" (.num (.finite 5))

/-- `setDesired` loads the row before `mergeReported` saves it. -/
def crossed : List Action :=
  [.begins (.setDesired "dev-1" interval), .begins (.mergeReported "dev-1" temperature), .commit 0,
    .commit 1, .resume 0,
    .resume 1, .commit 1, .commit 0, .resume 1, .resume 0]

def oneByOne : List Action :=
  [.begins (.setDesired "dev-1" interval), .commit 0, .resume 0, .commit 0, .resume 0, .commit 0, .resume 0,
    .begins (.mergeReported "dev-1" temperature), .commit 1, .resume 1, .commit 1, .resume 1]

theorem crossed_calls_lose_an_update : ¬ ∀ (shadows : Table DeviceShadow) (as : List Action)
    (s : State) (d : String),
    run step (init shadows) as = some s → s.frames = .empty → NoLostUpdate shadows s d := by
  intro h
  have hend : ∃ s ∈ run step (init (Table.empty.save (emptyShadow "dev-1"))) crossed, s.frames = .empty ∧
      (s.shadow "dev-1").reportedVersion ≠
        (base (Table.empty.save (emptyShadow "dev-1")) "dev-1").reportedVersion +
          (merges "dev-1" s.calls).length := by
    decide +kernel
  obtain ⟨s, hs, hidle, hne⟩ := hend
  exact hne (h _ _ s "dev-1" hs hidle).reportedVersion

theorem ordered_calls_keep_updates : ∃ s, run step (init .empty) oneByOne = some s ∧ s.frames = .empty ∧
    NoLostUpdate .empty s "dev-1" := by
  have hend : ∃ s ∈ run step (init .empty) oneByOne, s.frames = .empty ∧
      Storable (base .empty "dev-1").reported (merges "dev-1" s.calls) := by decide +kernel
  obtain ⟨s, hs, hidle, hstore⟩ := hend
  exact ⟨s, hs, hidle, (no_lost_update_iff hs hidle).mpr ⟨by decide +kernel, hstore⟩⟩

end EspClawPlatform.Twin
