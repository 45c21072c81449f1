import Mathlib.Data.List.Induction
import EspClawPlatform.Columns
import EspClawPlatform.Twin.LostUpdates

namespace EspClawPlatform.Twin

open Run

/-- The row as the `jsonb` columns hold it, if they take it. -/
def DeviceShadow.stored (jsonb : Record → Option Record) (row : DeviceShadow) : Option DeviceShadow :=
  (jsonb row.desired).bind fun desired =>
    (jsonb row.reported).map fun reported => { row with desired := desired, reported := reported }

def findOrCreate (jsonb : Record → Option Record) (shadows : Table DeviceShadow) (deviceId : String) :
    Option (Table DeviceShadow × DeviceShadow) :=
  match shadows.find deviceId with
  | some row => some (shadows, row)
  | none => ((emptyShadow deviceId).stored jsonb).map fun row => (shadows.save row, emptyShadow deviceId)

/-- The rows that a call leaves, and its own row unless a save fails. -/
def update (jsonb : Record → Option Record) (shadows : Table DeviceShadow) (call : Call) :
    Table DeviceShadow × Option DeviceShadow :=
  match findOrCreate jsonb shadows call.deviceId with
  | none => (shadows, none)
  | some (shadows, row) =>
      match (call.update row).stored jsonb with
      | none => (shadows, none)
      | some stored => (shadows.save stored, some (call.update row))

def getShadow (shadows : Table DeviceShadow) (deviceId : String) : ShadowView :=
  ((shadows.find deviceId).getD (emptyShadow deviceId)).view

/-- There is no view when the call fails. -/
def setDesired (jsonb : Record → Option Record) (shadows : Table DeviceShadow) (deviceId : String)
    (patch : Record) : Table DeviceShadow × Option ShadowView :=
  let updated := update jsonb shadows (.setDesired deviceId patch)
  (updated.1, updated.2.map DeviceShadow.view)

def mergeReported (jsonb : Record → Option Record) (shadows : Table DeviceShadow) (deviceId : String)
    (samples : List ReportedSample) : Table DeviceShadow :=
  if samples = [] then shadows else (update jsonb shadows (.mergeReported deviceId samples)).1

inductive Request
  | getShadow (deviceId : String)
  | setDesired (deviceId : String) (patch : Record)
  | mergeReported (deviceId : String) (samples : List ReportedSample)
  deriving DecidableEq

def serve (jsonb : Record → Option Record) (shadows : Table DeviceShadow) :
    Request → Table DeviceShadow × Option ShadowView
  | .getShadow deviceId => (shadows, some (getShadow shadows deviceId))
  | .setDesired deviceId patch => setDesired jsonb shadows deviceId patch
  | .mergeReported deviceId samples => (mergeReported jsonb shadows deviceId samples, none)

def after (jsonb : Record → Option Record) (requests : List Request) : Table DeviceShadow :=
  requests.foldl (fun shadows r => (serve jsonb shadows r).1) .empty

def Request.deviceId : Request → String
  | .getShadow deviceId | .setDesired deviceId _ | .mergeReported deviceId _ => deviceId

def Request.call : Request → Option Call
  | .getShadow _ => none
  | .setDesired deviceId patch => some (.setDesired deviceId patch)
  | .mergeReported deviceId samples => some (.mergeReported deviceId samples)

def calls (requests : List Request) : List Call := requests.filterMap Request.call

/-- The value of the last patch that has the key: the left-to-right merge. -/
def lastPatched (d : String) (calls : List Call) (k : String) : Option Json :=
  ((patches d calls).filterMap fun patch => patch.get k).getLast?

def lastReported (d : String) (calls : List Call) (m : String) : Option Json :=
  ((merges d calls).flatten.filterMap fun x => if x.metric = m then some x.value else none).getLast?

/-- The row of the device says what the calls for it have said, the desired
values but for the order of members in them. -/
structure Follows (d : String) (calls : List Call) (row : DeviceShadow) : Prop where
  desired : ∀ k, Json.SameMember (row.desired.get k) (lastPatched d calls k)
  reported : ∀ m, row.reported.get m = lastReported d calls m
  desiredVersion : row.desiredVersion = (patches d calls).length
  reportedVersion : row.reportedVersion = (merges d calls).length

/-- The same view up to the order of members, which `jsonb` does not keep. -/
structure SameView (v w : ShadowView) : Prop where
  deviceId : v.shadow.deviceId = w.shadow.deviceId
  desired : ∀ k, Json.SameMember (v.shadow.desired.get k) (w.shadow.desired.get k)
  reported : ∀ m, v.shadow.reported.get m = w.shadow.reported.get m
  desiredVersion : v.shadow.desiredVersion = w.shadow.desiredVersion
  reportedVersion : v.shadow.reportedVersion = w.shadow.reportedVersion
  drift : v.drift.drift.Perm w.drift.drift
  inSync : v.drift.inSync = w.drift.inSync

structure Refines (jsonb : Record → Option Record) (requests : List Request) (d : String) : Prop where
  follows : Follows d (calls requests) (getShadow (after jsonb requests) d).shadow
  drift : ∀ k, k ∈ (getShadow (after jsonb requests) d).drift.drift ↔
    ∃ v, (getShadow (after jsonb requests) d).shadow.desired.get k = some v ∧
      (getShadow (after jsonb requests) d).shadow.reported.get k ≠ some v
  inSync : (getShadow (after jsonb requests) d).drift.inSync = true ↔
    (getShadow (after jsonb requests) d).drift.drift = []
  others : ∀ r : Request, r.deviceId ≠ d →
    (serve jsonb (after jsonb requests) r).1.find d = (after jsonb requests).find d
  returned : ∀ earlier patch, requests = earlier ++ [.setDesired d patch] →
    ∃ view, (setDesired jsonb (after jsonb earlier) d patch).2 = some view ∧
      SameView view (getShadow (after jsonb requests) d)

/-- The samples are numbers or booleans. -/
def Request.Typed : Request → Prop
  | .mergeReported _ samples => ∀ x ∈ samples, x.value.isScalar = true
  | _ => True

/-- A patch holds no U+0000 and no number out of range, and no metric has a
U+0000 or is the one that an assignment does not store. -/
def Request.Kept : Request → Prop
  | .getShadow _ => True
  | .setDesired _ patch => patch.json.nulFree = true ∧ patch.json.inRange = true
  | .mergeReported _ samples => ∀ x ∈ samples, x.metric ≠ "__proto__" ∧ nulFree x.metric = true

variable {jsonb : Record → Option Record} {shadows : Table DeviceShadow} {d : String} {requests : List Request}

section Served

theorem deviceId_stored {row stored : DeviceShadow} (h : row.stored jsonb = some stored) :
    stored.deviceId = row.deviceId := by
  obtain ⟨desired, -, h⟩ := Option.bind_eq_some_iff.mp h
  obtain ⟨reported, -, rfl⟩ := Option.map_eq_some_iff.mp h
  rfl

theorem deviceId_base (shadows : Table DeviceShadow) (deviceId : String) :
    (base shadows deviceId).deviceId = deviceId := by
  rw [base]
  cases hf : shadows.find deviceId with
  | none => rfl
  | some row => exact Table.key_of_find hf

theorem findOrCreate_cases {created : Table DeviceShadow × DeviceShadow} {deviceId : String}
    (h : findOrCreate jsonb shadows deviceId = some created) :
    created.2 = base shadows deviceId ∧ ∀ d, d ≠ deviceId → created.1.find d = shadows.find d := by
  rw [findOrCreate] at h
  rw [base]
  cases hrow : shadows.find deviceId with
  | some row =>
      rw [hrow] at h
      obtain rfl := Option.some.inj h
      exact ⟨rfl, fun _ _ => rfl⟩
  | none =>
      rw [hrow] at h
      obtain ⟨row, hstored, rfl⟩ := Option.map_eq_some_iff.mp h
      refine ⟨rfl, fun d hd => Table.find_save_of_ne shadows fun he => hd ?_⟩
      exact he.trans (deviceId_stored hstored)

theorem find_update_of_ne {call : Call} (h : d ≠ call.deviceId) :
    (update jsonb shadows call).1.find d = shadows.find d := by
  rw [update]
  cases hfound : findOrCreate jsonb shadows call.deviceId with
  | none => rfl
  | some found =>
      obtain ⟨created, row⟩ := found
      obtain ⟨rfl, hothers⟩ : row = base shadows call.deviceId ∧ ∀ d, d ≠ call.deviceId →
          created.find d = shadows.find d := findOrCreate_cases hfound
      dsimp only
      cases hstored : (call.update (base shadows call.deviceId)).stored jsonb with
      | none => exact hothers d h
      | some stored =>
          refine (Table.find_save_of_ne created fun he => h ?_).trans (hothers d h)
          have hid : stored.deviceId = call.deviceId := by
            rw [deviceId_stored hstored, deviceId_update, deviceId_base]
          exact he.trans hid

theorem update_some (shadows : Table DeviceShadow) (call : Call) :
    update some shadows call =
      (shadows.save (call.update (base shadows call.deviceId)), some (call.update (base shadows call.deviceId))) := by
  have hstored : ∀ row : DeviceShadow, row.stored some = some row := fun _ => rfl
  rw [update, findOrCreate, base]
  cases hrow : shadows.find call.deviceId with
  | some row =>
      dsimp only
      rw [hstored]
      rfl
  | none =>
      rw [hstored, Option.map_some]
      dsimp only
      rw [hstored]
      exact Prod.ext (Table.save_save shadows (deviceId_update call _).symm) rfl

theorem stored_empty (h : Jsonb jsonb) (deviceId : String) :
    (emptyShadow deviceId).stored jsonb = some (emptyShadow deviceId) := by
  rw [DeviceShadow.stored, emptyShadow, h.empty]
  rfl

theorem findOrCreate_some (h : Jsonb jsonb) (shadows : Table DeviceShadow) (deviceId : String) :
    ∃ created, findOrCreate jsonb shadows deviceId = some (created, base shadows deviceId) ∧
      base created deviceId = base shadows deviceId := by
  cases hrow : shadows.find deviceId with
  | some row =>
      have hbase : base shadows deviceId = row := by rw [base, hrow, Option.getD_some]
      exact ⟨shadows, by rw [findOrCreate, hrow, hbase], rfl⟩
  | none =>
      have hbase : base shadows deviceId = emptyShadow deviceId := by rw [base, hrow, Option.getD_none]
      refine ⟨shadows.save (emptyShadow deviceId), ?_, ?_⟩
      · rw [findOrCreate, hrow, stored_empty h, hbase]
        rfl
      · rw [hbase, base]
        exact congrArg (Option.getD · _) (Table.find_save_self shadows (emptyShadow deviceId))

theorem update_stored (h : Jsonb jsonb) {call : Call} {stored : DeviceShadow}
    (hs : (call.update (base shadows call.deviceId)).stored jsonb = some stored) :
    (update jsonb shadows call).2 = some (call.update (base shadows call.deviceId)) ∧
      base (update jsonb shadows call).1 call.deviceId = stored := by
  obtain ⟨created, hfound, -⟩ := findOrCreate_some h shadows call.deviceId
  have hid : stored.deviceId = call.deviceId := by
    rw [deviceId_stored hs, deviceId_update, deviceId_base]
  have hupdate : update jsonb shadows call =
      (created.save stored, some (call.update (base shadows call.deviceId))) := by
    simp only [update, hfound, hs]
  refine ⟨congrArg Prod.snd hupdate, ?_⟩
  rw [hupdate, base, ← hid]
  exact congrArg (Option.getD · _) (Table.find_save_self created stored)

theorem update_refused (h : Jsonb jsonb) {call : Call}
    (hs : (call.update (base shadows call.deviceId)).stored jsonb = none) :
    (update jsonb shadows call).2 = none ∧
      base (update jsonb shadows call).1 call.deviceId = base shadows call.deviceId := by
  obtain ⟨created, hfound, hbase⟩ := findOrCreate_some h shadows call.deviceId
  have hupdate : update jsonb shadows call = (created, none) := by
    simp only [update, hfound, hs]
  exact ⟨congrArg Prod.snd hupdate, hupdate ▸ hbase⟩

theorem serve_call {r : Request} {call : Call} (hc : r.call = some call) (hn : call.isNoop = false) :
    (serve jsonb shadows r).1 = (update jsonb shadows call).1 := by
  cases r with
  | getShadow => cases hc
  | setDesired =>
      obtain rfl := Option.some.inj hc
      rfl
  | mergeReported deviceId samples =>
      obtain rfl := Option.some.inj hc
      cases samples with
      | nil => cases hn
      | cons x xs =>
          rw [serve, mergeReported, if_neg (List.cons_ne_nil x xs)]

theorem serve_noop {r : Request} (h : ∀ call, r.call = some call → call.isNoop = true) :
    (serve jsonb shadows r).1 = shadows := by
  cases r with
  | getShadow => rfl
  | setDesired => cases h _ rfl
  | mergeReported deviceId samples =>
      cases samples with
      | nil => rfl
      | cons => cases h _ rfl

theorem deviceId_of_call {r : Request} {call : Call} (hc : r.call = some call) :
    call.deviceId = r.deviceId := by
  cases r with
  | getShadow => cases hc
  | setDesired => cases hc; rfl
  | mergeReported => cases hc; rfl

theorem serve_cases (jsonb : Record → Option Record) (shadows : Table DeviceShadow) (r : Request) :
    (∃ call, r.call = some call ∧ call.isNoop = false ∧
        (serve jsonb shadows r).1 = (update jsonb shadows call).1) ∨
      (∀ call, r.call = some call → call.isNoop = true) ∧ (serve jsonb shadows r).1 = shadows := by
  by_cases h : ∀ call, r.call = some call → call.isNoop = true
  · exact .inr ⟨h, serve_noop h⟩
  · push Not at h
    obtain ⟨call, hc, hn⟩ := h
    have hn : call.isNoop = false := by simpa using hn
    exact .inl ⟨call, hc, hn, serve_call hc hn⟩

theorem find_serve_of_ne {r : Request} (h : r.deviceId ≠ d) :
    (serve jsonb shadows r).1.find d = shadows.find d := by
  rcases serve_cases jsonb shadows r with ⟨call, hc, -, hserve⟩ | ⟨-, hserve⟩
  · rw [hserve]
    exact find_update_of_ne fun he => h (he.trans (deviceId_of_call hc)).symm
  · rw [hserve]

theorem after_snoc (jsonb : Record → Option Record) (requests : List Request) (r : Request) :
    after jsonb (requests ++ [r]) = (serve jsonb (after jsonb requests) r).1 := by
  rw [after, List.foldl_append]
  rfl

end Served

section Alone

variable {s : State} {call : Call} {f g : Frame}

def alone (s : State) (call : Call) (f : Frame) : State :=
  { s with calls := s.calls ++ [call], frames := Table.empty.set s.calls.length f }

theorem goto_alone (s : State) (call : Call) (f g : Frame) :
    (alone s call f).goto s.calls.length g = alone s call g := by
  have hset : ((Table.empty.set s.calls.length f).set s.calls.length g : Table (Nat × Frame)) =
      Table.empty.set s.calls.length g := Table.save_save _ rfl
  rw [State.goto, alone, hset]
  rfl

theorem begins_alone (hidle : s.frames = .empty) (hn : call.isNoop = false) :
    step s (.begins call) = some (alone s call (.finding call)) := by
  rw [step, State.begins, hn, if_neg Bool.false_ne_true, State.goto, alone, hidle]

theorem commit_alone (s : State) (call : Call) (f : Frame) :
    step (alone s call f) (.commit s.calls.length) = (alone s call f).commit s.calls.length f := by
  rw [step, alone, Table.get_set_self, Option.bind_some]

theorem resume_alone (s : State) (call : Call) (f : Frame) :
    step (alone s call f) (.resume s.calls.length) = (alone s call f).resume s.calls.length f := by
  rw [step, alone, Table.get_set_self, Option.bind_some]

def returned (s : State) (call : Call) (row : DeviceShadow) : State :=
  (alone { s with shadows := s.shadows.save (call.update row), saved := s.saved ++ [call] } call
    (.saved call (call.update row))).finish s.calls.length call (call.update row)

theorem saving_alone (s : State) (call : Call) (row : DeviceShadow) :
    run step (alone s call (.saving call row)) [.commit s.calls.length, .resume s.calls.length] =
      some (returned s call row) := by
  have hsave := commit_alone s call (.saving call row)
  have hgoto := goto_alone { s with shadows := s.shadows.save (call.update row), saved := s.saved ++ [call] } call
    (.saving call row) (.saved call (call.update row))
  refine run_cons.mpr ⟨_, hsave.trans (congrArg some hgoto), run_singleton.mpr ?_⟩
  exact resume_alone { s with shadows := s.shadows.save (call.update row), saved := s.saved ++ [call] } call
    (.saved call (call.update row))

structure Alone (s : State) (call : Call) (updated : Table DeviceShadow × Option DeviceShadow) (t : State) : Prop where
  idle : t.frames = .empty
  calls : t.calls = s.calls ++ [call]
  shadows : t.shadows = updated.1
  view : ∀ deviceId patch, call = .setDesired deviceId patch →
    t.views.get s.calls.length = updated.2.map DeviceShadow.view

theorem alone_returned (s : State) (call : Call) (row : DeviceShadow) :
    Alone s call (s.shadows.save (call.update row), some (call.update row)) (returned s call row) where
  idle := by
    rw [returned, (frames_finish _ _ _).1]
    apply Table.ext
    simp [alone, Table.erase, Table.filter, Table.set, Table.save, Table.put, Table.empty, Keyed.key]
  calls := (frames_finish _ _ _).2.2.2
  shadows := (frames_finish _ _ _).2.1
  view := by
    rintro deviceId patch rfl
    exact Table.get_set_self ..

theorem run_alone (hidle : s.frames = .empty) (hn : call.isNoop = false) :
    ∃ as t, run step s as = some t ∧ Alone s call (update some s.shadows call) t := by
  have hbegins := begins_alone hidle hn
  have hfind : step (alone s call (.finding call)) (.commit s.calls.length) =
      some (alone s call (.found call (s.shadows.find call.deviceId))) :=
    (commit_alone ..).trans (congrArg some (goto_alone ..))
  cases hrow : s.shadows.find call.deviceId with
  | some row =>
      rw [hrow] at hfind
      have hload : step (alone s call (.found call (some row))) (.resume s.calls.length) =
          some (alone s call (.saving call row)) := (resume_alone ..).trans (congrArg some (goto_alone ..))
      have hupdate : update some s.shadows call = (s.shadows.save (call.update row), some (call.update row)) := by
        rw [update_some, base, hrow, Option.getD_some]
      exact ⟨_, _, run_cons.mpr ⟨_, hbegins, run_cons.mpr ⟨_, hfind, run_cons.mpr ⟨_, hload,
        saving_alone s call row⟩⟩⟩, hupdate ▸ alone_returned s call row⟩
  | none =>
      let row := emptyShadow call.deviceId
      let u : State := { s with shadows := s.shadows.save row }
      rw [hrow] at hfind
      have hmissing : step (alone s call (.found call none)) (.resume s.calls.length) =
          some (alone s call (.creating call)) := (resume_alone ..).trans (congrArg some (goto_alone ..))
      have hcreate : step (alone s call (.creating call)) (.commit s.calls.length) =
          some (alone u call (.created call row)) :=
        (commit_alone ..).trans (congrArg some (goto_alone u call (.creating call) (.created call row)))
      have hload : step (alone u call (.created call row)) (.resume s.calls.length) =
          some (alone u call (.saving call row)) :=
        (resume_alone u ..).trans (congrArg some (goto_alone u ..))
      have hupdate : update some s.shadows call = (u.shadows.save (call.update row), some (call.update row)) := by
        rw [update_some, base, hrow, Option.getD_none]
        exact Prod.ext (Table.save_save s.shadows (deviceId_update call row).symm).symm rfl
      have hreturned := alone_returned u call row
      exact ⟨_, _, run_cons.mpr ⟨_, hbegins, run_cons.mpr ⟨_, hfind, run_cons.mpr ⟨_, hmissing, run_cons.mpr ⟨_,
        hcreate, run_cons.mpr ⟨_, hload, saving_alone u call row⟩⟩⟩⟩⟩,
        hupdate ▸ ⟨hreturned.idle, hreturned.calls, hreturned.shadows, hreturned.view⟩⟩

end Alone

section Spec

theorem calls_snoc (requests : List Request) (r : Request) :
    calls (requests ++ [r]) = calls requests ++ r.call.toList := by
  rw [calls, List.filterMap_append]
  cases hc : r.call with
  | none => rw [List.filterMap_cons_none hc]; rfl
  | some call => rw [List.filterMap_cons_some hc]; rfl

/-- Requests one at a time are a run of the twin in which no call waits for
another, when the columns give back what they are given. -/
theorem run_requests (requests : List Request) : ∃ as t, run step (init .empty) as = some t ∧
    t.frames = .empty ∧ t.calls = calls requests ∧ t.shadows = after some requests := by
  induction requests using List.reverseRecOn with
  | nil => exact ⟨[], init .empty, rfl, rfl, rfl, rfl⟩
  | append_singleton requests r ih =>
      obtain ⟨as, s, hrun, hidle, hcalls, hshadows⟩ := ih
      rw [calls_snoc, after_snoc]
      rcases serve_cases some (after some requests) r with ⟨call, hc, hn, hserve⟩ | ⟨hnoop, hserve⟩
      · obtain ⟨bs, t, hone, ht⟩ := run_alone hidle hn
        refine ⟨as ++ bs, t, run_append.mpr ⟨s, hrun, hone⟩, ht.idle, ?_, ?_⟩
        · rw [ht.calls, hcalls, hc]
          rfl
        · rw [ht.shadows, hshadows, hserve]
      · rw [hserve]
        cases hc : r.call with
        | none => exact ⟨as, s, hrun, hidle, hcalls.trans (List.append_nil _).symm, hshadows⟩
        | some call =>
            have hbegins : step s (.begins call) = some { s with calls := s.calls ++ [call] } := by
              rw [step, State.begins, if_pos (hnoop call hc)]
            refine ⟨as ++ [.begins call], { s with calls := s.calls ++ [call] }, ?_, hidle, ?_, hshadows⟩
            · exact run_append.mpr ⟨s, hrun, run_singleton.mpr hbegins⟩
            · exact congrArg (· ++ [call]) hcalls

theorem patches_append (d : String) (cs cs' : List Call) :
    patches d (cs ++ cs') = patches d cs ++ patches d cs' := List.filterMap_append

theorem merges_append (d : String) (cs cs' : List Call) :
    merges d (cs ++ cs') = merges d cs ++ merges d cs' := List.filterMap_append

theorem lastPatched_append (d : String) (cs cs' : List Call) (k : String) :
    lastPatched d (cs ++ cs') k = (lastPatched d cs' k).or (lastPatched d cs k) := by
  rw [lastPatched, patches_append, List.filterMap_append, List.getLast?_append]
  rfl

theorem lastReported_append (d : String) (cs cs' : List Call) (m : String) :
    lastReported d (cs ++ cs') m = (lastReported d cs' m).or (lastReported d cs m) := by
  rw [lastReported, merges_append, List.flatten_append, List.filterMap_append, List.getLast?_append]
  rfl

theorem lastPatched_setDesired (d : String) (patch : Record) (k : String) :
    lastPatched d [.setDesired d patch] k = patch.get k := by
  rw [lastPatched, patches_setDesired, List.filterMap_cons]
  cases patch.get k <;> rfl

theorem silent_of_noop {call : Call} (h : call.isNoop = true ∨ call.deviceId ≠ d) :
    patches d [call] = [] ∧ merges d [call] = [] := by
  cases call with
  | setDesired deviceId patch =>
      have hne : deviceId ≠ d := h.resolve_left fun hn => (by cases hn)
      exact ⟨List.filterMap_cons_none (if_neg hne), rfl⟩
  | mergeReported deviceId samples =>
      refine ⟨rfl, List.filterMap_cons_none (if_neg ?_)⟩
      rintro ⟨hd, hsome⟩
      cases samples with
      | nil => exact hsome rfl
      | cons => exact h.elim (fun hn => (by cases hn)) fun hne => hne hd

theorem Follows.append {cs cs' : List Call} {row : DeviceShadow} (h : Follows d cs row)
    (hp : patches d cs' = []) (hm : merges d cs' = []) : Follows d (cs ++ cs') row where
  desired k := by
    have hnone : lastPatched d cs' k = none := by
      rw [lastPatched, hp]
      rfl
    rw [lastPatched_append, hnone, Option.none_or]
    exact h.desired k
  reported m := by
    have hnone : lastReported d cs' m = none := by
      rw [lastReported, hm]
      rfl
    rw [lastReported_append, hnone, Option.none_or, h.reported]
  desiredVersion := by rw [patches_append, hp, List.append_nil, h.desiredVersion]
  reportedVersion := by rw [merges_append, hm, List.append_nil, h.reportedVersion]

end Spec

section Updated

theorem get_spread (desired patch : Record) (k : String) :
    (spread desired patch).get k = (patch.get k).or (desired.get k) :=
  Table.get_foldl_set patch.nodup desired k

/-- Without `__proto__` the last sample of a metric is the one that is stored. -/
theorem get_foldl_assign_last {samples : List ReportedSample} (h : ∀ x ∈ samples, x.metric ≠ "__proto__")
    (r : Record) (m : String) :
    (samples.foldl assign r).get m =
      ((samples.filterMap fun x => if x.metric = m then some x.value else none).getLast?).or (r.get m) := by
  apply Table.get_foldl_last fun r : Record => r.get m
  intro x hx r
  rw [get_assign]
  by_cases hm : m = x.metric
  · have hproto : ¬ (m = "__proto__" ∧ r.get "__proto__" = none) := fun hp => h x hx (hm ▸ hp.1)
    rw [if_pos ⟨hm, hproto⟩, if_pos hm.symm]
    rfl
  · rw [if_neg fun hc => hm hc.1, if_neg (Ne.symm hm)]
    rfl

theorem Follows.update {cs : List Call} {row : DeviceShadow} {r : Request} {call : Call} (h : Follows d cs row)
    (hr : r.Kept) (hc : r.call = some call) (hn : call.isNoop = false) (hd : call.deviceId = d) :
    Follows d (cs ++ [call]) (call.update row) := by
  cases r with
  | getShadow => cases hc
  | setDesired deviceId patch =>
      obtain rfl := Option.some.inj hc
      obtain rfl : deviceId = d := hd
      refine ⟨fun k => ?_, fun m => ?_, ?_, ?_⟩
      · rw [lastPatched_append, lastPatched_setDesired]
        have hspread : (spread row.desired patch).get k = (patch.get k).or (row.desired.get k) :=
          get_spread row.desired patch k
        refine hspread ▸ ?_
        cases patch.get k with
        | none => exact h.desired k
        | some v => exact .refl (some v)
      · rw [lastReported_append]
        exact h.reported m
      · rw [patches_append, patches_setDesired, List.length_append, ← h.desiredVersion]
        rfl
      · rw [merges_append, List.length_append, ← h.reportedVersion]
        rfl
  | mergeReported deviceId samples =>
      obtain rfl := Option.some.inj hc
      obtain rfl : deviceId = d := hd
      cases samples with
      | nil => cases hn
      | cons x xs =>
          refine ⟨fun k => ?_, fun m => ?_, ?_, ?_⟩
          · rw [lastPatched_append]
            exact h.desired k
          · have hlast : lastReported deviceId [.mergeReported deviceId (x :: xs)] m =
                ((x :: xs).filterMap fun x => if x.metric = m then some x.value else none).getLast? := by
              rw [lastReported, merges_mergeReported, List.flatten_cons]
              exact congrArg (fun l => (List.filterMap _ l).getLast?) (List.append_nil _)
            rw [lastReported_append, hlast, ← h.reported]
            exact get_foldl_assign_last (fun x hx => (hr x hx).1) row.reported m
          · rw [patches_append, List.length_append, ← h.desiredVersion]
            rfl
          · rw [merges_append, merges_mergeReported, List.length_append, ← h.reportedVersion]
            rfl

theorem patch_of_mem {patch : Record} (h : patch ∈ patches d (calls requests)) :
    .setDesired d patch ∈ requests := by
  obtain ⟨call, hcall, hp⟩ := List.mem_filterMap.mp h
  obtain ⟨r, hr, hc⟩ := List.mem_filterMap.mp hcall
  cases r with
  | getShadow => cases hc
  | mergeReported =>
      obtain rfl := Option.some.inj hc
      cases hp
  | setDesired deviceId patch' =>
      obtain rfl := Option.some.inj hc
      obtain ⟨rfl, rfl⟩ : deviceId = d ∧ patch' = patch := by simpa [Call.patch] using hp
      exact hr

theorem samples_of_mem {samples : List ReportedSample} (h : samples ∈ merges d (calls requests)) :
    .mergeReported d samples ∈ requests := by
  obtain ⟨call, hcall, hs⟩ := List.mem_filterMap.mp h
  obtain ⟨r, hr, hc⟩ := List.mem_filterMap.mp hcall
  cases r with
  | getShadow => cases hc
  | setDesired =>
      obtain rfl := Option.some.inj hc
      cases hs
  | mergeReported deviceId samples' =>
      obtain rfl := Option.some.inj hc
      obtain ⟨⟨rfl, -⟩, rfl⟩ : (deviceId = d ∧ samples' ≠ []) ∧ samples' = samples := by
        simpa [Call.samples] using hs
      exact hr

theorem lastPatched_kept (hk : ∀ r ∈ requests, r.Kept) {k : String} {v : Json}
    (h : lastPatched d (calls requests) k = some v) :
    nulFree k = true ∧ v.nulFree = true ∧ v.inRange = true := by
  obtain ⟨patch, hpatch, hget⟩ := List.mem_filterMap.mp (List.mem_of_getLast? h)
  obtain ⟨hnul, hrange⟩ : patch.json.nulFree = true ∧ patch.json.inRange = true := hk _ (patch_of_mem hpatch)
  obtain ⟨hkey, hvalue⟩ := Record.every_json.mp hnul k v hget
  exact ⟨hkey, hvalue, (Record.every_json.mp hrange k v hget).2⟩

theorem sample_of_lastReported {m : String} {v : Json} (h : lastReported d (calls requests) m = some v) :
    ∃ samples, .mergeReported d samples ∈ requests ∧ ∃ x ∈ samples, x.metric = m ∧ x.value = v := by
  obtain ⟨x, hx, hv⟩ := List.mem_filterMap.mp (List.mem_of_getLast? h)
  obtain ⟨samples, hsamples, hx⟩ := List.mem_flatten.mp hx
  split at hv
  · rename_i hm
    exact ⟨samples, samples_of_mem hsamples, x, hx, hm, Option.some.inj hv⟩
  · cases hv

theorem lastReported_scalar (ht : ∀ r ∈ requests, r.Typed) {m : String} {v : Json}
    (h : lastReported d (calls requests) m = some v) : v.isScalar = true := by
  obtain ⟨samples, hr, x, hx, -, rfl⟩ := sample_of_lastReported h
  exact ht _ hr x hx

theorem stored_iff (hjsonb : Jsonb jsonb) (row : DeviceShadow) :
    (∃ stored, row.stored jsonb = some stored) ↔
      row.desired.json.nulFree = true ∧ row.reported.json.nulFree = true := by
  constructor
  · rintro ⟨stored, h⟩
    obtain ⟨desired, hdesired, h⟩ := Option.bind_eq_some_iff.mp h
    obtain ⟨reported, hreported, -⟩ := Option.map_eq_some_iff.mp h
    exact ⟨hjsonb.nulFree_of_some hdesired, hjsonb.nulFree_of_some hreported⟩
  · rintro ⟨hdesired, hreported⟩
    obtain ⟨desired, hdesired⟩ := hjsonb.some_of_nulFree hdesired
    obtain ⟨reported, hreported⟩ := hjsonb.some_of_nulFree hreported
    exact ⟨_, by rw [DeviceShadow.stored, hdesired, hreported]; rfl⟩

structure Holds (row stored : DeviceShadow) : Prop where
  desired : ∀ k, Json.SameMember (stored.desired.get k) ((row.desired.get k).map Json.readBack)
  reported : ∀ m, Json.SameMember (stored.reported.get m) ((row.reported.get m).map Json.readBack)
  desiredVersion : stored.desiredVersion = row.desiredVersion
  reportedVersion : stored.reportedVersion = row.reportedVersion

theorem holds_of_stored (hjsonb : Jsonb jsonb) {row stored : DeviceShadow} (h : row.stored jsonb = some stored) :
    Holds row stored := by
  obtain ⟨desired, hdesired, h⟩ := Option.bind_eq_some_iff.mp h
  obtain ⟨reported, hreported, rfl⟩ := Option.map_eq_some_iff.mp h
  exact ⟨hjsonb.keeps _ _ hdesired, hjsonb.keeps _ _ hreported, rfl, rfl⟩

section Columns

variable (hjsonb : Jsonb jsonb)

include hjsonb

theorem Follows.stored {row : DeviceShadow} (h : Follows d (calls requests) row)
    (hk : ∀ r ∈ requests, r.Kept) (ht : ∀ r ∈ requests, r.Typed) :
    ∃ stored, row.stored jsonb = some stored ∧ Follows d (calls requests) stored := by
  have hdesired : ∀ k v, row.desired.get k = some v →
      nulFree k = true ∧ v.nulFree = true ∧ v.inRange = true := by
    intro k v hv
    obtain ⟨w, hw, hsame⟩ := (h.desired k).some_iff hv
    obtain ⟨hkey, hnul, hrange⟩ := lastPatched_kept hk hw
    exact ⟨hkey, hsame.every_eq.trans hnul, hsame.every_eq.trans hrange⟩
  have hreported : ∀ m v, row.reported.get m = some v → nulFree m = true ∧ v.isScalar = true := by
    intro m v hv
    have hlast := (h.reported m).symm.trans hv
    obtain ⟨samples, hr, x, hx, rfl, -⟩ := sample_of_lastReported hlast
    exact ⟨(hk _ hr x hx).2, lastReported_scalar ht hlast⟩
  obtain ⟨stored, hstored⟩ := (stored_iff hjsonb row).mpr
    ⟨Record.every_json.mpr fun k v hv => ⟨(hdesired k v hv).1, (hdesired k v hv).2.1⟩,
      Record.every_json.mpr fun m v hv => ⟨(hreported m v hv).1, Json.nulFree_scalar (hreported m v hv).2⟩⟩
  have hholds := holds_of_stored hjsonb hstored
  refine ⟨stored, hstored, fun k => ?_, fun m => ?_, ?_, ?_⟩
  · have hread : (row.desired.get k).map Json.readBack = row.desired.get k := by
      cases hv : row.desired.get k with
      | none => rfl
      | some v => exact congrArg some (v.readBack_inRange (hdesired k v hv).2.2)
    exact (hread ▸ hholds.desired k).trans (h.desired k)
  · have hread := hholds.reported m
    rw [← h.reported]
    cases hv : row.reported.get m with
    | none =>
        rw [hv] at hread
        exact hread.eq_none
    | some v =>
        have hscalar := (hreported m v hv).2
        rw [hv, Option.map_some, Json.readBack_scalar hscalar] at hread
        exact hread.eq_of_scalar hscalar
  · exact hholds.desiredVersion.trans h.desiredVersion
  · exact hholds.reportedVersion.trans h.reportedVersion

theorem follows_after (hk : ∀ r ∈ requests, r.Kept) (ht : ∀ r ∈ requests, r.Typed) :
    Follows d (calls requests) (base (after jsonb requests) d) := by
  induction requests using List.reverseRecOn with
  | nil => exact ⟨fun _ => .none, fun _ => rfl, rfl, rfl⟩
  | append_singleton requests r ih =>
      have hbefore := ih (fun r hr => hk r (List.mem_append_left _ hr))
        fun r hr => ht r (List.mem_append_left _ hr)
      have hr : r.Kept := hk r (List.mem_append_right _ (List.mem_singleton_self r))
      rw [after_snoc]
      rcases serve_cases jsonb (after jsonb requests) r with ⟨call, hc, hn, hserve⟩ | ⟨hnoop, hserve⟩
      · have hcalls : calls (requests ++ [r]) = calls requests ++ [call] := by rw [calls_snoc, hc]; rfl
        rw [hserve]
        by_cases hd : call.deviceId = d
        · have hupdate := hbefore.update hr hc hn hd
          subst hd
          rw [← hcalls] at hupdate
          obtain ⟨stored, hstored, hfollows⟩ := hupdate.stored hjsonb hk ht
          rw [(update_stored hjsonb hstored).2]
          exact hfollows
        · obtain ⟨hp, hm⟩ := silent_of_noop (.inr hd)
          have hsame : base (update jsonb (after jsonb requests) call).1 d = base (after jsonb requests) d := by
            rw [base, find_update_of_ne (Ne.symm hd)]
            rfl
          rw [hsame, hcalls]
          exact hbefore.append hp hm
      · rw [hserve, calls_snoc]
        cases hc : r.call with
        | none => exact (List.append_nil (calls requests)).symm ▸ hbefore
        | some call =>
            obtain ⟨hp, hm⟩ := silent_of_noop (.inl (hnoop call hc))
            exact hbefore.append hp hm

end Columns

end Updated

section Views

theorem strictEqual_iff {v : Json} {reported : Option Json}
    (h : ∀ w, reported = some w → w.isScalar = true) : strictEqual v reported = true ↔ reported = some v := by
  cases reported with
  | none => cases v <;> simp [strictEqual]
  | some w =>
      have hw := h w rfl
      cases w with
      | bool b => cases v <;> simp [strictEqual, eq_comm]
      | num n =>
          cases n with
          | finite q =>
              cases v with
              | num a =>
                  constructor
                  · intro he
                    have hand : a = .finite q ∧ a ≠ .nan := by simpa [strictEqual] using he
                    rw [hand.1]
                  · intro he
                    cases he
                    simp [strictEqual]
              | _ => simp [strictEqual]
          | infinity => cases hw
          | nan => cases hw
      | null => cases hw
      | str => cases hw
      | arr => cases hw
      | obj => cases hw

theorem mem_drift {row : DeviceShadow} (h : ∀ m w, row.reported.get m = some w → w.isScalar = true)
    (k : String) : k ∈ row.view.drift.drift ↔ ∃ v, row.desired.get k = some v ∧ row.reported.get k ≠ some v := by
  have hmem : k ∈ row.view.drift.drift ↔
      ∃ v, (k, v) ∈ row.desired.rows ∧ strictEqual v (row.reported.get k) = false := by
    simp [DeviceShadow.view, computeDrift]
  rw [hmem]
  refine exists_congr fun v => ?_
  rw [Table.get_eq_some, ← Bool.not_eq_true, strictEqual_iff (h k)]

theorem nodup_drift (row : DeviceShadow) : row.view.drift.drift.Nodup :=
  row.desired.nodup.sublist (List.filter_sublist.map Prod.fst)

theorem inSync_iff (row : DeviceShadow) : row.view.drift.inSync = true ↔ row.view.drift.drift = [] := by
  rw [← List.length_eq_zero_iff]
  exact decide_eq_true_iff

theorem differs_of_same {x y reported : Option Json} (h : Json.SameMember x y)
    (hr : ∀ w, reported = some w → w.isScalar = true) (hx : ∃ v, x = some v ∧ reported ≠ some v) :
    ∃ v, y = some v ∧ reported ≠ some v := by
  obtain ⟨v, hv, hne⟩ := hx
  obtain ⟨w, hw, hsame⟩ := h.some_iff hv
  refine ⟨w, hw, fun he => hne ?_⟩
  exact he.trans (congrArg some (hsame.eq_of_scalar (hr w he)).symm)

theorem sameView {row stored : DeviceShadow} {cs : List Call} (hid : row.deviceId = stored.deviceId)
    (h : Follows d cs row) (hs : Follows d cs stored)
    (hscalar : ∀ m w, row.reported.get m = some w → w.isScalar = true) : SameView row.view stored.view := by
  have hdesired : ∀ k, Json.SameMember (row.desired.get k) (stored.desired.get k) := fun k =>
    (h.desired k).trans (hs.desired k).symm
  have hreported : ∀ m, row.reported.get m = stored.reported.get m := fun m =>
    (h.reported m).trans (hs.reported m).symm
  have hdrift : row.view.drift.drift.Perm stored.view.drift.drift := by
    rw [List.perm_ext_iff_of_nodup (nodup_drift row) (nodup_drift stored)]
    intro k
    rw [mem_drift hscalar, mem_drift fun m w hw => hscalar m w ((hreported m).trans hw), ← hreported]
    exact ⟨differs_of_same (hdesired k) (hscalar k), differs_of_same (hdesired k).symm (hscalar k)⟩
  refine ⟨hid, hdesired, hreported, ?_, ?_, hdrift, ?_⟩
  · exact h.desiredVersion.trans hs.desiredVersion.symm
  · exact h.reportedVersion.trans hs.reportedVersion.symm
  · rw [Bool.eq_iff_iff, inSync_iff, inSync_iff, ← List.length_eq_zero_iff, ← List.length_eq_zero_iff,
      hdrift.length_eq]

end Views

section Refinement

variable (hjsonb : Jsonb jsonb)

include hjsonb

theorem refines_of_kept (hk : ∀ r ∈ requests, r.Kept) (ht : ∀ r ∈ requests, r.Typed) :
    Refines jsonb requests d := by
  have hfollows := follows_after (d := d) hjsonb hk ht
  have hscalar : ∀ m w, (base (after jsonb requests) d).reported.get m = some w → w.isScalar = true :=
    fun m w hw => lastReported_scalar ht ((hfollows.reported m).symm.trans hw)
  refine ⟨hfollows, mem_drift hscalar, inSync_iff _, fun r hr => find_serve_of_ne hr, ?_⟩
  rintro earlier patch rfl
  have hbefore := follows_after (d := d) hjsonb (fun r hr => hk r (List.mem_append_left _ hr))
    fun r hr => ht r (List.mem_append_left _ hr)
  have hlast : Request.Kept (.setDesired d patch) := hk _ (List.mem_append_right _ (List.mem_singleton_self _))
  have hrow := hbefore.update hlast rfl rfl rfl
  have hcalls : calls (earlier ++ [.setDesired d patch]) = calls earlier ++ [.setDesired d patch] := calls_snoc ..
  rw [← hcalls] at hrow
  obtain ⟨stored, hstored, -⟩ : ∃ stored,
      ((Call.setDesired d patch).update (base (after jsonb earlier) (Call.setDesired d patch).deviceId)).stored
        jsonb = some stored ∧ _ := hrow.stored hjsonb hk ht
  obtain ⟨hreturned, hbase⟩ := update_stored hjsonb hstored
  have hread : base (after jsonb (earlier ++ [.setDesired d patch])) d = stored := by
    rw [after_snoc]
    exact hbase
  refine ⟨_, congrArg (Option.map DeviceShadow.view) hreturned, sameView ?_ hrow hfollows ?_⟩
  · exact (deviceId_stored hstored).symm.trans (congrArg DeviceShadow.deviceId hread).symm
  · intro m w hw
    apply lastReported_scalar (d := d) (m := m) fun r hr => ht r (List.mem_append_left _ hr)
    rw [← hbefore.reported]
    exact hw

theorem reported_proto (requests : List Request) (d : String) :
    (base (after jsonb requests) d).reported.get "__proto__" = none := by
  induction requests using List.reverseRecOn with
  | nil => rfl
  | append_singleton requests r ih =>
      rw [after_snoc]
      rcases serve_cases jsonb (after jsonb requests) r with ⟨call, -, -, hserve⟩ | ⟨-, hserve⟩
      · rw [hserve]
        by_cases hd : d = call.deviceId
        · subst hd
          have hupdate : (call.update (base (after jsonb requests) call.deviceId)).reported.get "__proto__" = none := by
            cases call with
            | setDesired => exact ih
            | mergeReported => exact get_proto_foldl _ ih
          cases hstored : (call.update (base (after jsonb requests) call.deviceId)).stored jsonb with
          | none =>
              rw [(update_refused hjsonb hstored).2]
              exact ih
          | some stored =>
              rw [(update_stored hjsonb hstored).2]
              have hread := (holds_of_stored hjsonb hstored).reported "__proto__"
              rw [hupdate] at hread
              exact hread.eq_none
        · rw [base, find_update_of_ne hd]
          exact ih
      · rw [hserve]
        exact ih

theorem patch_kept {deviceId : String} {patch : Record}
    (h : Refines jsonb (requests ++ [.setDesired deviceId patch]) deviceId) :
    Request.Kept (.setDesired deviceId patch) := by
  let call : Call := .setDesired deviceId patch
  have hspread : ∀ k v, patch.get k = some v →
      (call.update (base (after jsonb requests) call.deviceId)).desired.get k = some v := by
    intro k v hv
    have hget := get_spread (base (after jsonb requests) deviceId).desired patch k
    rw [hv] at hget
    exact hget
  obtain ⟨view, hview, -⟩ := h.returned requests patch rfl
  cases hstored : (call.update (base (after jsonb requests) call.deviceId)).stored jsonb with
  | none =>
      have hrefused := congrArg (Option.map DeviceShadow.view) (update_refused hjsonb hstored).1
      cases hrefused.symm.trans hview
  | some stored =>
      have hnul := ((stored_iff hjsonb _).mp ⟨stored, hstored⟩).1
      refine ⟨Record.every_json.mpr fun k v hv => Record.every_json.mp hnul k v (hspread k v hv),
        Record.every_json.mpr fun k v hv => ⟨rfl, ?_⟩⟩
      have hread : base (after jsonb (requests ++ [.setDesired deviceId patch])) deviceId = stored := by
        rw [after_snoc]
        exact (update_stored hjsonb hstored).2
      have hdesired : Json.SameMember (stored.desired.get k)
          (lastPatched deviceId (calls (requests ++ [.setDesired deviceId patch])) k) :=
        hread ▸ h.follows.desired k
      have hlast : lastPatched deviceId (calls (requests ++ [.setDesired deviceId patch])) k = some v := by
        have hcalls : calls (requests ++ [.setDesired deviceId patch]) =
            calls requests ++ [.setDesired deviceId patch] := calls_snoc ..
        rw [hcalls, lastPatched_append, lastPatched_setDesired, hv, Option.some_or]
      have hholds := (holds_of_stored hjsonb hstored).desired k
      rw [hspread k v hv, Option.map_some] at hholds
      rw [hlast] at hdesired
      obtain ⟨w, hw, hsame⟩ := (hholds.symm.trans hdesired).some_iff rfl
      obtain rfl := Option.some.inj hw
      exact hsame.every_eq.symm.trans v.inRange_readBack

theorem samples_kept {deviceId : String} {samples : List ReportedSample}
    (hbefore : Refines jsonb requests deviceId)
    (h : Refines jsonb (requests ++ [.mergeReported deviceId samples]) deviceId) :
    Request.Kept (.mergeReported deviceId samples) := by
  let call : Call := .mergeReported deviceId samples
  have hcalls : calls (requests ++ [.mergeReported deviceId samples]) =
      calls requests ++ [.mergeReported deviceId samples] := calls_snoc ..
  intro x hx
  obtain ⟨y, ys, rfl⟩ := List.exists_cons_of_ne_nil (List.ne_nil_of_mem hx)
  have hproto : ∀ x ∈ y :: ys, x.metric ≠ "__proto__" := by
    intro x hx hmetric
    have hnone : lastReported deviceId (calls (requests ++ [.mergeReported deviceId (y :: ys)])) "__proto__" = none :=
      (h.follows.reported "__proto__").symm.trans (reported_proto hjsonb _ deviceId)
    rw [hcalls, lastReported_append, Option.or_eq_none_iff, lastReported, List.getLast?_eq_none_iff] at hnone
    have hmem : x.value ∈ ((merges deviceId [.mergeReported deviceId (y :: ys)]).flatten.filterMap fun x =>
        if x.metric = "__proto__" then some x.value else none) := by
      rw [List.mem_filterMap, merges_mergeReported, List.flatten_cons]
      exact ⟨x, List.mem_append_left _ hx, if_pos hmetric⟩
    exact List.not_mem_nil (hnone.1 ▸ hmem)
  cases hstored : (call.update (base (after jsonb requests) call.deviceId)).stored jsonb with
  | none =>
      have hread : base (after jsonb (requests ++ [.mergeReported deviceId (y :: ys)])) deviceId =
          base (after jsonb requests) deviceId := by
        rw [after_snoc]
        exact (update_refused hjsonb hstored).2
      have hversion := h.follows.reportedVersion.symm.trans
        ((congrArg DeviceShadow.reportedVersion hread).trans hbefore.follows.reportedVersion)
      rw [hcalls, merges_append, merges_mergeReported, List.length_append] at hversion
      exact absurd hversion (Nat.succ_ne_self _)
  | some stored =>
      have hnul := ((stored_iff hjsonb _).mp ⟨stored, hstored⟩).2
      have hget := get_foldl_assign_last hproto (base (after jsonb requests) deviceId).reported x.metric
      have hmem : x.value ∈ (y :: ys).filterMap fun x' => if x'.metric = x.metric then some x'.value else none :=
        List.mem_filterMap.mpr ⟨x, hx, if_pos rfl⟩
      obtain ⟨v, hv⟩ := Option.isSome_iff_exists.mp (List.getLast?_isSome.mpr (List.ne_nil_of_mem hmem))
      rw [hv, Option.some_or] at hget
      exact ⟨hproto x hx, (Record.every_json.mp hnul x.metric v hget).1⟩

theorem kept_of_refines {r : Request} (hbefore : ∀ d, Refines jsonb requests d)
    (h : ∀ d, Refines jsonb (requests ++ [r]) d) : r.Kept := by
  cases r with
  | getShadow => trivial
  | setDesired deviceId patch => exact patch_kept hjsonb (h deviceId)
  | mergeReported deviceId samples => exact samples_kept hjsonb (hbefore deviceId) (h deviceId)

end Refinement

/-- After every prefix of the requests every shadow is what the calls have made
it, exactly when `reported` can store every metric and `jsonb` every patch. -/
theorem shadow_refines_history_iff (hjsonb : Jsonb jsonb) (ht : ∀ r ∈ requests, r.Typed) :
    (∀ served, served <+: requests → ∀ d, Refines jsonb served d) ↔ ∀ r ∈ requests, r.Kept := by
  constructor
  · intro h r hr
    obtain ⟨earlier, later, rfl⟩ := List.append_of_mem hr
    apply kept_of_refines hjsonb (h earlier (List.prefix_append ..)) (h (earlier ++ [r]) _)
    exact ⟨later, List.append_assoc ..⟩
  · intro hk served hserved d
    exact refines_of_kept hjsonb (fun r hr => hk r (hserved.subset hr)) fun r hr => ht r (hserved.subset hr)

theorem proto_metric_is_lost : ¬ ∀ (jsonb : Record → Option Record) (requests : List Request) (d : String),
    Jsonb jsonb → (∀ r ∈ requests, r.Typed) → Refines jsonb requests d := by
  intro h
  let requests : List Request := [.mergeReported "dev-1" [{ metric := "__proto__", value := .num (.finite 5) }]]
  have ht : ∀ r ∈ requests, r.Typed := by
    intro r hr
    rw [List.mem_singleton.mp hr]
    intro x hx
    rw [List.mem_singleton.mp hx]
    rfl
  have hreported := (h jsonbColumn requests "dev-1" jsonb_column ht).follows.reported "__proto__"
  have hne : (getShadow (after jsonbColumn requests) "dev-1").shadow.reported.get "__proto__" ≠
      lastReported "dev-1" (calls requests) "__proto__" := by decide +kernel
  exact hne hreported

def inherited : List Request :=
  [.setDesired "dev-1" interval, .mergeReported "dev-1" [{ metric := "constructor", value := .bool false }],
    .getShadow "dev-1"]

theorem inherited_names_are_kept : Refines jsonbColumn inherited "dev-1" := by
  refine (shadow_refines_history_iff jsonb_column ?_).mpr ?_ inherited List.prefix_rfl "dev-1"
  · intro r hr
    simp only [inherited, List.mem_cons, List.not_mem_nil, or_false] at hr
    rcases hr with rfl | rfl | rfl
    · trivial
    · intro x hx
      rw [List.mem_singleton.mp hx]
      rfl
    · trivial
  · intro r hr
    simp only [inherited, List.mem_cons, List.not_mem_nil, or_false] at hr
    rcases hr with rfl | rfl | rfl
    · exact ⟨by decide +kernel, by decide +kernel⟩
    · intro x hx
      rw [List.mem_singleton.mp hx]
      exact ⟨by decide, by decide +kernel⟩
    · trivial

end EspClawPlatform.Twin
