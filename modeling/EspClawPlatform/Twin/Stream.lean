import EspClawPlatform.Twin.Feed

namespace EspClawPlatform.Twin

open Run

def Frame.call : Frame → Call
  | .finding call | .found call _ | .creating call | .created call _ | .saving call _ | .saved call _ => call

def DeviceShadow.report (row : DeviceShadow) : Record × Nat := (row.reported, row.reportedVersion)

def Frame.Reads (report : Record × Nat) : Frame → Prop
  | .found call none | .creating call => (emptyShadow call.deviceId).report = report
  | .found _ (some row) | .created _ row | .saving _ row => row.report = report
  | .finding _ | .saved .. => True

/-- A call of `setDesired` for the device saves over nothing that was reported
since it loaded the row. -/
def Frame.Keeps (d : String) (s : State) : Frame → Prop
  | .creating (.setDesired deviceId _) => deviceId = d → (emptyShadow d).report = (s.shadow d).report
  | .saving (.setDesired deviceId _) row => deviceId = d → row.report = (s.shadow d).report
  | _ => True

instance (d : String) (s : State) : ∀ f : Frame, Decidable (f.Keeps d s)
  | .creating (.setDesired deviceId _) =>
      inferInstanceAs (Decidable (deviceId = d → (emptyShadow d).report = (s.shadow d).report))
  | .saving (.setDesired deviceId _) row =>
      inferInstanceAs (Decidable (deviceId = d → row.report = (s.shadow d).report))
  | .creating (.mergeReported ..) | .saving (.mergeReported ..) _ | .finding _ | .found .. | .created .. | .saved .. =>
      inferInstanceAs (Decidable True)

def samplesOf (d : String) (event : DomainEvent Payload) : List ReportedSample :=
  ((onTelemetryUpdated event).bind (Call.samples d)).getD []

def reportedAt (d : String) (events : List (DomainEvent Payload)) (n : Nat) : List ReportedSample :=
  events[n]?.elim [] (samplesOf d)

theorem deviceId_of_telemetry {event : DomainEvent Payload} {call : Call} (h : onTelemetryUpdated event = some call) :
    event.deviceId = some call.deviceId ∧ event.payload.eventType = feed.pattern := by
  rw [onTelemetryUpdated] at h
  split at h
  · rename_i hp hd
    split at h <;> cases h
    exact ⟨hd, by rw [hp]; rfl⟩
  · cases h

theorem samplesOf_eq {event : DomainEvent Payload} {samples : List ReportedSample}
    (h : onTelemetryUpdated event = some (.mergeReported d samples)) : samplesOf d event = samples := by
  rw [samplesOf, h, Option.bind_some, Call.samples]
  by_cases hs : samples = []
  · simp [hs]
  · rw [if_pos ⟨rfl, hs⟩, Option.getD_some]

theorem samplesOf_ne_nil {event : DomainEvent Payload} (h : samplesOf d event ≠ []) :
    onTelemetryUpdated event = some (.mergeReported d (samplesOf d event)) := by
  cases hc : onTelemetryUpdated event with
  | none =>
      rw [samplesOf, hc] at h
      exact absurd rfl h
  | some call =>
      cases call with
      | setDesired =>
          rw [samplesOf, hc] at h
          exact absurd rfl h
      | mergeReported deviceId samples =>
          by_cases hd : deviceId = d
          · subst hd
            rw [samplesOf_eq hc]
          · rw [samplesOf, hc, Option.bind_some, Call.samples, if_neg fun he => hd he.1] at h
            exact absurd rfl h

theorem calls_begins (s : State) (call : Call) : (s.begins call).calls = s.calls ++ [call] := by
  rw [State.begins]
  split <;> rfl

theorem shadow_begins (s : State) (call : Call) : (s.begins call).shadow d = s.shadow d := by
  rw [State.begins]
  split <;> rfl

theorem shadow_of_save {s t : State} {row : DeviceShadow} {deviceId : String} (h : t.shadows = s.shadows.save row)
    (hrow : row.deviceId = deviceId) : t.shadow d = if deviceId = d then row else s.shadow d := by
  subst hrow
  rw [State.shadow, h]
  split
  · rename_i hd
    subst hd
    exact congrArg (Option.getD · _) (Table.find_save_self _ _)
  · rename_i hd
    exact congrArg (Option.getD · _) (Table.find_save_of_ne _ (Ne.symm hd))

theorem frames_begins (s : State) (call : Call) (k : Nat) : (s.begins call).frames.get k =
    if call.isNoop = false ∧ k = s.calls.length then some (.finding call) else s.frames.get k := by
  rw [State.begins]
  cases call.isNoop with
  | true => rfl
  | false =>
      simp only [Bool.false_eq_true, if_false, true_and]
      exact Table.get_set _ _ _ _

theorem get_goto (s : State) (k j : Nat) (g : Frame) :
    (s.goto k g).frames.get j = if j = k then some g else s.frames.get j := by
  rw [State.goto, Table.get_set]

theorem frames_step {s t : State} {a : Action} {k : Nat} (h : step s a = some t) (ha : a = .commit k ∨ a = .resume k) :
    t.calls = s.calls ∧ ∃ f g, s.frames.get k = some f ∧
      (∀ j, t.frames.get j = if j = k then g else s.frames.get j) ∧ ∀ f' ∈ g, f'.call = f.call := by
  have hgoto {u : State} {f g : Frame} (hf : s.frames.get k = some f) (hu : u.frames = s.frames)
      (hcalls : u.calls = s.calls) (hg : g.call = f.call) : (u.goto k g).calls = s.calls ∧ ∃ f g',
      s.frames.get k = some f ∧ (∀ j, (u.goto k g).frames.get j = if j = k then g' else s.frames.get j) ∧
        ∀ f' ∈ g', f'.call = f.call := by
    refine ⟨hcalls, f, some g, hf, fun j => ?_, ?_⟩
    · rw [get_goto, hu]
    · rintro f' ⟨⟩
      exact hg
  cases step_shape h with
  | noop | begins => rcases ha with ha | ha <;> cases ha
  | finds hf | creates hf | saves hf =>
      rcases ha with ha | ha <;> cases ha
      exact hgoto hf rfl rfl rfl
  | missing hf =>
      rcases ha with ha | ha <;> cases ha
      exact hgoto hf rfl rfl rfl
  | loaded hf =>
      rcases ha with ha | ha <;> cases ha
      rcases hf with hf | hf
      · exact hgoto hf rfl rfl rfl
      · exact hgoto hf rfl rfl rfl
  | @returns j call row hf =>
      rcases ha with ha | ha <;> cases ha
      obtain ⟨hframes, -, -, hcalls⟩ := frames_finish (s := s) k call row
      refine ⟨hcalls, _, none, hf, fun j => ?_, fun f' hf' => by cases hf'⟩
      rw [hframes, Table.get_erase]

theorem twinInv_erase {shadows : Table DeviceShadow} {s : State} (k : Nat) (hi : TwinInv shadows s) :
    TwinInv shadows { s with frames := s.frames.erase k } := by
  have hback {j : Nat} {f : Frame} (hf : (s.frames.erase k).get j = some f) : s.frames.get j = some f := by
    rw [Table.get_erase] at hf
    split at hf
    · cases hf
    · exact hf
  exact ⟨fun j f hf => hi.fresh j f (hback hf), fun j f hf => hi.owns j f (hback hf), hi.rows⟩

namespace Subscriber

variable {shadows : Table DeviceShadow} {s t : Subscriber} {d : String}

structure CallsInv (shadows : Table DeviceShadow) (s : Subscriber) : Prop where
  twin : TwinInv shadows s.twin
  numbered : ∀ k f, s.twin.frames.get k = some f → s.twin.calls[k]? = some f.call ∧ f.call.isNoop = false
  awaited : ∀ p x k, s.executions.find p = some x → x.standing = .awaits k →
    ∃ call, onTelemetryUpdated x.event = some call ∧ s.twin.calls[k]? = some call
  apart : ∀ p q x y k, s.executions.find p = some x → s.executions.find q = some y → x.standing = .awaits k →
    y.standing = .awaits k → x = y
  merging : ∀ k f deviceId samples, s.twin.frames.get k = some f → f.call = .mergeReported deviceId samples →
    ∃ p x, s.executions.find p = some x ∧ x.standing = .awaits k
  failed : ∀ k message, s.failures.get k = some message → k < s.twin.calls.length ∧ s.twin.frames.get k = none
  returned : ∀ p x, s.executions.find p = some x → x.standing = .returned → onTelemetryUpdated x.event = none

theorem callsInv_init : CallsInv shadows (init shadows) where
  twin := twinInv_init
  numbered := fun _ _ hf => by cases hf
  awaited := fun _ _ _ hx => by cases hx
  apart := fun _ _ _ _ _ hx => by cases hx
  merging := fun _ _ _ _ hf => by cases hf
  failed := fun _ _ hm => by cases hm
  returned := fun _ _ hx => by cases hx

theorem CallsInv.frames (hc : CallsInv shadows s) (htwin : TwinInv shadows t.twin)
    (hcalls : t.twin.calls = s.twin.calls) (hx : t.executions = s.executions) (hm : t.failures = s.failures)
    (hframes : ∀ k g, t.twin.frames.get k = some g → ∃ f, s.twin.frames.get k = some f ∧ g.call = f.call) :
    CallsInv shadows t where
  twin := htwin
  numbered := by
    intro k g hg
    obtain ⟨f, hf, hcall⟩ := hframes k g hg
    rw [hcalls, hcall]
    exact hc.numbered k f hf
  awaited := by
    rw [hx, hcalls]
    exact hc.awaited
  apart := by
    rw [hx]
    exact hc.apart
  merging := by
    intro k g deviceId samples hg hmerge
    obtain ⟨f, hf, hcall⟩ := hframes k g hg
    rw [hx]
    exact hc.merging k f deviceId samples hf (hcall.symm.trans hmerge)
  failed := by
    intro k message hk
    rw [hm] at hk
    obtain ⟨hlt, hnone⟩ := hc.failed k message hk
    rw [hcalls]
    refine ⟨hlt, ?_⟩
    cases hg : t.twin.frames.get k with
    | none => rfl
    | some g =>
        obtain ⟨f, hf, -⟩ := hframes k g hg
        rw [hnone] at hf
        cases hf
  returned := by
    rw [hx]
    exact hc.returned

theorem lt_of_awaits {p : Nat × Nat} {x : Execution} {k : Nat} (hc : CallsInv shadows s)
    (hx : s.executions.find p = some x) (hk : x.standing = .awaits k) : k < s.twin.calls.length := by
  obtain ⟨call, -, hcall⟩ := hc.awaited p x k hx hk
  exact (List.getElem?_eq_some_iff.mp hcall).1

theorem CallsInv.begins {call : Call} {executions : Table Execution} (hc : CallsInv shadows s)
    (hold : ∀ p x, s.executions.find p = some x → executions.find p = some x)
    (hnew : ∀ p x, executions.find p = some x → s.executions.find p = some x ∨
      x.standing = .awaits s.twin.calls.length ∧ onTelemetryUpdated x.event = some call)
    (hone : ∀ p q x y, executions.find p = some x → executions.find q = some y →
      x.standing = .awaits s.twin.calls.length → y.standing = .awaits s.twin.calls.length → x = y)
    (hmerge : ∀ deviceId samples, call = .mergeReported deviceId samples →
      ∃ p x, executions.find p = some x ∧ x.standing = .awaits s.twin.calls.length) :
    CallsInv shadows { s with twin := s.twin.begins call, executions := executions } where
  twin := twinInv_step hc.twin (show Twin.step s.twin (.begins call) = some _ from rfl)
  numbered := by
    intro k f hf
    rw [frames_begins] at hf
    rw [calls_begins]
    split at hf
    · rename_i hk
      cases hf
      exact ⟨hk.2 ▸ List.getElem?_concat_length, hk.1⟩
    · obtain ⟨hcall, hbusy⟩ := hc.numbered k f hf
      rw [List.getElem?_append_left (hc.twin.fresh k f hf)]
      exact ⟨hcall, hbusy⟩
  awaited := by
    intro p x k hx hk
    rw [calls_begins]
    rcases hnew p x hx with hx | ⟨hx, hcall⟩
    · obtain ⟨call', hevent, hcall⟩ := hc.awaited p x k hx hk
      refine ⟨call', hevent, ?_⟩
      rw [List.getElem?_append_left (lt_of_awaits hc hx hk), hcall]
    · rw [hk] at hx
      cases hx
      exact ⟨call, hcall, List.getElem?_concat_length⟩
  apart := by
    intro p q x y k hx hy hxk hyk
    rcases Nat.lt_or_ge k s.twin.calls.length with hlt | hge
    · have hback {p : Nat × Nat} {x : Execution} (hx : executions.find p = some x) (hxk : x.standing = .awaits k) :
          s.executions.find p = some x := by
        rcases hnew p x hx with hx | ⟨hx, -⟩
        · exact hx
        · rw [hxk] at hx
          cases hx
          exact absurd hlt (Nat.lt_irrefl _)
      exact hc.apart p q x y k (hback hx hxk) (hback hy hyk) hxk hyk
    · have hlast {p : Nat × Nat} {x : Execution} (hx : executions.find p = some x) (hxk : x.standing = .awaits k) :
          x.standing = .awaits s.twin.calls.length := by
        rcases hnew p x hx with hx | ⟨hx, -⟩
        · exact absurd (lt_of_awaits hc hx hxk) (Nat.not_lt_of_ge hge)
        · exact hx
      exact hone p q x y hx hy (hlast hx hxk) (hlast hy hyk)
  merging := by
    intro k f deviceId samples hf hcall
    rw [frames_begins] at hf
    split at hf
    · rename_i hk
      cases hf
      rw [hk.2]
      exact hmerge deviceId samples hcall
    · obtain ⟨p, x, hx, hk⟩ := hc.merging k f deviceId samples hf hcall
      exact ⟨p, x, hold p x hx, hk⟩
  failed := by
    intro k message hk
    obtain ⟨hlt, hnone⟩ := hc.failed k message hk
    rw [calls_begins, frames_begins, if_neg fun h => hlt.ne h.2]
    refine ⟨?_, hnone⟩
    rw [List.length_append]
    omega
  returned := by
    intro p x hx hr
    rcases hnew p x hx with hx | ⟨hx, -⟩
    · exact hc.returned p x hx hr
    · rw [hr] at hx
      cases hx

theorem callsInv_desires {deviceId : String} {patch : Record} (hc : CallsInv shadows s) :
    CallsInv shadows { s with twin := s.twin.begins (.setDesired deviceId patch) } := by
  have hnone {p : Nat × Nat} {x : Execution} (hx : s.executions.find p = some x) :
      x.standing ≠ .awaits s.twin.calls.length :=
    fun hk => absurd (lt_of_awaits hc hx hk) (Nat.lt_irrefl _)
  exact hc.begins (fun _ _ hx => hx) (fun _ _ hx => .inl hx) (fun _ _ _ _ hx _ hk => absurd hk (hnone hx))
    (fun _ _ h => by cases h)

theorem callsInv_calls {n i : Nat} {event : DomainEvent Payload} (hc : CallsInv shadows s)
    (hfree : s.executions.find (n, i) = none) : CallsInv shadows (s.calls n i event) := by
  have hold (x : Execution) (hx : Keyed.key x = (n, i)) (p : Nat × Nat) (y : Execution)
      (hy : s.executions.find p = some y) : (s.executions.save x).find p = some y := by
    rw [Table.find_save, if_neg, hy]
    rintro rfl
    rw [hx, hfree] at hy
    cases hy
  have hback {x : Execution} {p : Nat × Nat} {y : Execution} (hy : (s.executions.save x).find p = some y) :
      s.executions.find p = some y ∨ y = x := by
    rw [Table.find_save] at hy
    split at hy
    · exact .inr (Option.some.inj hy).symm
    · exact .inl hy
  rw [calls]
  cases hcall : onTelemetryUpdated event with
  | none =>
      refine { twin := hc.twin, numbered := hc.numbered, failed := hc.failed, awaited := ?_, apart := ?_, merging := ?_, returned := ?_ }
      · intro p y k hy hk
        rcases hback hy with hy | rfl
        · exact hc.awaited p y k hy hk
        · cases hk
      · intro p q y z k hy hz hyk hzk
        rcases hback hy with hy | rfl
        · rcases hback hz with hz | rfl
          · exact hc.apart p q y z k hy hz hyk hzk
          · cases hzk
        · cases hyk
      · intro k f deviceId samples hf hmerge
        obtain ⟨p, y, hy, hk⟩ := hc.merging k f deviceId samples hf hmerge
        exact ⟨p, y, hold _ rfl p y hy, hk⟩
      · intro p y hy hr
        rcases hback hy with hy | rfl
        · exact hc.returned p y hy hr
        · exact hcall
  | some call =>
      have hfar {p : Nat × Nat} {y : Execution} (hy : s.executions.find p = some y) :
          y.standing ≠ .awaits s.twin.calls.length :=
        fun hk => absurd (lt_of_awaits hc hy hk) (Nat.lt_irrefl _)
      apply hc.begins
      · exact hold _ rfl
      · intro p y hy
        rcases hback hy with hy | rfl
        · exact .inl hy
        · exact .inr ⟨rfl, hcall⟩
      · intro p q y z hy hz hyk hzk
        rcases hback hy with hy | rfl
        · exact absurd hyk (hfar hy)
        · rcases hback hz with hz | rfl
          · exact absurd hzk (hfar hz)
          · rfl
      · exact fun _ _ _ => ⟨(n, i), _, Table.find_save_self _ _, rfl⟩

theorem callsInv_twin {a : Twin.Action} {k : Nat} {twin : State} {bus : Bus.State Payload} (hc : CallsInv shadows s)
    (h : Twin.step s.twin a = some twin) (ha : a = .commit k ∨ a = .resume k) :
    CallsInv shadows { s with twin := twin, bus := bus } := by
  obtain ⟨hcalls, f, g, hf, hframes, hg⟩ := frames_step h ha
  refine hc.frames (twinInv_step hc.twin h) hcalls rfl rfl fun j f' hf' => ?_
  rw [hframes] at hf'
  split at hf'
  · rename_i hj
    exact ⟨f, hj ▸ hf, hg f' hf'⟩
  · exact ⟨f', hf', rfl⟩

theorem callsInv_refuse {k : Nat} {f : Frame} {message : String} (hc : CallsInv shadows s)
    (hf : s.twin.frames.get k = some f) : CallsInv shadows
      { s with
        twin := { s.twin with frames := s.twin.frames.erase k }
        failures := s.failures.set k message } := by
  have herased : CallsInv shadows { s with twin := { s.twin with frames := s.twin.frames.erase k } } := by
    refine hc.frames (twinInv_erase k hc.twin) rfl rfl rfl fun j g hg => ?_
    rw [Table.get_erase] at hg
    split at hg
    · cases hg
    · exact ⟨g, hg, rfl⟩
  refine { herased with failed := ?_ }
  intro j text hj
  rw [Table.get_set] at hj
  split at hj
  · rename_i hjk
    rw [hjk]
    exact ⟨hc.twin.fresh k f hf, Table.get_erase_self _ _⟩
  · exact herased.failed j text hj

theorem outcome_awaits {k : Nat} {failure : Option String} (hc : CallsInv shadows s)
    (h : s.outcome (.awaits k) = some failure) : s.twin.frames.get k = none ∧ s.failures.get k = failure := by
  rw [outcome] at h
  cases hm : s.failures.get k with
  | some message =>
      rw [hm] at h
      exact ⟨(hc.failed k message hm).2, Option.some.inj h⟩
  | none =>
      rw [hm] at h
      change (if (s.twin.frames.get k).isNone then some none else none) = some failure at h
      split at h
      · rename_i hn
        cases h
        exact ⟨Option.isNone_iff_eq_none.mp hn, rfl⟩
      · cases h

theorem callsInv_settle {x : Execution} (hc : CallsInv shadows s)
    (hx : s.executions.find (x.link, x.target) = some x) (h : s.settle x = some t) : CallsInv shadows t := by
  obtain ⟨failure, ho, rfl⟩ := Option.map_eq_some_iff.mp h
  have hback {p : Nat × Nat} {y : Execution} (hy : (s.executions.save { x with standing := .settled failure }).find p =
      some y) (hs : y.standing ≠ .settled failure) : s.executions.find p = some y := by
    rw [Table.find_save] at hy
    split at hy
    · cases hy
      exact absurd rfl hs
    · exact hy
  have hawaits {y : Execution} {k : Nat} (hk : y.standing = .awaits k) : y.standing ≠ .settled failure := by
    rw [hk]
    exact Standing.noConfusion
  refine { twin := hc.twin, numbered := hc.numbered, failed := hc.failed, awaited := ?_, apart := ?_, merging := ?_, returned := ?_ }
  · intro p y k hy hk
    exact hc.awaited p y k (hback hy (hawaits hk)) hk
  · intro p q y z k hy hz hyk hzk
    exact hc.apart p q y z k (hback hy (hawaits hyk)) (hback hz (hawaits hzk)) hyk hzk
  · intro k f deviceId samples hf hmerge
    obtain ⟨p, y, hy, hk⟩ := hc.merging k f deviceId samples hf hmerge
    refine ⟨p, y, ?_, hk⟩
    rw [Table.find_save, if_neg, hy]
    rintro rfl
    obtain rfl := Option.some.inj (hx.symm.trans hy)
    rw [hk] at ho
    have hnone := (outcome_awaits hc ho).1
    rw [hf] at hnone
    cases hnone
  · intro p y hy hr
    refine hc.returned p y (hback hy ?_) hr
    rw [hr]
    exact Standing.noConfusion

section Alone

variable {p q : Nat × Nat} {x y : Execution}

/-- The bus hands over no later event of a device before the handler is done with the earlier ones. -/
theorem settled_of_later (hi : HandlerInv d s) (hx : s.executions.find p = some x) (hy : s.executions.find q = some y)
    (hdx : x.event.deviceId = some d) (hdy : y.event.deviceId = some d) (hlt : x.link < y.link) :
    ∃ failure, x.standing = .settled failure := by
  obtain ⟨l, r, hl, hr, hid, he⟩ := Bus.heardBy_eq_some.mp (hi.known p x hx)
  obtain ⟨l', r', hl', -, -, he'⟩ := Bus.heardBy_eq_some.mp (hi.known q y hy)
  have hmx : Bus.Member s.bus d x.link := ⟨l, hl, by rw [Bus.lane, he, hdx, Option.getD_some]⟩
  have hmy : Bus.Member s.bus d y.link := ⟨l', hl', by rw [Bus.lane, he', hdy, Option.getD_some]⟩
  have hsettled := (hi.delivery.lanes.chain d).settled_before hmy (hi.begun q y hy) hmx hlt
  obtain ⟨e, he₁, hfin⟩ := Bus.finished_of_settled hi.delivery hi.calm hsettled
  obtain rfl := Option.some.inj (hl.symm.trans he₁)
  have hrun : s.bus.runAt x.link x.target = some r := Bus.runAt_eq_some.mpr ⟨l, hl, hr⟩
  have hstage := hi.stage _ _ r hrun (hi.listens.sub_of_heardBy (hi.known p x hx) hrun)
  have hkey : (x.link, x.target) = p := Table.key_of_find hx
  rw [hkey, hx] at hstage
  have hphase := (hfin r (List.mem_of_getElem? hr)).2
  cases hstage with
  | running h => simp [h] at hphase
  | delivered _ h => exact ⟨none, h⟩
  | failed _ h =>
      obtain ⟨message, hm⟩ := h hdx
      exact ⟨some message, hm⟩

theorem eq_of_link (hi : HandlerInv d s) (hx : s.executions.find p = some x) (hy : s.executions.find q = some y)
    (h : x.link = y.link) : x = y := by
  have hknown := hi.known q y hy
  rw [← h] at hknown
  have htarget := hi.listens.target_eq (hi.known p x hx) hknown
  have hp : (x.link, x.target) = p := Table.key_of_find hx
  have hq : (y.link, y.target) = q := Table.key_of_find hy
  rw [h, htarget, hq] at hp
  exact Option.some.inj (hx.symm.trans (hp ▸ hy))

theorem one_merge {k l : Nat} {f g : Frame} {samples samples' : List ReportedSample} (hi : HandlerInv d s)
    (hc : CallsInv shadows s) (hf : s.twin.frames.get k = some f) (hg : s.twin.frames.get l = some g)
    (hfc : f.call = .mergeReported d samples) (hgc : g.call = .mergeReported d samples') : k = l := by
  have hdevice {j : Nat} {f : Frame} {p : Nat × Nat} {x : Execution} {samples : List ReportedSample}
      (hf : s.twin.frames.get j = some f) (hfc : f.call = .mergeReported d samples)
      (hx : s.executions.find p = some x) (hj : x.standing = .awaits j) : x.event.deviceId = some d := by
    obtain ⟨call, hevent, hcall⟩ := hc.awaited p x j hx hj
    rw [(hc.numbered j f hf).1, hfc] at hcall
    obtain rfl := Option.some.inj hcall
    exact (deviceId_of_telemetry hevent).1
  obtain ⟨p, x, hx, hk⟩ := hc.merging k f d samples hf hfc
  obtain ⟨q, y, hy, hl⟩ := hc.merging l g d samples' hg hgc
  have hdx := hdevice hf hfc hx hk
  have hdy := hdevice hg hgc hy hl
  rcases Nat.lt_trichotomy x.link y.link with hlt | heq | hgt
  · obtain ⟨failure, hs⟩ := settled_of_later hi hx hy hdx hdy hlt
    rw [hk] at hs
    cases hs
  · obtain rfl := eq_of_link hi hx hy heq
    rw [hk] at hl
    exact Standing.awaits.inj hl
  · obtain ⟨failure, hs⟩ := settled_of_later hi hy hx hdy hdx hgt
    rw [hl] at hs
    cases hs

end Alone

end Subscriber

end EspClawPlatform.Twin
