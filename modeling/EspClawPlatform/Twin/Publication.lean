import EspClawPlatform.Twin.Stream

namespace EspClawPlatform.Twin.Subscriber

open Run

variable {shadows : Table DeviceShadow} {s t : Subscriber} {d : String} {events more : List (DomainEvent Payload)}
  {applied : List Nat}

structure LogInv (events : List (DomainEvent Payload)) (b : Bus.State Payload) : Prop where
  numbered : Bus.Numbered events b
  linked : Bus.Linked feed events b
  typed : ∀ event ∈ events, event.eventType = event.payload.eventType

theorem logInv_init : LogInv [] (init shadows).bus where
  numbered := Bus.numbered_first "device.telemetry.updated" { name := "twin.reported" }
  linked := fun _ _ he => by cases he
  typed := fun _ he => by cases he

theorem logInv_step {a : Bus.Action Payload} {bus : Bus.State Payload} (hi : HandlerInv d s) (hl : LogInv events s.bus)
    (h : Bus.step s.bus a = some bus) (hfair : Fair a) : LogInv (events ++ (Bus.publication a).toList) bus where
  numbered := Bus.numbered_step hl.numbered h
  linked := Bus.linked_step hi.listens hi.delivery.lanes hl.numbered h hl.linked
  typed := by
    intro event he
    rcases List.mem_append.mp he with he | he
    · exact hl.typed event he
    · cases a with
      | publish published =>
          obtain rfl := List.mem_singleton.mp he
          exact hfair
      | _ => cases he

theorem logInv_publishes (hi : HandlerInv d s) (hl : LogInv events s.bus)
    (htype : ∀ event ∈ more, event.eventType = event.payload.eventType) :
    LogInv (events ++ more) (more.foldl Bus.State.publish s.bus) := by
  induction more generalizing s events with
  | nil =>
      rw [List.append_nil]
      exact hl
  | cons event more ih =>
      have hevent := htype event List.mem_cons_self
      have hnext := logInv_step (a := .publish event) hi hl rfl hevent
      rw [List.append_cons]
      exact ih (handlerInv_publish hi hevent) hnext fun later hl => htype later (List.mem_cons_of_mem _ hl)

theorem event_of_execution {p : Nat × Nat} {x : Execution} (hi : HandlerInv d s) (hl : LogInv events s.bus)
    (hx : s.executions.find p = some x) : events[x.link]? = some x.event := by
  obtain ⟨l, r, hlink, -, -, he⟩ := Bus.heardBy_eq_some.mp (hi.known p x hx)
  rw [← he]
  exact hl.numbered.event _ _ hlink

/-- The call of the handler has saved its samples, or has none to save. -/
def Landed (s : Subscriber) (x : Execution) : Prop :=
  match x.standing with
  | .awaits k => s.failures.get k = none ∧ ∀ f ∈ s.twin.frames.get k, f.unsaved = none
  | .returned => True
  | .settled failure => failure = none

/-- The shadow says what the events have reported whose numbers are in `applied`. -/
structure ContentInv (d : String) (shadows : Table DeviceShadow) (events : List (DomainEvent Payload))
    (applied : List Nat) (s : Subscriber) : Prop where
  increasing : applied.Pairwise (· < ·)
  known : ∀ n ∈ applied, ∃ p x, s.executions.find p = some x ∧ x.link = n ∧ samplesOf d x.event ≠ []
  landed : ∀ p x, s.executions.find p = some x → samplesOf d x.event ≠ [] → (x.link ∈ applied ↔ s.Landed x)
  reads : ∀ k f samples, s.twin.frames.get k = some f → f.call = .mergeReported d samples →
    f.Reads (s.twin.shadow d).report
  report : (s.twin.shadow d).report =
    ((applied.flatMap (reportedAt d events)).foldl assign (base shadows d).reported,
      (base shadows d).reportedVersion + applied.length)

theorem contentInv_init : ContentInv d shadows [] [] (init shadows) where
  increasing := List.Pairwise.nil
  known := fun _ hn => by cases hn
  landed := fun _ _ hx => by cases hx
  reads := fun _ _ _ hf => by cases hf
  report := rfl

theorem ContentInv.later (hc : ContentInv d shadows events applied s) (hi : HandlerInv d s)
    (hl : LogInv events s.bus) : ContentInv d shadows (events ++ more) applied s := by
  refine { hc with report := ?_ }
  have hsame : applied.flatMap (reportedAt d (events ++ more)) = applied.flatMap (reportedAt d events) := by
    apply List.flatMap_congr
    intro n hn
    obtain ⟨p, x, hx, rfl, -⟩ := hc.known n hn
    obtain ⟨hlt, -⟩ := List.getElem?_eq_some_iff.mp (event_of_execution hi hl hx)
    rw [reportedAt, reportedAt, List.getElem?_append_left hlt]
  rw [hsame]
  exact hc.report

theorem ContentInv.still (hc : ContentInv d shadows events applied s) (hx : t.executions = s.executions)
    (hlanded : ∀ p x, s.executions.find p = some x → samplesOf d x.event ≠ [] → (t.Landed x ↔ s.Landed x))
    (hreport : (t.twin.shadow d).report = (s.twin.shadow d).report)
    (hreads : ∀ k f samples, t.twin.frames.get k = some f → f.call = .mergeReported d samples →
      f.Reads (s.twin.shadow d).report) : ContentInv d shadows events applied t where
  increasing := hc.increasing
  known := by
    rw [hx]
    exact hc.known
  landed := by
    intro p x hfind hs
    rw [hx] at hfind
    rw [hc.landed p x hfind hs, hlanded p x hfind hs]
  reads := by
    rw [hreport]
    exact hreads
  report := by
    rw [hreport]
    exact hc.report

theorem landed_congr {x : Execution} (h : ∀ k, x.standing = .awaits k → t.failures.get k = s.failures.get k ∧
    ((∀ f ∈ t.twin.frames.get k, f.unsaved = none) ↔ ∀ f ∈ s.twin.frames.get k, f.unsaved = none)) :
    t.Landed x ↔ s.Landed x := by
  rw [Landed, Landed]
  cases hk : x.standing with
  | awaits k =>
      obtain ⟨hfailures, hframes⟩ := h k hk
      simp only [hfailures, hframes]
  | returned | settled => exact Iff.rfl

theorem call_of_awaits {p : Nat × Nat} {x : Execution} {k : Nat} {f : Frame} (hc : CallsInv shadows s)
    (hx : s.executions.find p = some x) (hs : samplesOf d x.event ≠ []) (hk : x.standing = .awaits k)
    (hf : s.twin.frames.get k = some f) : f.call = .mergeReported d (samplesOf d x.event) := by
  obtain ⟨call, hevent, hcall⟩ := hc.awaited p x k hx hk
  have hframe := (hc.numbered k f hf).1
  rw [hcall] at hframe
  rw [samplesOf_ne_nil hs] at hevent
  exact (Option.some.inj hframe).symm.trans (Option.some.inj hevent).symm

theorem contentInv_begins (call : Call) (hcalls : CallsInv shadows s) (hc : ContentInv d shadows events applied s) :
    ContentInv d shadows events applied { s with twin := s.twin.begins call } := by
  refine hc.still rfl (fun p x hx _ => ?_) (congrArg DeviceShadow.report (shadow_begins _ _)) fun k f samples hf hcall => ?_
  · apply landed_congr
    intro k hk
    rw [frames_begins, if_neg fun h => (lt_of_awaits hcalls hx hk).ne h.2]
    exact ⟨rfl, Iff.rfl⟩
  · rw [frames_begins] at hf
    split at hf
    · cases hf
      trivial
    · exact hc.reads k f samples hf hcall

theorem ContentInv.saves {x : Execution} (hi : HandlerInv d s) (hc : ContentInv d shadows events applied s)
    (hfree : s.executions.find (x.link, x.target) = none) (hheard : s.bus.heardBy feed x.link x.target = some x.event)
    (hx : samplesOf d x.event ≠ [] → ¬ s.Landed x) :
    ContentInv d shadows events applied { s with executions := s.executions.save x } where
  increasing := hc.increasing
  known := by
    intro n hn
    obtain ⟨p, y, hy, hlink, hs⟩ := hc.known n hn
    refine ⟨p, y, ?_, hlink, hs⟩
    rw [Table.find_save, if_neg, hy]
    rintro rfl
    rw [show s.executions.find (Keyed.key x) = none from hfree] at hy
    cases hy
  landed := by
    intro p y hy hs
    rw [Table.find_save] at hy
    split at hy
    · obtain rfl := Option.some.inj hy
      refine iff_of_false (fun hmem => ?_) (hx hs)
      obtain ⟨q, z, hz, hlink, -⟩ := hc.known _ hmem
      have hheard' := hi.known q z hz
      rw [hlink] at hheard'
      have htarget := hi.listens.target_eq hheard hheard'
      have hkey : (z.link, z.target) = q := Table.key_of_find hz
      rw [hlink, ← htarget] at hkey
      rw [← hkey, hfree] at hz
      cases hz
    · exact hc.landed p y hy hs
  reads := hc.reads
  report := hc.report

theorem contentInv_calls {n i : Nat} {event : DomainEvent Payload} (hi : HandlerInv d s) (hcalls : CallsInv shadows s)
    (hc : ContentInv d shadows events applied s) (hfree : s.executions.find (n, i) = none)
    (hh : s.bus.heardBy feed n i = some event) : ContentInv d shadows events applied (s.calls n i event) := by
  rw [calls]
  cases hcall : onTelemetryUpdated event with
  | none =>
      refine hc.saves hi hfree hh fun hs => ?_
      rw [samplesOf_ne_nil hs] at hcall
      cases hcall
  | some call =>
      have hbegins := contentInv_begins call hcalls hc
      have hi' : HandlerInv d { s with twin := s.twin.begins call } := hi.congr rfl rfl
      refine hbegins.saves (x := { link := n, target := i, event := event, standing := .awaits s.twin.calls.length }) hi' hfree
        hh fun hs => ?_
      have hevent := samplesOf_ne_nil hs
      rw [hcall] at hevent
      obtain rfl := Option.some.inj hevent
      -- the call has just begun
      rintro ⟨-, hframes⟩
      have hbusy : (Call.mergeReported d (samplesOf d event)).isNoop = false := by
        cases hsamples : samplesOf d event with
        | nil => exact absurd hsamples hs
        | cons => rfl
      have hframe := frames_begins s.twin (.mergeReported d (samplesOf d event)) s.twin.calls.length
      rw [if_pos ⟨hbusy, rfl⟩] at hframe
      have hsaved := hframes _ hframe
      cases hsaved

theorem contentInv_settle {x : Execution} (hcalls : CallsInv shadows s) (hc : ContentInv d shadows events applied s)
    (hx : s.executions.find (x.link, x.target) = some x) (h : s.settle x = some t) :
    ContentInv d shadows events applied t := by
  obtain ⟨failure, ho, rfl⟩ := Option.map_eq_some_iff.mp h
  have hlanded : s.Landed x ↔ failure = none := by
    rw [Landed]
    cases hk : x.standing with
    | awaits k =>
        rw [hk] at ho
        obtain ⟨hnone, rfl⟩ := outcome_awaits hcalls ho
        simp [hnone]
    | returned =>
        rw [hk] at ho
        cases ho
        exact iff_of_true trivial rfl
    | settled other =>
        rw [hk] at ho
        cases ho
  refine { increasing := hc.increasing, reads := hc.reads, report := hc.report, known := ?_, landed := ?_ }
  · intro n hn
    obtain ⟨p, y, hy, hlink, hs⟩ := hc.known n hn
    by_cases hp : p = (x.link, x.target)
    · rw [hp, hx] at hy
      obtain rfl := Option.some.inj hy
      exact ⟨_, _, Table.find_save_self _ _, hlink, hs⟩
    · refine ⟨p, y, ?_, hlink, hs⟩
      rw [Table.find_save, key_execution, if_neg hp, hy]
  · intro p y hy hs
    rw [Table.find_save] at hy
    split at hy
    · obtain rfl := Option.some.inj hy
      exact (hc.landed _ x hx hs).trans hlanded
    · exact hc.landed p y hy hs

theorem contentInv_refuse {k : Nat} {f : Frame} {message : String}
    (hc : ContentInv d shadows events applied s) (hf : s.twin.frames.get k = some f) (hu : f.unsaved ≠ none) :
    ContentInv d shadows events applied
      { s with
        twin := { s.twin with frames := s.twin.frames.erase k }
        failures := s.failures.set k message } := by
  refine hc.still rfl (fun p x hx hs => ?_) rfl fun j g samples hg hcall => ?_
  · by_cases hk : x.standing = .awaits k
    · simp only [Landed, hk, hf, Table.get_set_self]
      exact iff_of_false (fun h => (by cases h.1)) fun h => hu (h.2 f rfl)
    · apply landed_congr
      intro j hj
      have hne : j ≠ k := fun he => hk (he ▸ hj)
      rw [Table.get_set_of_ne _ _ hne, Table.get_erase, if_neg hne]
      exact ⟨rfl, Iff.rfl⟩
  · rw [Table.get_erase] at hg
    split at hg
    · cases hg
    · exact hc.reads j g samples hg hcall

section Service

variable {k : Nat} {f : Frame} {twin : State}

theorem contentInv_goes {g : Option Frame} (hcalls : CallsInv shadows s)
    (hc : ContentInv d shadows events applied s) (hf : s.twin.frames.get k = some f)
    (hframes : ∀ j, twin.frames.get j = if j = k then g else s.twin.frames.get j)
    (hunsaved : ∀ samples, f.call = .mergeReported d samples →
      ((∀ f' ∈ g, f'.unsaved = none) ↔ f.unsaved = none))
    (hreport : (twin.shadow d).report = (s.twin.shadow d).report)
    (hreads : ∀ f' ∈ g, ∀ samples, f'.call = .mergeReported d samples → f'.Reads (s.twin.shadow d).report) :
    ContentInv d shadows events applied { s with twin := twin } := by
  refine hc.still rfl (fun p x hx hs => ?_) hreport fun j f' samples hf' hcall => ?_
  · apply landed_congr
    intro j hj
    refine ⟨rfl, ?_⟩
    rw [hframes]
    split
    · rename_i hjk
      subst hjk
      rw [hf, hunsaved _ (call_of_awaits hcalls hx hs hj hf)]
      simp
    · exact Iff.rfl
  · rw [hframes] at hf'
    split at hf'
    · exact hreads f' hf' samples hcall
    · exact hc.reads j f' samples hf' hcall

theorem contentInv_merges {samples : List ReportedSample} {row : DeviceShadow} (hi : HandlerInv d s)
    (hcalls : CallsInv shadows s) (hl : LogInv events s.bus) (hc : ContentInv d shadows events applied s)
    (hf : s.twin.frames.get k = some (.saving (.mergeReported d samples) row)) {row' : DeviceShadow}
    (hframes : ∀ j, twin.frames.get j =
      if j = k then some (.saved (.mergeReported d samples) row') else s.twin.frames.get j)
    (hshadow : twin.shadow d = (Call.mergeReported d samples).update row) :
    ∃ more, ContentInv d shadows events (applied ++ more) { s with twin := twin } := by
  obtain ⟨p, x, hx, hk⟩ := hcalls.merging k _ d samples hf rfl
  obtain ⟨hcall, hbusy⟩ := hcalls.numbered k _ hf
  have hevent : onTelemetryUpdated x.event = some (.mergeReported d samples) := by
    obtain ⟨call, hevent, hcall'⟩ := hcalls.awaited p x k hx hk
    rw [hcall] at hcall'
    rw [hevent, ← hcall']
    rfl
  have hsamples := samplesOf_eq hevent
  have hs : samplesOf d x.event ≠ [] := by
    rw [hsamples]
    rintro rfl
    cases hbusy
  have hnew : x.link ∉ applied := by
    rw [hc.landed p x hx hs, Landed, hk]
    rintro ⟨-, hsaved⟩
    cases hsaved _ hf
  refine ⟨[x.link], ?_⟩
  refine { increasing := ?_, known := ?_, landed := ?_, reads := ?_, report := ?_ }
  · rw [List.pairwise_append]
    refine ⟨hc.increasing, List.pairwise_singleton _ _, ?_⟩
    intro n hn m hm
    obtain rfl := List.mem_singleton.mp hm
    obtain ⟨q, y, hy, rfl, hsy⟩ := hc.known n hn
    by_contra hge
    have hlt : x.link < y.link := by
      rcases Nat.lt_trichotomy x.link y.link with h | h | h
      · exact h
      · exact absurd (h ▸ hn) hnew
      · exact absurd h hge
    have hdevice {z : Execution} (hz : samplesOf d z.event ≠ []) := (deviceId_of_telemetry (samplesOf_ne_nil hz)).1
    obtain ⟨failure, hsettled⟩ := settled_of_later hi hx hy (hdevice hs) (hdevice hsy) hlt
    rw [hk] at hsettled
    cases hsettled
  · intro n hn
    rcases List.mem_append.mp hn with hn | hn
    · exact hc.known n hn
    · obtain rfl := List.mem_singleton.mp hn
      exact ⟨p, x, hx, rfl, hs⟩
  · intro q y hy hsy
    rw [List.mem_append, List.mem_singleton, hc.landed q y hy hsy]
    by_cases hyk : y.standing = .awaits k
    · obtain rfl := hcalls.apart q p y x k hy hx hyk hk
      refine iff_of_true (.inr rfl) ?_
      rw [Landed, hk]
      refine ⟨?_, ?_⟩
      · cases hm : s.failures.get k with
        | none => rfl
        | some message =>
            have hnone := (hcalls.failed k message hm).2
            rw [hf] at hnone
            cases hnone
      · rw [hframes, if_pos rfl]
        rintro f' ⟨⟩
        rfl
    · have hne : y.link ≠ x.link := by
        intro he
        obtain rfl := eq_of_link hi hy hx he
        exact hyk hk
      rw [or_iff_left hne]
      refine (landed_congr fun j hj => ?_).symm
      have hjk : j ≠ k := by
        rintro rfl
        exact hyk hj
      rw [hframes, if_neg hjk]
      exact ⟨rfl, Iff.rfl⟩
  · intro j f' samples' hf' hcall'
    rw [hframes] at hf'
    split at hf'
    · cases hf'
      trivial
    · rename_i hne
      exact absurd (one_merge hi hcalls hf' hf hcall' rfl) hne
  · have hreads : row.report = (s.twin.shadow d).report := hc.reads k _ samples hf rfl
    rw [hc.report] at hreads
    obtain ⟨hreported, hversion⟩ := Prod.mk.inj hreads
    have hat : reportedAt d events x.link = samples := by
      rw [reportedAt, event_of_execution hi hl hx, Option.elim_some, hsamples]
    rw [hshadow, List.flatMap_append, List.flatMap_singleton, hat, List.foldl_append, ← hreported, List.length_append,
      List.length_singleton, ← Nat.add_assoc, ← hversion]
    rfl

theorem contentInv_commit (hi : HandlerInv d s) (hcalls : CallsInv shadows s) (hl : LogInv events s.bus)
    (hc : ContentInv d shadows events applied s) (h : Twin.step s.twin (.commit k) = some twin)
    (hkeep : ∀ f ∈ s.twin.frames.get k, f.Keeps d s.twin) :
    ∃ more, ContentInv d shadows events (applied ++ more) { s with twin := twin } := by
  have hstay (hn : ContentInv d shadows events applied { s with twin := twin }) :
      ∃ more, ContentInv d shadows events (applied ++ more) { s with twin := twin } :=
    ⟨[], by rwa [List.append_nil]⟩
  cases step_shape h with
  | @finds _ call hf =>
      apply hstay
      refine contentInv_goes hcalls hc hf (get_goto _ _ · _) (fun _ _ => by simp [Frame.unsaved]) rfl ?_
      rintro f' ⟨⟩ samples hcall
      have hdevice : call.deviceId = d := congrArg Call.deviceId hcall
      subst hdevice
      cases hrow : s.twin.shadows.find call.deviceId with
      | none => rw [Frame.Reads, State.shadow, hrow, Option.getD_none]
      | some row => rw [Frame.Reads, State.shadow, hrow, Option.getD_some]
  | @creates _ call hf =>
      apply hstay
      have hempty (hd : call.deviceId = d) : (emptyShadow d).report = (s.twin.shadow d).report := by
        have hk := hkeep _ hf
        cases call with
        | setDesired => exact hk hd
        | mergeReported =>
            cases hd
            exact hc.reads k _ _ hf rfl
      refine contentInv_goes hcalls hc hf (get_goto _ _ · _) (fun _ _ => by simp [Frame.unsaved]) ?_ ?_
      · have hrow : (emptyShadow call.deviceId).deviceId = call.deviceId := rfl
        rw [shadow_of_save (s := s.twin) rfl hrow]
        by_cases hd : call.deviceId = d
        · rw [if_pos hd, ← hempty hd, hd]
        · rw [if_neg hd]
      · rintro f' ⟨⟩ samples hcall
        have hdevice : call.deviceId = d := congrArg Call.deviceId hcall
        rw [Frame.Reads, hdevice]
        exact hempty hdevice
  | @saves _ call row hf =>
      have hown : (call.update row).deviceId = call.deviceId := (deviceId_update call row).trans (hcalls.twin.owns k _ hf)
      have hforeign (hreport : call.deviceId = d → (call.update row).report = (s.twin.shadow d).report)
          (hother : ∀ samples, call ≠ .mergeReported d samples) := hstay (by
        refine contentInv_goes hcalls hc hf (get_goto _ _ · _) (fun samples he => absurd he (hother samples)) ?_ ?_
        · rw [shadow_of_save (s := s.twin) rfl hown]
          by_cases hd : call.deviceId = d
          · rw [if_pos hd, hreport hd]
          · rw [if_neg hd]
        · rintro f' ⟨⟩ samples hcall
          trivial)
      cases call with
      | setDesired deviceId patch => exact hforeign (hkeep _ hf) fun _ he => by cases he
      | mergeReported deviceId samples =>
          by_cases hd : deviceId = d
          · subst hd
            refine contentInv_merges hi hcalls hl hc hf (get_goto _ _ · _) ?_
            exact (shadow_of_save (s := s.twin) rfl hown).trans (if_pos rfl)
          · apply hforeign (fun he => absurd he hd)
            rintro _ ⟨⟩
            exact hd rfl

theorem contentInv_resume (hcalls : CallsInv shadows s) (hc : ContentInv d shadows events applied s)
    (h : Twin.step s.twin (.resume k) = some twin) : ContentInv d shadows events applied { s with twin := twin } := by
  cases step_shape h with
  | @missing _ call hf =>
      refine contentInv_goes hcalls hc hf (get_goto _ _ · _) (fun _ _ => by simp [Frame.unsaved]) rfl ?_
      rintro f' ⟨⟩ samples hcall
      exact hc.reads k (.found call none) samples hf hcall
  | @loaded _ call row hf =>
      rcases hf with hf | hf
      · refine contentInv_goes hcalls hc hf (get_goto _ _ · _) (fun _ _ => by simp [Frame.unsaved]) rfl ?_
        rintro f' ⟨⟩ samples hcall
        exact hc.reads k (.found call (some row)) samples hf hcall
      · refine contentInv_goes hcalls hc hf (get_goto _ _ · _) (fun _ _ => by simp [Frame.unsaved]) rfl ?_
        rintro f' ⟨⟩ samples hcall
        exact hc.reads k (.created call row) samples hf hcall
  | @returns _ call row hf =>
      obtain ⟨hframes, hshadows, -, -⟩ := frames_finish (s := s.twin) k call row
      refine contentInv_goes (g := none) hcalls hc hf ?_ (fun _ _ => by simp [Frame.unsaved]) ?_ ?_
      · intro j
        rw [hframes, Table.get_erase]
      · rw [State.shadow, hshadows, State.shadow]
      · rintro f' ⟨⟩

end Service

/-- The bus gives up no event of the device, `setDesired` does not save over
what the device has reported meanwhile, and no handler fails with a value that
cannot be logged. -/
def Undisturbed (d : String) (s : Subscriber) : Action → Prop
  | .bus action => Bus.LogsMessage action ∧ Patient d s action
  | .commit k => ∀ f ∈ s.twin.frames.get k, f.Keeps d s.twin
  | _ => True

instance (d : String) (s : Subscriber) : ∀ action, Decidable (Patient d s action)
  | .timeout n i => inferInstanceAs (Decidable (∀ event ∈ s.bus.heardBy feed n i, event.deviceId ≠ some d))
  | .publish _ | .subscribe .. | .unsubscribe _ | .start _ | .invoke .. | .settle .. | .wake .. | .finish _ | .cleanup _ =>
      inferInstanceAs (Decidable True)

instance (d : String) (s : Subscriber) : ∀ a, Decidable (Undisturbed d s a)
  | .bus action => inferInstanceAs (Decidable (Bus.LogsMessage action ∧ Patient d s action))
  | .commit k => inferInstanceAs (Decidable (∀ f ∈ s.twin.frames.get k, f.Keeps d s.twin))
  | .setDesired .. | .refuse .. | .resume .. | .settle .. => inferInstanceAs (Decidable True)

structure StreamInv (d : String) (shadows : Table DeviceShadow) (events : List (DomainEvent Payload)) (s : Subscriber) :
    Prop where
  handler : HandlerInv d s
  calls : CallsInv shadows s
  log : LogInv events s.bus
  content : ∃ applied, ContentInv d shadows events applied s

theorem CallsInv.onBus (bus : Bus.State Payload) (hc : CallsInv shadows s) : CallsInv shadows { s with bus := bus } :=
  hc.frames hc.twin rfl rfl rfl fun _ g hg => ⟨g, hg, rfl⟩

theorem ContentInv.onBus (bus : Bus.State Payload) (hc : ContentInv d shadows events applied s) :
    ContentInv d shadows events applied { s with bus := bus } :=
  hc.still rfl (fun _ _ _ _ => Iff.rfl) rfl hc.reads

theorem streamInv_bus {a : Bus.Action Payload} {bus : Bus.State Payload} (hi : StreamInv d shadows events s)
    (ho : s.outside a = true) (hlogs : Bus.LogsMessage a) (hpatient : Patient d s a)
    (h : Bus.step s.bus a = some bus) :
    StreamInv d shadows (events ++ (Bus.publication a).toList) { s.called a with bus := bus } := by
  obtain ⟨applied, hc⟩ := hi.content
  have hfair : Fair a := by
    cases a with
    | publish | unsubscribe => simpa [outside, Fair] using ho
    | _ => exact hlogs
  have hquiet (hcalled : s.called a = s) (hne : ∀ n i, a = .invoke n i → s.bus.heardBy feed n i = none) :
      StreamInv d shadows (events ++ (Bus.publication a).toList) { s.called a with bus := bus } := by
    rw [hcalled]
    refine ⟨handlerInv_quiet hi.handler h rfl hfair fun n i r r' hr hsub hm => ?_, hi.calls.onBus bus,
      logInv_step hi.handler hi.log h hfair, applied, (hc.later hi.handler hi.log).onBus bus⟩
    apply stage_outside hi.handler ho hpatient hr hsub hm
    intro ha
    obtain ⟨l, -, hheard⟩ := Bus.heardBy_of_runAt hr hsub
    rw [hne n i ha] at hheard
    cases hheard
  cases a with
  | invoke n i =>
      cases hh : s.bus.heardBy feed n i with
      | none =>
          apply hquiet
          · rw [called, hh]
          · rintro _ _ ⟨⟩
            exact hh
      | some event =>
          have hfree : s.executions.find (n, i) = none := by
            rcases Bus.runAt_onRun (n := n) (i := i) h with ⟨-, hne⟩ | ⟨-, -, r, r', hr, -, hm⟩
            · exact absurd ⟨rfl, rfl⟩ hne
            · have hstage := hi.handler.stage n i r hr (hi.handler.listens.sub_of_heardBy hh hr)
              have hdue := (Bus.phase_invoke hm).1
              cases hx : s.executions.find (n, i) with
              | none => rfl
              | some x =>
                  rw [hx] at hstage
                  cases hstage with
                  | running hp | delivered hp | failed hp =>
                      rw [hdue] at hp
                      cases hp
          have hcalled : s.called (.invoke n i) = s.calls n i event := by rw [called, hh]
          rw [hcalled]
          obtain ⟨standing, hx⟩ := executions_calls (s := s) n i event
          exact ⟨handlerInv_invoke hi.handler h hh hx, (callsInv_calls hi.calls hfree).onBus bus,
            logInv_step hi.handler hi.log h hfair, applied,
            (contentInv_calls hi.handler hi.calls (hc.later hi.handler hi.log) hfree hh).onBus bus⟩
  | _ => exact hquiet rfl (fun _ _ ha => by cases ha)

theorem typed_handed {k : Nat} {twin : State} (h : Twin.step s.twin (.resume k) = some twin) :
    ∀ input ∈ handed s.twin twin, input.type = input.payload.eventType := by
  intro input hin
  cases step_shape h with
  | missing | loaded =>
      rw [handed, State.goto, List.drop_length] at hin
      cases hin
  | @returns _ call row hf =>
      cases call with
      | setDesired =>
          rw [handed, State.finish, List.drop_left] at hin
          rw [List.mem_singleton.mp hin]
          rfl
      | mergeReported =>
          rw [handed, State.finish, List.drop_length] at hin
          cases hin

theorem streamInv_step {a : Action} (hi : StreamInv d shadows events s) (hq : Undisturbed d s a)
    (h : step s a = some t) : StreamInv d shadows (events ++ published s a) t := by
  obtain ⟨applied, hc⟩ := hi.content
  cases a with
  | bus action =>
      rw [step] at h
      split at h
      · obtain ⟨bus, hbus, rfl⟩ := Option.map_eq_some_iff.mp h
        exact streamInv_bus hi ‹_› hq.1 hq.2 hbus
      · cases h
  | setDesired deviceId patch =>
      obtain rfl := Option.some.inj h
      show StreamInv d shadows (events ++ []) _
      rw [List.append_nil]
      exact ⟨hi.handler.congr rfl rfl, callsInv_desires hi.calls, hi.log, applied, contentInv_begins _ hi.calls hc⟩
  | commit k =>
      obtain ⟨twin, htwin, rfl⟩ := Option.map_eq_some_iff.mp h
      show StreamInv d shadows (events ++ []) _
      rw [List.append_nil]
      obtain ⟨more, hmore⟩ := contentInv_commit hi.handler hi.calls hi.log hc htwin hq
      exact ⟨hi.handler.congr rfl rfl, callsInv_twin hi.calls htwin (.inl rfl), hi.log, _, hmore⟩
  | refuse k message =>
      obtain ⟨f, hf, hrefuse⟩ := Option.bind_eq_some_iff.mp h
      show StreamInv d shadows (events ++ []) _
      rw [List.append_nil]
      cases f with
      | finding | creating | saving =>
          cases hrefuse
          exact ⟨hi.handler.congr rfl rfl, callsInv_refuse hi.calls hf, hi.log, applied,
            contentInv_refuse hc hf (Option.some_ne_none _)⟩
      | _ => cases hrefuse
  | resume k context eventId correlationId now =>
      obtain ⟨twin, htwin, rfl⟩ := Option.map_eq_some_iff.mp h
      rw [published, htwin, Option.elim_some]
      have htyped : ∀ event ∈ (handed s.twin twin).map (createEvent context eventId correlationId now),
          event.eventType = event.payload.eventType := by
        intro event he
        obtain ⟨input, hin, rfl⟩ := List.mem_map.mp he
        exact typed_handed htwin input hin
      have hhandler := handlerInv_publishes hi.handler htyped
      exact ⟨hhandler.congr rfl rfl, callsInv_twin hi.calls htwin (.inr rfl),
        logInv_publishes hi.handler hi.log htyped, applied,
        (contentInv_resume hi.calls (hc.later hi.handler hi.log) htwin).onBus _⟩
  | settle link target =>
      obtain ⟨x, hx, hsettle⟩ := Option.bind_eq_some_iff.mp h
      obtain ⟨rfl, rfl⟩ := Prod.mk.inj (show (x.link, x.target) = (link, target) from Table.key_of_find hx)
      show StreamInv d shadows (events ++ []) _
      rw [List.append_nil]
      refine ⟨handlerInv_settle hi.handler hx hsettle, callsInv_settle hi.calls hx hsettle, ?_, applied,
        contentInv_settle hi.calls hc hx hsettle⟩
      obtain ⟨failure, -, rfl⟩ := Option.map_eq_some_iff.mp hsettle
      cases hb : Bus.step s.bus (.settle x.link x.target (result failure)) with
      | none => exact hi.log
      | some bus =>
          have hlog : LogInv (events ++ []) bus := logInv_step hi.handler hi.log hb (fair_result _ _ _)
          rwa [List.append_nil] at hlog

theorem streamInv_run {as : List Action} (h : run step (init shadows) as = some s)
    (hq : Along step (Undisturbed d) (init shadows) as) :
    StreamInv d shadows (trace step published (init shadows) as) s := by
  have hstart : StreamInv d shadows [] (init shadows) :=
    ⟨handlerInv_init shadows, callsInv_init, logInv_init, [], contentInv_init⟩
  have hrun := logs_along published (fun _ _ => ([] : List Unit))
    (I := fun events _ s => StreamInv d shadows events s)
    (fun _ _ _ _ _ hi hq hs => streamInv_step hi hq hs) h hq (l := []) (m := []) hstart
  rwa [List.nil_append] at hrun

/-- What a device has reported is saved in the order of its publication,
whatever else goes on: the shadow is the fold of the telemetry events of the
device whose handling has not failed, and once nothing is in flight none of
them is missing. -/
theorem reported_follows_publication {as : List Action} (h : run step (init shadows) as = some s)
    (hq : Along step (Undisturbed d) (init shadows) as) :
    ∃ applied : List Nat, applied.Pairwise (· < ·) ∧
      (s.twin.shadow d).reported =
        (applied.flatMap (reportedAt d (trace step published (init shadows) as))).foldl assign
          (base shadows d).reported ∧
      (s.twin.shadow d).reportedVersion = (base shadows d).reportedVersion + applied.length ∧
      (∀ n ∈ applied, reportedAt d (trace step published (init shadows) as) n ≠ [] ∧ ¬ s.bus.GivenUp feed n) ∧
      (s.bus.inFlight = [] → ∀ n, reportedAt d (trace step published (init shadows) as) n ≠ [] →
        n ∈ applied ∨ s.bus.GivenUp feed n) := by
  have hi := streamInv_run h hq
  obtain ⟨applied, hc⟩ := hi.content
  obtain ⟨hreported, hversion⟩ := Prod.mk.inj hc.report
  refine ⟨applied, hc.increasing, hreported, hversion, fun n hn => ?_, fun hidle n hn => ?_⟩
  · obtain ⟨p, x, hx, rfl, hs⟩ := hc.known n hn
    refine ⟨?_, ?_⟩
    · rwa [reportedAt, event_of_execution hi.handler hi.log hx]
    · rintro ⟨i, r, hr, hsub, hp, -⟩
      obtain ⟨l, hl, hheard⟩ := Bus.heardBy_of_runAt hr hsub
      obtain rfl := hi.handler.listens.target_eq hheard (hi.handler.known p x hx)
      have hkey : (x.link, x.target) = p := Table.key_of_find hx
      have hstage := hi.handler.stage _ _ r hr hsub
      rw [hkey, hx] at hstage
      have hlanded := (hc.landed p x hx hs).mp hn
      cases hstage with
      | running hp' | delivered hp' =>
          rw [hp] at hp'
          cases hp'
      | failed _ hfailed =>
          obtain ⟨message, hm⟩ := hfailed (deviceId_of_telemetry (samplesOf_ne_nil hs)).1
          rw [Landed, hm] at hlanded
          cases hlanded
  · have hreported : ∃ event, (trace step published (init shadows) as)[n]? = some event ∧ samplesOf d event ≠ [] := by
      rw [reportedAt] at hn
      cases he : (trace step published (init shadows) as)[n]? with
      | none =>
          rw [he] at hn
          exact absurd rfl hn
      | some event =>
          rw [he] at hn
          exact ⟨event, rfl, hn⟩
    obtain ⟨event, he, hs⟩ := hreported
    have htype : event.eventType = feed.pattern :=
      (hi.log.typed event (List.mem_of_getElem? he)).trans (deviceId_of_telemetry (samplesOf_ne_nil hs)).2
    have hmatch : Bus.matchesPattern feed.pattern event.eventType = true := by
      rw [htype]
      decide
    obtain ⟨l, hl⟩ := hi.log.linked n event he hmatch
    have hevent := hi.log.numbered.event n l hl
    obtain rfl := Option.some.inj (he.symm.trans hevent)
    obtain ⟨i, r, hr, hsub, hrun, -⟩ := hi.handler.listens.exists_run hl hmatch
    rcases Bus.finished_of_idle hi.handler.delivery hi.handler.calm hidle hl r hr with hp | hp
    · left
      have hstage := hi.handler.stage n i r hrun hsub
      cases hx : s.executions.find (n, i) with
      | none =>
          rw [hx] at hstage
          cases hstage with
          | due hp' =>
              rw [hp] at hp'
              cases hp'
      | some x =>
          rw [hx] at hstage
          obtain ⟨rfl, rfl⟩ := Prod.mk.inj (show (x.link, x.target) = (n, i) from Table.key_of_find hx)
          obtain hsame := Option.some.inj (he.symm.trans (event_of_execution hi.handler hi.log hx))
          rw [hc.landed _ x hx (hsame ▸ hs)]
          cases hstage with
          | running hp' | failed hp' =>
              rw [hp] at hp'
              cases hp'
          | delivered _ hsettled => rw [Landed, hsettled]
    · exact .inr (Bus.givenUp_of_failed hi.handler.delivery hrun hsub hp)

def reading (eventId : String) (value : Rat) : Action :=
  .bus (.publish (createEvent none eventId "c1" 2
    { announce "module:telemetry"
        (.telemetryUpdated "poll" 1 [{ metric := "temperature", value := .num (.finite value) }]) with
      deviceId := some "ecda3b4ff7d4" }))

def goes (k : Nat) : Action := .resume k none "e9" "c9" 3

def readings : List Action :=
  [reading "e1" 20, reading "e2" 21, .setDesired "ecda3b4ff7d4" interval, .commit 0, goes 0, .commit 0, goes 0,
   .bus (.start 0), .bus (.invoke 0 0), .commit 1, goes 1, .commit 0, .commit 1, goes 0, goes 1, .settle 0 0,
   .bus (.finish 0), .bus (.cleanup 0), .bus (.start 1), .bus (.invoke 1 0), .refuse 2 "connection lost", .settle 1 0,
   .bus (.finish 1), .bus (.cleanup 1), reading "e3" 22, .bus (.start 3), .bus (.invoke 3 0), .commit 3, goes 3,
   .commit 3, goes 3, .settle 3 0, .bus (.finish 3), .bus (.cleanup 3)]

theorem readings_are_saved_in_order : ∃ s, run step (init .empty) readings = some s ∧
    ∃ applied : List Nat, applied.Pairwise (· < ·) ∧ 0 ∈ applied ∧ 3 ∈ applied ∧
      (s.twin.shadow "ecda3b4ff7d4").reportedVersion = applied.length := by
  have hend : ∃ s ∈ run step (init .empty) readings, s.bus.inFlight = [] ∧
      ∀ n ∈ [0, 3], ∀ l ∈ s.bus.links.find n, ∀ r ∈ l.runs, r.phase ≠ .failed := by decide +kernel
  obtain ⟨s, hs, hidle, hphase⟩ := hend
  obtain ⟨applied, hincreasing, -, hversion, -, hall⟩ :=
    reported_follows_publication (d := "ecda3b4ff7d4") hs (by decide +kernel)
  have hreported : ∀ n ∈ [0, 3], reportedAt "ecda3b4ff7d4" (trace step published (init .empty) readings) n ≠ [] := by
    decide +kernel
  have hmem : ∀ n ∈ [0, 3], n ∈ applied := by
    intro n hn
    apply (hall hidle n (hreported n hn)).resolve_right
    rintro ⟨i, r, hr, -, hp, -⟩
    obtain ⟨l, hl, hri⟩ := Bus.runAt_eq_some.mp hr
    exact hphase n hn l hl r (List.mem_of_getElem? hri) hp
  refine ⟨s, hs, applied, hincreasing, hmem 0 (by simp), hmem 3 (by simp), ?_⟩
  rw [hversion]
  exact Nat.zero_add _

end EspClawPlatform.Twin.Subscriber
