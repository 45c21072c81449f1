import EspClawPlatform.Devices.Containment

namespace EspClawPlatform.Devices.Introspection

open Run EspClaw

variable {web : Web} {allowedHosts : List String} {s t u : State} {id url : String} {call : Nat}
  {catalog : CapabilityCatalog}

section SaveCatalog

variable {rows : Table DeviceCapability} {now : Nat} {d g : String}

def upserts (rows : Table DeviceCapability) (id : String) (now : Nat) (items : List CapabilityGroup) :
    Table DeviceCapability :=
  items.foldl (fun rows g => rows.save (upserted rows id now g)) rows

theorem find_upserts_other {items : List CapabilityGroup} (h : d = id → g ∉ items.map (·.groupId)) :
    (upserts rows id now items).find (d, g) = rows.find (d, g) := by
  induction items generalizing rows with
  | nil => rfl
  | cons item items ih =>
      have hne : (d, g) ≠ Keyed.key (upserted rows id now item) := by
        intro he
        obtain ⟨hd, hg⟩ := Prod.mk.inj he
        exact h hd (hg ▸ List.mem_cons_self)
      have hrest : d = id → g ∉ items.map (·.groupId) := fun hd hg => h hd (List.mem_cons_of_mem _ hg)
      exact (ih hrest).trans (Table.find_save_of_ne rows hne)

variable (rows id now) in
theorem find_upserts {items : List CapabilityGroup} (h : g ∈ items.map (·.groupId)) :
    ((upserts rows id now items).find (id, g)).map (·.firstSeenAt) =
      some (((rows.find (id, g)).map (·.firstSeenAt)).getD now) := by
  induction items generalizing rows with
  | nil => cases h
  | cons item items ih =>
      have hstep : upserts rows id now (item :: items) =
          upserts (rows.save (upserted rows id now item)) id now items := rfl
      rw [hstep]
      by_cases hg : g = item.groupId
      · have hsaved : (rows.save (upserted rows id now item)).find (id, g) = some (upserted rows id now item) := by
          rw [hg]
          exact Table.find_save_self rows _
        by_cases hrest : g ∈ items.map (·.groupId)
        · rw [ih _ hrest, hsaved, hg]
          rfl
        · rw [find_upserts_other fun _ => hrest, hsaved, hg]
          rfl
      · have hrest : g ∈ items.map (·.groupId) := (List.mem_cons.mp h).resolve_left hg
        have hne : (id, g) ≠ Keyed.key (upserted rows id now item) := fun he => hg (Prod.mk.inj he).2
        rw [ih _ hrest, Table.find_save_of_ne rows hne]

theorem find_saveCatalog_other (h : d ≠ id) : (saveCatalog rows id now catalog).find (d, g) = rows.find (d, g) := by
  have hkept (p : DeviceCapability → Bool) (hp : ∀ r, r.deviceId ≠ id → p r = true) (found : Option DeviceCapability)
      (hfound : found = rows.find (d, g)) : found.filter p = found := by
    cases found with
    | none => rfl
    | some r =>
        have hkey : (r.deviceId, r.groupId) = (d, g) := Table.key_of_find hfound.symm
        exact Option.filter_some_pos (hp r fun he => h ((Prod.mk.inj hkey).1.symm.trans he))
  rw [saveCatalog]
  split
  · have hsame : (upserts rows id now catalog.items).find (d, g) = rows.find (d, g) :=
      find_upserts_other fun hd => absurd hd h
    rw [Table.find_filter]
    exact (hkept _ (fun r hr => by simp [hr]) _ hsame).trans hsame
  · rw [Table.find_filter]
    exact hkept _ (fun r hr => by simp [hr]) _ rfl

theorem find_saveCatalog (rows : Table DeviceCapability) (id : String) (now : Nat) (catalog : CapabilityCatalog)
    (g : String) :
    ((saveCatalog rows id now catalog).find (id, g)).map (·.firstSeenAt) =
      if g ∈ catalog.items.map (·.groupId) then some (((rows.find (id, g)).map (·.firstSeenAt)).getD now)
      else none := by
  rw [saveCatalog]
  by_cases hitems : catalog.items = []
  · rw [if_neg (not_not.mpr hitems), hitems, List.map_nil, if_neg List.not_mem_nil, Table.find_filter, Option.map_eq_none_iff,
      Option.filter_eq_none_iff]
    intro r hr
    have hkey := Table.key_of_find hr
    simpa using (Prod.mk.inj hkey).1
  · rw [if_pos hitems, Table.find_filter]
    split
    · rename_i hg
      have hfind := find_upserts id rows now hg
      obtain ⟨r, hr, -⟩ := Option.map_eq_some_iff.mp hfind
      have hkey := Table.key_of_find hr
      rw [← hfind]
      congr 1
      change ((upserts rows id now catalog.items).find (id, g)).filter _ = _
      rw [hr]
      apply Option.filter_some_pos
      have hgroup : r.groupId = g := (Prod.mk.inj hkey).2
      simp only [hgroup, mem_capabilityGroupIds.mpr hg, decide_true, Bool.or_true]
    · rename_i hg
      rw [Option.map_eq_none_iff, Option.filter_eq_none_iff]
      intro r hr
      have hkey := Table.key_of_find hr
      obtain ⟨hdevice, hgroup⟩ := Prod.mk.inj hkey
      simpa [hgroup, hdevice, mem_capabilityGroupIds] using hg

end SaveCatalog

inductive Await
  | find | fetch | read | save | list
  deriving DecidableEq

/-- The awaits of a refresh as they come to their ends: with a fault, the awaited operation there rejects. -/
def refreshAwaits (call : Nat) (res : Response) (body : String) : Option (Await × String) → List Action
  | none =>
      [.resume call .none, .resume call (.response res), .resume call (.text body), .resume call .none,
        .resume call .none]
  | some (.find, message) => [.reject call message]
  | some (.fetch, message) => [.resume call .none, .reject call message]
  | some (.read, message) => [.resume call .none, .resume call (.response res), .reject call message]
  | some (.save, message) =>
      [.resume call .none, .resume call (.response res), .resume call (.text body), .reject call message]
  | some (.list, message) =>
      [.resume call .none, .resume call (.response res), .resume call (.text body), .resume call .none,
        .reject call message]

section Refresh

variable (web allowedHosts)

def located (baseUrl : Option String) (device : Option DeviceRow) : Option (String × FetchRequest) := do
  let device ← device
  let requested := trim ((baseUrl.or device.localApiBaseUrl).getD "")
  if requested = "" then none
  else
    let url ← (validateBaseUrl web allowedHosts requested).toOption
    let request ← (getJson web allowedHosts url "/api/capabilities").toOption
    return (url, request)

def received (url : String) (res : Response) (body : String) : Option CapabilityCatalog := do
  let _ ← (gotResponse url res).toOption
  let raw ← (gotText web url body).toOption
  parseCapabilityCatalog raw

def accepted (s : State) (id : String) (baseUrl : Option String) (res : Response) (body : String) :
    Option (String × CapabilityCatalog) := do
  let (url, request) ← located web allowedHosts baseUrl (s.devices.find id)
  let catalog ← received web request.url res body
  return (url, catalog)

def refreshed (s : State) (id : String) (baseUrl : Option String) (res : Response) (body : String)
    (fault : Option (Await × String)) : State :=
  drive (step web allowedHosts) s (.call (.refreshCapabilities id baseUrl) :: refreshAwaits s.calls res body fault)

end Refresh

/-- From `s` to `t` the groups of the device have become those of the catalog. -/
structure Installs (s t : State) (id : String) (catalog : CapabilityCatalog) : Prop where
  groups : ∀ g, (t.capabilities.find (id, g)).isSome = true ↔ g ∈ catalog.items.map (·.groupId)
  kept : ∀ g before after, s.capabilities.find (id, g) = some before → t.capabilities.find (id, g) = some after →
    after.firstSeenAt = before.firstSeenAt
  others : ∀ d, d ≠ id → t.devices.find d = s.devices.find d ∧
    ∀ g, t.capabilities.find (d, g) = s.capabilities.find (d, g)

def Unchanged (s t : State) : Prop := t.devices = s.devices ∧ t.capabilities = s.capabilities

theorem installs_commit (s : State) (id url : String) (catalog : CapabilityCatalog) :
    Installs s (s.commit id url catalog) id catalog where
  groups := by
    intro g
    have hfind := find_saveCatalog s.capabilities id s.now catalog g
    rw [← Option.isSome_map (f := DeviceCapability.firstSeenAt)]
    change (((saveCatalog s.capabilities id s.now catalog).find (id, g)).map (·.firstSeenAt)).isSome = true ↔ _
    rw [hfind]
    split
    · rename_i hg
      exact ⟨fun _ => hg, fun _ => rfl⟩
    · rename_i hg
      exact ⟨fun h => absurd h Bool.false_ne_true, fun h => absurd h hg⟩
  kept := by
    intro g before after hbefore hafter
    have hfind := find_saveCatalog s.capabilities id s.now catalog g
    change (saveCatalog s.capabilities id s.now catalog).find (id, g) = some after at hafter
    rw [hafter, hbefore] at hfind
    split at hfind
    · exact Option.some.inj hfind
    · cases hfind
  others := by
    intro d hd
    refine ⟨?_, fun g => find_saveCatalog_other hd⟩
    simp only [State.commit, Table.find_modify]
    cases hfound : s.devices.find d with
    | none => rfl
    | some row =>
        have hne : row.id ≠ id := fun he => hd ((Table.key_of_find hfound).symm.trans he)
        rw [Option.map_some, DeviceRow.refreshed, if_neg hne]

structure Stands (s : State) (call : Nat) (frame : Option Frame) (t : State) : Prop where
  frame : t.frames.get call = frame
  unchanged : Unchanged s t
  now : t.now = s.now

theorem stands_perform {e : Effect} {frame : Option Frame} (h : Stands s call frame u) (hcommit : e.commit = none) :
    Stands s call e.next.frame (u.perform call e) where
  frame := by rw [get_perform, if_pos rfl]
  unchanged := by
    rw [State.perform, State.committed, hcommit]
    exact h.unchanged
  now := by
    rw [State.perform, State.committed, hcommit]
    exact h.now

def Ends (call : Nat) (a : Action) : Prop := (∃ answer, a = .resume call answer) ∨ ∃ message, a = .reject call message

theorem drive_over {as : List Action} (h : u.frames.get call = none)
    (has : ∀ a ∈ as, Ends call a) :
    drive (step web allowedHosts) u as = u := by
  cases as with
  | nil => rfl
  | cons a as =>
      apply drive_stuck
      rcases has a List.mem_cons_self with ⟨answer, rfl⟩ | ⟨message, rfl⟩
      · simp only [step, h, Option.bind_eq_bind, Option.bind_none]
      · simp only [step, h, Option.bind_eq_bind, Option.bind_none]

theorem step_resume {f : Frame} {answer : Answer} {e : Effect} (hf : u.frames.get call = some f)
    (he : f.resume web allowedHosts u answer = some e) :
    step web allowedHosts u (.resume call answer) = some (u.perform call e) := by
  simp only [step, hf, he, Option.bind_eq_bind, Option.bind_some]

theorem step_reject {f : Frame} (hf : u.frames.get call = some f) (message : String) :
    step web allowedHosts u (.reject call message) =
      some (u.perform call { next := throw (.thrown (.error message)) }) := by
  simp only [step, hf, Option.bind_eq_bind, Option.bind_some]

theorem drive_resume {f : Frame} (answer : Answer) {e : Effect} (h : Stands s call (some f) u)
    (he : f.resume web allowedHosts u answer = some e) (hcommit : e.commit = none) (as : List Action) :
    ∃ v, Stands s call e.next.frame v ∧
      drive (step web allowedHosts) u (.resume call answer :: as) = drive (step web allowedHosts) v as :=
  ⟨u.perform call e, stands_perform h hcommit, drive_cons (step_resume h.frame he)⟩

variable (web allowedHosts) in
theorem startFetch_spec (caller : Caller) (baseUrl : String) :
    (startFetch web allowedHosts caller baseUrl).commit = none ∧
      (startFetch web allowedHosts caller baseUrl).next.frame =
        (getJson web allowedHosts baseUrl caller.path).toOption.map fun request => .fetching caller request.url := by
  rw [startFetch]
  cases getJson web allowedHosts baseUrl caller.path with
  | error error => exact ⟨rfl, rfl⟩
  | ok request => exact ⟨rfl, rfl⟩

variable (web allowedHosts id) in
theorem refreshFound_spec (baseUrl : Option String) (device : Option DeviceRow) :
    (refreshFound web allowedHosts id baseUrl device).commit = none ∧
      (refreshFound web allowedHosts id baseUrl device).next.frame =
        (located web allowedHosts baseUrl device).map fun x => .fetching (.refreshCapabilities id x.1) x.2.url := by
  cases device with
  | none => exact ⟨rfl, rfl⟩
  | some device =>
      simp only [refreshFound, located, Option.bind_eq_bind, Option.bind_some]
      split
      · exact ⟨rfl, rfl⟩
      · cases validateBaseUrl web allowedHosts (trim ((baseUrl.or device.localApiBaseUrl).getD "")) with
        | error message => exact ⟨rfl, rfl⟩
        | ok url =>
            have hfetch := startFetch_spec web allowedHosts
              (.refreshCapabilities id url) url
            refine ⟨hfetch.1, hfetch.2.trans ?_⟩
            simp only [Caller.path, Except.toOption, Option.bind_some]
            cases getJson web allowedHosts url "/api/capabilities" <;> rfl

variable (web allowedHosts) in
theorem drive_found {baseUrl : Option String} (h : Stands s call (some (.finding id baseUrl)) u) (as : List Action) :
    ∃ v, Stands s call
        ((located web allowedHosts baseUrl (s.devices.find id)).map fun x =>
          .fetching (.refreshCapabilities id x.1) x.2.url) v ∧
      drive (step web allowedHosts) u (.resume call .none :: as) = drive (step web allowedHosts) v as := by
  have hspec := refreshFound_spec web allowedHosts id baseUrl (u.devices.find id)
  obtain ⟨v, hv, hdrive⟩ := drive_resume .none h rfl hspec.1 as
  rw [hspec.2, h.unchanged.1] at hv
  exact ⟨v, hv, hdrive⟩

variable (allowedHosts) in
theorem drive_received {target : Option (String × FetchRequest)} (res : Response) (body : String)
    {as : List Action} (has : ∀ a ∈ as, Ends call a)
    (h : Stands s call (target.map fun x => .fetching (.refreshCapabilities id x.1) x.2.url) u) :
    ∃ v, Stands s call
        (target.bind fun x => (received web x.2.url res body).map fun catalog => .saving id x.1 catalog) v ∧
      drive (step web allowedHosts) u (.resume call (.response res) :: .resume call (.text body) :: as) =
        drive (step web allowedHosts) v as := by
  have hover {v : State} (bs : List Action) (hv : v.frames.get call = none) (hbs : ∀ b ∈ bs, Ends call b) :
      drive (step web allowedHosts) v (bs ++ as) = drive (step web allowedHosts) v as := by
    rw [drive_over hv has, drive_over hv]
    intro a ha
    exact (List.mem_append.mp ha).elim (hbs a) (has a)
  cases target with
  | none =>
      refine ⟨u, h, hover [.resume call (.response res), .resume call (.text body)] h.frame ?_⟩
      intro b hb
      rcases List.mem_pair.mp hb with rfl | rfl
      · exact .inl ⟨_, rfl⟩
      · exact .inl ⟨_, rfl⟩
  | some x =>
      obtain ⟨v, hv, hdrive⟩ := drive_resume (.response res) h rfl rfl (.resume call (.text body) :: as)
      rw [hdrive]
      simp only [Option.bind_some, received]
      cases hresponse : gotResponse x.2.url res with
      | error error =>
          rw [hresponse] at hv
          refine ⟨v, hv, hover [.resume call (.text body)] hv.frame ?_⟩
          intro b hb
          exact .inl ⟨_, List.mem_singleton.mp hb⟩
      | ok response =>
          rw [hresponse] at hv
          obtain ⟨w, hw, hdrive'⟩ := drive_resume (.text body) hv rfl rfl as
          refine ⟨w, ?_, hdrive'⟩
          convert hw using 1
          cases gotText web x.2.url body with
          | error error => rfl
          | ok raw =>
              simp only [Except.toOption, Option.bind_eq_bind, Option.bind_some, Caller.receive]
              cases parseCapabilityCatalog raw <;> rfl

theorem unchanged_perform {e : Effect} (h : Unchanged s u) (hcommit : e.commit = none) :
    Unchanged s (u.perform call e) := by
  rw [Unchanged, State.perform, State.committed, hcommit]
  exact h

theorem resume_commit {f : Frame} {answer : Answer} {e : Effect} (h : f.resume web allowedHosts u answer = some e)
    (ha : answer ≠ .none) : e.commit = none := by
  cases f with
  | finding | saving | listing =>
      cases answer with
      | none => exact absurd rfl ha
      | response | text => cases h
  | fetching | reading =>
      cases answer <;> cases h
      rfl

theorem unchanged_drive {as : List Action} (h : Unchanged s u)
    (has : ∀ a ∈ as, Ends call a ∧ a ≠ .resume call .none) : Unchanged s (drive (step web allowedHosts) u as) := by
  induction as generalizing u with
  | nil => exact h
  | cons a as ih =>
      cases hstep : step web allowedHosts u a with
      | none => rwa [drive_stuck hstep]
      | some v =>
          rw [drive_cons hstep]
          refine ih ?_ fun b hb => has b (List.mem_cons_of_mem a hb)
          obtain ⟨⟨answer, rfl⟩ | ⟨message, rfl⟩, hne⟩ := has a List.mem_cons_self
          · obtain ⟨f, hf, hstep⟩ := Option.bind_eq_some_iff.mp hstep
            obtain ⟨e, he, hstep⟩ := Option.bind_eq_some_iff.mp hstep
            cases hstep
            exact unchanged_perform h (resume_commit he fun hanswer => hne (hanswer ▸ rfl))
          · obtain ⟨f, hf, hstep⟩ := Option.bind_eq_some_iff.mp hstep
            cases hstep
            exact unchanged_perform h rfl

variable {baseUrl : Option String} {res : Response} {body : String} {fault : Option (Await × String)}

theorem refreshed_eq (web : Web) (allowedHosts : List String) (s : State) (id : String) (baseUrl : Option String)
    (res : Response) (body : String) (fault : Option (Await × String)) :
    ∃ u, Stands s s.calls (some (.finding id baseUrl)) u ∧
      refreshed web allowedHosts s id baseUrl res body fault =
        drive (step web allowedHosts) u (refreshAwaits s.calls res body fault) := by
  refine ⟨_, ?_, drive_cons rfl⟩
  exact ⟨Table.get_set_self _ _ _, ⟨rfl, rfl⟩, rfl⟩

theorem early_fault (h : Stands s call (some (.finding id baseUrl)) u) {place : Await} (hplace : place ≠ .list)
    (message : String) :
    Unchanged s (drive (step web allowedHosts) u (refreshAwaits call res body (some (place, message)))) := by
  have hreject : ∀ {as : List Action}, (∀ a ∈ as, a = .resume call (.response res) ∨ a = .resume call (.text body) ∨
      a = .reject call message) → ∀ a ∈ as, Ends call a ∧ a ≠ .resume call .none := by
    intro as has a ha
    rcases has a ha with rfl | rfl | rfl
    · exact ⟨.inl ⟨_, rfl⟩, fun h => (by cases h)⟩
    · exact ⟨.inl ⟨_, rfl⟩, fun h => (by cases h)⟩
    · exact ⟨.inr ⟨_, rfl⟩, fun h => (by cases h)⟩
  have hfound : ∀ {as : List Action}, (∀ a ∈ as, a = .resume call (.response res) ∨ a = .resume call (.text body) ∨
      a = .reject call message) → Unchanged s (drive (step web allowedHosts) u (.resume call .none :: as)) := by
    intro as has
    obtain ⟨v, hv, hdrive⟩ := drive_found web allowedHosts h as
    rw [hdrive]
    exact unchanged_drive hv.unchanged (hreject has)
  cases place with
  | find => exact unchanged_drive h.unchanged (hreject (by simp [refreshAwaits]))
  | fetch => exact hfound (by simp)
  | read => exact hfound (by simp)
  | save => exact hfound (by simp)
  | list => exact absurd rfl hplace

variable (web allowedHosts res body) in
theorem drive_accepted (h : Stands s call (some (.finding id baseUrl)) u) {as : List Action}
    (has : ∀ a ∈ as, Ends call a) :
    ∃ v, Stands s call
        ((accepted web allowedHosts s id baseUrl res body).map fun x => .saving id x.1 x.2) v ∧
      drive (step web allowedHosts) u
          (.resume call .none :: .resume call (.response res) :: .resume call (.text body) :: as) =
        drive (step web allowedHosts) v as := by
  obtain ⟨v, hv, hfound⟩ := drive_found web allowedHosts h
    (.resume call (.response res) :: .resume call (.text body) :: as)
  obtain ⟨w, hw, hreceived⟩ := drive_received allowedHosts res body has hv
  refine ⟨w, ?_, hfound.trans hreceived⟩
  convert hw using 1
  rw [accepted]
  cases located web allowedHosts baseUrl (s.devices.find id) with
  | none => rfl
  | some x =>
      simp only [Option.bind_eq_bind, Option.bind_some]
      cases received web x.2.url res body <;> rfl

variable (web allowedHosts) in
theorem drive_saved (h : Stands s call (some (.saving id url catalog)) u) (as : List Action) :
    if (catalog.items.map (·.groupId)).Nodup then
      ∃ v, v.frames.get call = some (.listing id) ∧ v.devices = (s.commit id url catalog).devices ∧
        v.capabilities = (s.commit id url catalog).capabilities ∧
          drive (step web allowedHosts) u (.resume call .none :: as) = drive (step web allowedHosts) v as
    else drive (step web allowedHosts) u (.resume call .none :: as) = u := by
  split
  · rename_i hnodup
    have hresume : (Frame.saving id url catalog).resume web allowedHosts u .none =
        some { commit := some (id, url, catalog), next := .await (.listing id) } := if_pos hnodup
    refine ⟨_, ?_, ?_, ?_, drive_cons (step_resume h.frame hresume)⟩
    · exact Table.get_set_self _ _ _
    · change (u.commit id url catalog).devices = (s.commit id url catalog).devices
      simp only [State.commit, h.unchanged.1, h.now]
    · change (u.commit id url catalog).capabilities = (s.commit id url catalog).capabilities
      simp only [State.commit, h.unchanged.2, h.now]
  · rename_i hrepeats
    have hresume : (Frame.saving id url catalog).resume web allowedHosts u .none = none := if_neg hrepeats
    apply drive_stuck
    simp only [step, h.frame, hresume, Option.bind_eq_bind, Option.bind_some, Option.bind_none]

/-- A refresh without a fault whose catalog is accepted succeeds and installs
the catalog; any other refresh changes nothing. -/
structure Refreshes (web : Web) (allowedHosts : List String) (s : State) (id : String) (baseUrl : Option String)
    (res : Response) (body : String) (fault : Option (Await × String)) : Prop where
  installs : fault = none → ∀ x, accepted web allowedHosts s id baseUrl res body = some x →
    (∃ rows, (refreshed web allowedHosts s id baseUrl res body fault).results.get s.calls =
      some (.ok (.capabilities rows))) ∧
    (refreshed web allowedHosts s id baseUrl res body fault).frames.get s.calls = none ∧
    Installs s (refreshed web allowedHosts s id baseUrl res body fault) id x.2
  unchanged : fault ≠ none ∨ accepted web allowedHosts s id baseUrl res body = none →
    Unchanged s (refreshed web allowedHosts s id baseUrl res body fault)

theorem unchanged_of_refused (h : accepted web allowedHosts s id baseUrl res body = none) :
    Unchanged s (refreshed web allowedHosts s id baseUrl res body fault) := by
  obtain ⟨u, hu, heq⟩ := refreshed_eq web allowedHosts s id baseUrl res body fault
  have hgo : ∀ as : List Action, (∀ a ∈ as, Ends s.calls a) → Unchanged s (drive (step web allowedHosts) u
      (.resume s.calls .none :: .resume s.calls (.response res) :: .resume s.calls (.text body) :: as)) := by
    intro as has
    obtain ⟨v, hv, hdrive⟩ := drive_accepted web allowedHosts res body hu has
    rw [h] at hv
    rw [hdrive, drive_over hv.frame has]
    exact hv.unchanged
  rw [heq]
  cases fault with
  | none =>
      apply hgo
      intro a ha
      rcases List.mem_pair.mp ha with rfl | rfl
      · exact .inl ⟨_, rfl⟩
      · exact .inl ⟨_, rfl⟩
  | some x =>
      obtain ⟨place, message⟩ := x
      by_cases hplace : place = .list
      · subst hplace
        apply hgo
        intro a ha
        rcases List.mem_pair.mp ha with rfl | rfl
        · exact .inl ⟨_, rfl⟩
        · exact .inr ⟨_, rfl⟩
      · exact early_fault hu hplace message

variable {x : String × CapabilityCatalog}

theorem refreshed_without_fault (h : accepted web allowedHosts s id baseUrl res body = some x) :
    ((∃ rows, (refreshed web allowedHosts s id baseUrl res body none).results.get s.calls =
        some (.ok (.capabilities rows))) ∧
      (refreshed web allowedHosts s id baseUrl res body none).frames.get s.calls = none ∧
      Installs s (refreshed web allowedHosts s id baseUrl res body none) id x.2) ↔
    (x.2.items.map (·.groupId)).Nodup := by
  obtain ⟨url, catalog⟩ := x
  obtain ⟨u, hu, heq⟩ := refreshed_eq web allowedHosts s id baseUrl res body none
  have hends : ∀ a ∈ [Action.resume s.calls .none, .resume s.calls .none], Ends s.calls a := by
    intro a ha
    rcases List.mem_pair.mp ha with rfl | rfl
    · exact .inl ⟨_, rfl⟩
    · exact .inl ⟨_, rfl⟩
  obtain ⟨v, hv, hdrive⟩ := drive_accepted web allowedHosts res body hu hends
  rw [h] at hv
  have hsaved := drive_saved web allowedHosts hv [.resume s.calls .none]
  rw [heq, refreshAwaits, hdrive]
  constructor
  · rintro ⟨-, hover, -⟩
    by_contra hrepeats
    rw [if_neg hrepeats] at hsaved
    rw [hsaved, hv.frame] at hover
    cases hover
  · intro hnodup
    rw [if_pos hnodup] at hsaved
    obtain ⟨w, hframe, hdevices, hcapabilities, hlisted⟩ := hsaved
    rw [hlisted, drive_cons (step_resume hframe rfl), drive]
    refine ⟨⟨_, Table.get_set_self _ _ _⟩, Table.get_erase_self _ _, ?_⟩
    have hinstalls := installs_commit s id url catalog
    exact
      { groups := fun g => hcapabilities ▸ hinstalls.groups g
        kept := fun g before after hbefore hafter => hinstalls.kept g before after hbefore (hcapabilities ▸ hafter)
        others := fun d hd => ⟨hdevices ▸ (hinstalls.others d hd).1, fun g => hcapabilities ▸ (hinstalls.others d hd).2 g⟩ }

theorem refreshed_unlisted (h : accepted web allowedHosts s id baseUrl res body = some x) (message : String) :
    Unchanged s (refreshed web allowedHosts s id baseUrl res body (some (.list, message))) ↔
      ((x.2.items.map (·.groupId)).Nodup → Unchanged s (s.commit id x.1 x.2)) := by
  obtain ⟨url, catalog⟩ := x
  obtain ⟨u, hu, heq⟩ := refreshed_eq web allowedHosts s id baseUrl res body (some (.list, message))
  have hends : ∀ a ∈ [Action.resume s.calls .none, .reject s.calls message], Ends s.calls a := by
    intro a ha
    rcases List.mem_pair.mp ha with rfl | rfl
    · exact .inl ⟨_, rfl⟩
    · exact .inr ⟨_, rfl⟩
  obtain ⟨v, hv, hdrive⟩ := drive_accepted web allowedHosts res body hu hends
  rw [h] at hv
  have hsaved := drive_saved web allowedHosts hv [.reject s.calls message]
  rw [heq, refreshAwaits, hdrive]
  by_cases hnodup : (catalog.items.map (·.groupId)).Nodup
  · rw [if_pos hnodup] at hsaved
    obtain ⟨w, hframe, hdevices, hcapabilities, hrejected⟩ := hsaved
    rw [hrejected, drive_cons (step_reject hframe message), drive, forall_prop_of_true hnodup]
    have hcommitted : Unchanged s w ↔ Unchanged s (s.commit id url catalog) := by
      rw [Unchanged, Unchanged, hdevices, hcapabilities]
    exact hcommitted
  · rw [if_neg hnodup] at hsaved
    rw [hsaved]
    exact ⟨fun _ hn => absurd hn hnodup, fun _ => hv.unchanged⟩

/-- A refresh does what it is for exactly when the catalog names no group twice
and what fails is not the query after the commit, unless the commit has left
everything as it was. -/
theorem refresh_iff (web : Web) (allowedHosts : List String) (s : State) (id : String) (baseUrl : Option String)
    (res : Response) (body : String) (fault : Option (Await × String)) :
    Refreshes web allowedHosts s id baseUrl res body fault ↔
      ∀ url catalog, accepted web allowedHosts s id baseUrl res body = some (url, catalog) →
        (fault = none → (catalog.items.map (·.groupId)).Nodup) ∧
          ((∃ message, fault = some (.list, message)) → (catalog.items.map (·.groupId)).Nodup →
            Unchanged s (s.commit id url catalog)) := by
  constructor
  · intro hrefreshes url catalog haccepted
    constructor
    · rintro rfl
      exact (refreshed_without_fault haccepted).mp (hrefreshes.installs rfl _ haccepted)
    · rintro ⟨message, rfl⟩
      exact (refreshed_unlisted haccepted message).mp (hrefreshes.unchanged (.inl nofun))
  · intro hcondition
    constructor
    · rintro rfl x haccepted
      exact (refreshed_without_fault haccepted).mpr ((hcondition x.1 x.2 haccepted).1 rfl)
    · intro hcase
      cases haccepted : accepted web allowedHosts s id baseUrl res body with
      | none => exact unchanged_of_refused haccepted
      | some x =>
          cases fault with
          | none => exact absurd (hcase.resolve_left (not_not.mpr rfl)) (by rw [haccepted]; nofun)
          | some y =>
              obtain ⟨place, message⟩ := y
              by_cases hplace : place = .list
              · subst hplace
                exact (refreshed_unlisted haccepted message).mpr ((hcondition x.1 x.2 haccepted).2 ⟨message, rfl⟩)
              · obtain ⟨u, hu, heq⟩ := refreshed_eq web allowedHosts s id baseUrl res body (some (place, message))
                rw [heq]
                exact early_fault hu hplace message

def repeatingWeb : Web :=
  { lanWeb with
    parseJson := fun _ => some (.obj [("items",
      .arr [.obj [("group_id", .str "cap_mqtt")], .obj [("group_id", .str "cap_mqtt")]])]) }

theorem repeated_group_fails : ¬ ∀ (web : Web) (allowedHosts : List String) (s : State) (id : String)
    (baseUrl : Option String) (res : Response) (body : String) (fault : Option (Await × String)),
    Refreshes web allowedHosts s id baseUrl res body fault := by
  intro h
  have hrefreshes := h repeatingWeb [] (.boot lanDevices .empty) "dev" none
    { ok := true, status := 200, contentLength := none } "" none
  have haccepted : accepted repeatingWeb [] (.boot lanDevices .empty) "dev" none
      { ok := true, status := 200, contentLength := none } "" =
      some ("http://192.168.1.20:8080",
        { items := List.replicate 2 { groupId := "cap_mqtt", displayName := "", defaultLlmVisible := false } }) := by
    decide +kernel
  exact absurd ((refreshed_without_fault haccepted).mp (hrefreshes.installs rfl _ haccepted)) (by decide)

end EspClawPlatform.Devices.Introspection
