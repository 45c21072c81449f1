import EspClawPlatform.EspClaw.Guard
import EspClawPlatform.Devices.Introspection

namespace EspClawPlatform.Devices.Introspection

open Run EspClaw

variable {web : Web} {allowedHosts : List String} {s t : State}

def Caller.target : Caller → Option String
  | .refreshCapabilities _ url => some url
  | .fetchCapabilities | .fetchStatus => none

def Frame.target : Frame → Option String
  | .fetching caller _ | .reading caller _ => caller.target
  | .saving _ url _ => some url
  | .finding .. | .listing _ => none

variable (web allowedHosts) in
def Vetted (r : FetchRequest) : Prop := ∃ baseUrl path, getJson web allowedHosts baseUrl path = .ok r

variable (web allowedHosts) in
def Validated (url : String) : Prop := ∃ baseUrl, validateBaseUrl web allowedHosts baseUrl = .ok url

variable (web allowedHosts) in
structure Effect.Guarded (e : Effect) : Prop where
  fetch : ∀ r, e.fetch = some r → Vetted web allowedHosts r
  target : ∀ f url, e.next.frame = some f → f.target = some url → Validated web allowedHosts url
  commit : ∀ id url catalog, e.commit = some (id, url, catalog) → Validated web allowedHosts url

theorem guarded_done {result : Except ApiError Reply} :
    ({ next := .done result } : Effect).Guarded web allowedHosts where
  fetch := fun _ h => by cases h
  target := fun _ _ h => by cases h
  commit := fun _ _ _ h => by cases h

theorem guarded_await {f : Frame} (hf : ∀ url, f.target = some url → Validated web allowedHosts url) :
    ({ next := .await f } : Effect).Guarded web allowedHosts where
  fetch := fun _ h => by cases h
  target := by
    rintro _ url ⟨⟩ hurl
    exact hf url hurl
  commit := fun _ _ _ h => by cases h

theorem guarded_startFetch {caller : Caller} {baseUrl : String}
    (hc : ∀ url, caller.target = some url → Validated web allowedHosts url) :
    (startFetch web allowedHosts caller baseUrl).Guarded web allowedHosts := by
  rw [startFetch]
  split
  · exact guarded_done
  · rename_i r hr
    exact
      { fetch := by
          rintro _ ⟨⟩
          exact ⟨baseUrl, caller.path, hr⟩
        target := by
          rintro _ url ⟨⟩ hurl
          exact hc url hurl
        commit := fun _ _ _ h => by cases h }

theorem guarded_start (request : Request) : (request.start web allowedHosts).Guarded web allowedHosts := by
  cases request with
  | fetchCapabilities => exact guarded_startFetch fun _ h => by cases h
  | fetchStatus => exact guarded_startFetch fun _ h => by cases h
  | refreshCapabilities => exact guarded_await fun _ h => by cases h

theorem guarded_refreshFound (id : String) (baseUrl : Option String) (device : Option DeviceRow) :
    (refreshFound web allowedHosts id baseUrl device).Guarded web allowedHosts := by
  cases device with
  | none => exact guarded_done
  | some device =>
      rw [refreshFound]
      split
      · exact guarded_done
      · split
        · exact guarded_done
        · rename_i url hurl
          apply guarded_startFetch
          rintro _ ⟨⟩
          exact ⟨_, hurl⟩

theorem guarded_receive {caller : Caller} (raw : Json)
    (hc : ∀ url, caller.target = some url → Validated web allowedHosts url) :
    ({ next := caller.receive raw } : Effect).Guarded web allowedHosts := by
  cases caller with
  | fetchCapabilities => simp only [Caller.receive]; split <;> exact guarded_done
  | fetchStatus => simp only [Caller.receive]; split <;> exact guarded_done
  | refreshCapabilities id url =>
      simp only [Caller.receive]
      split
      · exact guarded_done
      · exact guarded_await hc

theorem guarded_resume {f : Frame} {answer : Answer} {e : Effect}
    (h : f.resume web allowedHosts s answer = some e)
    (hf : ∀ url, f.target = some url → Validated web allowedHosts url) : e.Guarded web allowedHosts := by
  cases f with
  | finding id baseUrl =>
      cases answer <;> cases h
      exact guarded_refreshFound id baseUrl _
  | fetching caller url =>
      cases answer <;> cases h
      split
      · exact guarded_done
      · exact guarded_await hf
  | reading caller url =>
      cases answer <;> cases h
      split
      · exact guarded_done
      · exact guarded_receive _ hf
  | saving id url catalog =>
      cases answer with
      | none =>
          simp only [Frame.resume] at h
          split at h
          · cases h
            exact
              { fetch := fun _ h => by cases h
                target := by
                  rintro _ _ ⟨⟩ ⟨⟩
                commit := by
                  rintro _ _ _ ⟨⟩
                  exact hf url rfl }
          · cases h
      | response | text => cases h
  | listing id =>
      cases answer <;> cases h
      exact guarded_done

variable (web allowedHosts) in
structure GuardInv (s : State) : Prop where
  requests : ∀ r ∈ s.requests, Vetted web allowedHosts r
  targets : ∀ c f url, s.frames.get c = some f → f.target = some url → Validated web allowedHosts url

theorem get_perform (s : State) (call : Nat) (e : Effect) (c : Nat) :
    (s.perform call e).frames.get c = if c = call then e.next.frame else s.frames.get c :=
  e.next.get_frames call s.frames c

theorem guardInv_perform (call : Nat) {e : Effect} (hi : GuardInv web allowedHosts s)
    (he : e.Guarded web allowedHosts) : GuardInv web allowedHosts (s.perform call e) where
  requests := by
    intro r hr
    rw [State.perform, List.mem_append, Option.mem_toList] at hr
    rcases hr with hr | hr
    · exact hi.requests r hr
    · exact he.fetch r hr
  targets := by
    intro c f url hf hurl
    rw [get_perform] at hf
    split at hf
    · exact he.target f url hf hurl
    · exact hi.targets c f url hf hurl

theorem guardInv_step {a : Action} (hi : GuardInv web allowedHosts s)
    (h : step web allowedHosts s a = some t) :
    GuardInv web allowedHosts t := by
  cases a with
  | tick ms => cases h; exact ⟨hi.requests, hi.targets⟩
  | put device => cases h; exact ⟨hi.requests, hi.targets⟩
  | call request =>
      cases h
      have ht := guardInv_perform s.calls hi (guarded_start request)
      exact ⟨ht.requests, ht.targets⟩
  | resume call answer =>
      obtain ⟨f, hf, h⟩ := Option.bind_eq_some_iff.mp h
      obtain ⟨e, he, h⟩ := Option.bind_eq_some_iff.mp h
      cases h
      exact guardInv_perform call hi (guarded_resume he fun url hurl => hi.targets call f url hf hurl)
  | reject call message =>
      obtain ⟨f, hf, h⟩ := Option.bind_eq_some_iff.mp h
      cases h
      exact guardInv_perform call hi guarded_done

theorem guardInv_boot (devices : Table DeviceRow) (capabilities : Table DeviceCapability) :
    GuardInv web allowedHosts (.boot devices capabilities) where
  requests := fun _ h => by cases h
  targets := fun _ _ _ h => by cases h

theorem devices_step {a : Action} (hi : GuardInv web allowedHosts s) (h : step web allowedHosts s a = some t)
    {d : DeviceRow} (hd : d ∈ t.devices.rows) : d ∈ s.devices.rows ∨ a = .put d ∨
      ∃ url, d.localApiBaseUrl = some url ∧ Validated web allowedHosts url := by
  have hperform (call : Nat) {e : Effect} (he : e.Guarded web allowedHosts)
      (hd : d ∈ (s.perform call e).devices.rows) :
      d ∈ s.devices.rows ∨ ∃ url, d.localApiBaseUrl = some url ∧ Validated web allowedHosts url := by
    cases hcommit : e.commit with
    | none =>
        rw [State.perform, State.committed, hcommit] at hd
        exact .inl hd
    | some saved =>
        obtain ⟨id, url, catalog⟩ := saved
        rw [State.perform, State.committed, hcommit] at hd
        obtain ⟨d', hd', rfl⟩ := List.mem_map.mp hd
        rw [DeviceRow.refreshed]
        split
        · exact .inr ⟨url, rfl, he.commit id url catalog hcommit⟩
        · exact .inl hd'
  cases a with
  | tick ms => cases h; exact .inl hd
  | put device =>
      cases h
      rcases Table.mem_save.mp hd with rfl | ⟨hd, -⟩
      · exact .inr (.inl rfl)
      · exact .inl hd
  | call request =>
      cases h
      exact (hperform s.calls (guarded_start request) hd).imp_right .inr
  | resume call answer =>
      obtain ⟨f, hf, h⟩ := Option.bind_eq_some_iff.mp h
      obtain ⟨e, he, h⟩ := Option.bind_eq_some_iff.mp h
      cases h
      have hguarded := guarded_resume he fun url hurl => hi.targets call f url hf hurl
      exact (hperform call hguarded hd).imp_right .inr
  | reject call message =>
      obtain ⟨f, hf, h⟩ := Option.bind_eq_some_iff.mp h
      cases h
      exact (hperform call guarded_done hd).imp_right .inr

/-- Whatever base URLs the callers pass and the table of devices holds, the
requests go to port 80 or 8080 of an admissible host, under one of the two
paths. No admissible host is refused for what it is, and what is stored is an
origin that is validated to itself. -/
theorem local_requests_are_contained (web : Web) (hweb : Whatwg web) (allowedHosts : List String) :
    (∀ baseUrl path request, getJson web allowedHosts baseUrl path = .ok request →
      request.redirect = .manual ∧
        ∃ u, web.parse request.url = some u ∧ u.pathname = path ∧ Contained allowedHosts u) ∧
    (∀ devices capabilities as s, run (step web allowedHosts) (.boot devices capabilities) as = some s →
      (∀ request ∈ s.requests, request.redirect = .manual ∧
        ∃ u, web.parse request.url = some u ∧ Contained allowedHosts u) ∧
      ∀ a t, step web allowedHosts s a = some t → ∀ d ∈ t.devices.rows, d ∈ s.devices.rows ∨ a = .put d ∨
        ∃ origin, d.localApiBaseUrl = some origin ∧ validateBaseUrl web allowedHosts origin = .ok origin) ∧
    (∀ baseUrl u, web.parse (withScheme (trim baseUrl)) = some u → Admissible allowedHosts u.hostname →
      assertSafeLocalTarget web baseUrl allowedHosts ≠ .error hostNotAllowed) ∧
    ∀ baseUrl origin, validateBaseUrl web allowedHosts baseUrl = .ok origin →
      validateBaseUrl web allowedHosts origin = .ok origin := by
  refine ⟨?_, ?_, ?_, ?_⟩
  · intro baseUrl path request h
    exact getJson_contained hweb h
  · intro devices capabilities as s h
    have hi : GuardInv web allowedHosts s :=
      invariant (fun _ _ _ hi hs => guardInv_step hi hs) h (guardInv_boot devices capabilities)
    constructor
    · intro request hr
      obtain ⟨baseUrl, path, hget⟩ := hi.requests request hr
      obtain ⟨hmanual, u, hparse, -, hcontained⟩ := getJson_contained hweb hget
      exact ⟨hmanual, u, hparse, hcontained⟩
    · intro a t hs d hd
      rcases devices_step hi hs hd with hd | hput | ⟨url, hurl, baseUrl, hvalid⟩
      · exact .inl hd
      · exact .inr (.inl hput)
      · exact .inr (.inr ⟨url, hurl, validateBaseUrl_idempotent hweb hvalid⟩)
  · intro baseUrl u hparse hhost
    exact admissible_not_refused hweb hparse hhost
  · intro baseUrl origin h
    exact validateBaseUrl_idempotent hweb h

def lanUrl : Url := { protocol := "http:", hostname := "192.168.1.20", port := "8080" }

def lanTexts : List (String × Url) :=
  [("http://192.168.1.20:8080", lanUrl),
    ("http://192.168.1.20:8080/api/capabilities", { lanUrl with pathname := "/api/capabilities" }),
    ("http://192.168.1.20:8080/api/status", { lanUrl with pathname := "/api/status" })]

def lanWeb : Web where
  parse := fun text => (lanTexts.find? fun entry => entry.1 = text).map Prod.snd
  resolve := fun path base => some { base with pathname := path, search := "", hash := "" }
  toLowerCase := fun text => String.ofList (text.toList.map Char.toLower)
  parseJson := fun _ => none

theorem lanWeb_of_texts {P : Url → Prop} (h : ∀ entry ∈ lanTexts, P entry.2) {text : String}
    {u : Url} (hu : lanWeb.parse text = some u) : P u := by
  obtain ⟨entry, hentry, rfl⟩ := Option.map_eq_some_iff.mp hu
  exact h entry (List.mem_of_find?_eq_some hentry)

theorem lanWeb_whatwg : Whatwg lanWeb where
  lower := fun _ _ h _ => lanWeb_of_texts (P := fun u => lanWeb.toLowerCase u.hostname = u.hostname)
    (by decide) h
  spaceless := fun _ _ h _ c hc =>
    have hany := lanWeb_of_texts (P := fun u => u.hostname.toList.any isWhiteSpace = false) (by decide) h
    Bool.eq_false_iff.mpr (List.any_eq_false.mp hany c hc)
  address := fun _ _ h _ _ =>
    ⟨ipv4 192 168 1 20, lanWeb_of_texts (P := fun u => u.hostname = dotted (ipv4 192 168 1 20)) (by decide) h⟩
  port := fun _ _ h _ =>
    .inr ⟨8080, by decide, lanWeb_of_texts (P := fun u => u.port = toString 8080) (by decide) h⟩
  origin := fun _ _ h _ => lanWeb_of_texts
    (P := fun u => lanWeb.parse u.origin = some { protocol := "http:", hostname := u.hostname, port := u.port })
    (by decide) h
  path := fun _ u h _ _ _ path hpath =>
    ⟨{ u with pathname := path, search := "", hash := "" }, rfl, rfl, lanWeb_of_texts
      (P := fun u => ∀ path ∈ ALLOWED_PATHS,
        lanWeb.parse ({ u with pathname := path, search := "", hash := "" } : Url).href =
        some { u with pathname := path, search := "", hash := "" }) (by decide) h path hpath⟩

def lanDevices : Table DeviceRow :=
  Table.empty.save
    { id := "dev", baseTopic := "esp", online := true, lastSeenAt := none,
      localApiBaseUrl := some "192.168.1.20:8080" }

theorem stored_target_is_requested : ∃ s request,
    run (step lanWeb []) (.boot lanDevices .empty)
      [.call (.refreshCapabilities "dev" none), .resume 0 .none] = some s ∧
      s.requests = [request] ∧ request.redirect = .manual ∧
        ∃ u, lanWeb.parse request.url = some u ∧ Contained [] u := by
  refine ⟨_, _, rfl, rfl, ?_⟩
  have hruns := (local_requests_are_contained lanWeb lanWeb_whatwg []).2.1
  exact (hruns lanDevices .empty [.call (.refreshCapabilities "dev" none), .resume 0 .none] _ rfl).1 _
    (List.mem_singleton_self _)

end EspClawPlatform.Devices.Introspection
