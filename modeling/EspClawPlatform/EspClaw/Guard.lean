import EspClawPlatform.EspClaw.LocalApiClient

namespace EspClawPlatform.EspClaw

/-- 10.0.0.0/8, 172.16.0.0/12, 192.168.0.0/16 and 100.64.0.0/10. -/
def privateBlocks : List Block :=
  [⟨ipv4 10 0 0 0, 8⟩, ⟨ipv4 172 16 0 0, 12⟩, ⟨ipv4 192 168 0 0, 16⟩, ⟨ipv4 100 64 0 0, 10⟩]

/-- An address of a private network or of the tailnet, but not the one where a cloud keeps its metadata. -/
def IsPrivate (v : BitVec 32) : Prop := (∃ b ∈ privateBlocks, v ∈ b) ∧ v ≠ ipv4 100 100 100 200

instance (v : BitVec 32) : Decidable (IsPrivate v) :=
  inferInstanceAs (Decidable ((∃ b ∈ privateBlocks, v ∈ b) ∧ v ≠ ipv4 100 100 100 200))

def Admissible (allowedHosts : List String) (host : String) : Prop :=
  host ∈ allowedHosts ∨ ∃ v, host = dotted v ∧ IsPrivate v

/-- Where the requests of the client go; port 80 is the empty one. -/
structure Contained (allowedHosts : List String) (u : Url) : Prop where
  protocol : u.protocol = "http:"
  port : u.port = "" ∨ u.port = "8080"
  credentials : u.username = "" ∧ u.password = ""
  path : u.pathname = "/api/capabilities" ∨ u.pathname = "/api/status"
  query : u.search = "" ∧ u.hash = ""
  host : Admissible allowedHosts u.hostname

/-- What the code relies on in the parser, of an http URL: its host is in lower
case, without white space and in canonical form when it is an address, its port
is empty or a number other than 80, its origin and its texts under the two
paths are parsed to themselves. -/
structure Whatwg (web : Web) : Prop where
  lower : ∀ text u, web.parse text = some u → u.protocol = "http:" → web.toLowerCase u.hostname = u.hostname
  spaceless : ∀ text u, web.parse text = some u → u.protocol = "http:" →
    ∀ c ∈ u.hostname.toList, isWhiteSpace c = false
  address : ∀ text u, web.parse text = some u → u.protocol = "http:" →
    (matchQuad u.hostname).isSome → ∃ v, u.hostname = dotted v
  port : ∀ text u, web.parse text = some u → u.protocol = "http:" →
    u.port = "" ∨ ∃ n, n ≠ 80 ∧ u.port = toString n
  origin : ∀ text u, web.parse text = some u → u.protocol = "http:" →
    web.parse u.origin = some { protocol := "http:", hostname := u.hostname, port := u.port }
  path : ∀ text u, web.parse text = some u → u.protocol = "http:" → u.username = "" → u.password = "" →
    ∀ path ∈ ALLOWED_PATHS, ∃ target, target = { u with pathname := path, search := "", hash := "" } ∧
      web.resolve path u = some target ∧ web.parse target.href = some target

theorem map_eq_ok {ε α β : Type} {f : α → β} {x : Except ε α} {b : β} (h : x.map f = .ok b) :
    ∃ a, x = .ok a ∧ f a = b := by
  cases x with
  | error e => cases h
  | ok a => exact ⟨a, rfl, Except.ok.inj h⟩

variable {web : Web} {allowedHosts : List String} {baseUrl text : String} {u : Url} {v : BitVec 32}

section Address

theorem octet_toString {n : Nat} (h : n < 2 ^ 8) : octet (toString n) = some n := by
  rw [octet, if_pos (length_toString_le h), numberOf_toString]

theorem matchQuad_dotted (v : BitVec 32) : matchQuad (dotted v) =
    some (v.toNat / 2 ^ 24, v.toNat / 2 ^ 16 % 2 ^ 8, v.toNat / 2 ^ 8 % 2 ^ 8, v.toNat % 2 ^ 8) := by
  have hoctet : ∀ n ∈ octets v, octet (toString n) = some n := fun n hn =>
    octet_toString (lt_of_mem_octets hn)
  rw [matchQuad, split_dotted]
  simp only [octets, List.map_cons, List.map_nil, List.mem_cons, List.not_mem_nil, or_false] at hoctet ⊢
  rw [hoctet _ (.inl rfl), hoctet _ (.inr (.inl rfl)), hoctet _ (.inr (.inr (.inl rfl))),
    hoctet _ (.inr (.inr (.inr rfl)))]
  rfl

theorem mem_cloud_metadata : dotted v ∈ CLOUD_METADATA_IPS ↔ v = ipv4 100 100 100 200 := by
  have hmetadata : dotted (ipv4 100 100 100 200) = "100.100.100.200" := by decide
  rw [CLOUD_METADATA_IPS, List.mem_singleton, ← hmetadata]
  exact ⟨dotted_injective, fun h => congrArg dotted h⟩

theorem mem_privateBlocks : (∃ b ∈ privateBlocks, v ∈ b) ↔
    v.toNat / 2 ^ 24 = 10 ∨
      (v.toNat / 2 ^ 24 = 172 ∧ 16 ≤ v.toNat / 2 ^ 16 % 2 ^ 8 ∧ v.toNat / 2 ^ 16 % 2 ^ 8 ≤ 31) ∨
      (v.toNat / 2 ^ 24 = 192 ∧ v.toNat / 2 ^ 16 % 2 ^ 8 = 168) ∨
      (v.toNat / 2 ^ 24 = 100 ∧ 64 ≤ v.toNat / 2 ^ 16 % 2 ^ 8 ∧ v.toNat / 2 ^ 16 % 2 ^ 8 ≤ 127) := by
  have hv := v.isLt
  simp only [privateBlocks, List.mem_cons, List.not_mem_nil, or_false, exists_eq_or_imp,
    exists_eq_left, mem_block]
  have h10 : (ipv4 10 0 0 0).toNat = 167772160 := by decide
  have h172 : (ipv4 172 16 0 0).toNat = 2886729728 := by decide
  have h192 : (ipv4 192 168 0 0).toNat = 3232235520 := by decide
  have h100 : (ipv4 100 64 0 0).toNat = 1681915904 := by decide
  rw [h10, h172, h192, h100]
  omega

theorem isPrivateIPv4_dotted : isPrivateIPv4 (dotted v) = true ↔ IsPrivate v := by
  have hv := v.isLt
  have hsmall : [v.toNat / 2 ^ 24, v.toNat / 2 ^ 16 % 2 ^ 8, v.toNat / 2 ^ 8 % 2 ^ 8, v.toNat % 2 ^ 8].any
      (255 < ·) = false := by
    rw [List.any_eq_false]
    intro n hn
    have hlt : n < 2 ^ 8 := lt_of_mem_octets hn
    simp only [decide_eq_true_eq]
    omega
  rw [IsPrivate, mem_privateBlocks, isPrivateIPv4, matchQuad_dotted]
  simp only [hsmall, Bool.false_eq_true, if_false, mem_cloud_metadata]
  split
  · simp_all
  · simp_all [and_assoc, or_assoc]

example : isPrivateIPv4 "172.31.255.1" = true ∧ isPrivateIPv4 "172.32.0.1" = false := by decide

example : isPrivateIPv4 "100.127.0.1" = true ∧ isPrivateIPv4 "100.100.100.200" = false := by decide

theorem matchQuad_of_isPrivate {host : String} (h : isPrivateIPv4 host = true) : (matchQuad host).isSome := by
  rw [isPrivateIPv4] at h
  split at h
  · cases h
  · rename_i hquad
    rw [hquad]
    rfl

end Address

variable (allowedHosts) in
theorem admissible_iff (hweb : Whatwg web) (hparse : web.parse text = some u) (hhttp : u.protocol = "http:") :
    (isPrivateIPv4 (web.toLowerCase u.hostname) = true ∨ web.toLowerCase u.hostname ∈ allowedHosts) ↔
      Admissible allowedHosts u.hostname := by
  rw [hweb.lower text u hparse hhttp]
  constructor
  · rintro (hprivate | hlisted)
    · obtain ⟨v, hv⟩ := hweb.address text u hparse hhttp (matchQuad_of_isPrivate hprivate)
      rw [hv] at hprivate
      exact .inr ⟨v, hv, isPrivateIPv4_dotted.mp hprivate⟩
    · exact .inl hlisted
  · rintro (hlisted | ⟨v, hv, hprivate⟩)
    · exact .inr hlisted
    · rw [hv]
      exact .inl (isPrivateIPv4_dotted.mpr hprivate)

theorem allowed_port_iff (hweb : Whatwg web) (hparse : web.parse text = some u)
    (hhttp : u.protocol = "http:") :
    u.portNumber.any (· ∈ ALLOWED_PORTS) = true ↔ u.port = "" ∨ u.port = "8080" := by
  rw [Url.portNumber]
  rcases hweb.port text u hparse hhttp with hport | ⟨n, hn, hport⟩
  · simp [hport, ALLOWED_PORTS]
  · have hne : u.port ≠ "" := hport ▸ Nat.repr_ne_empty
    have h8080 : u.port = "8080" ↔ n = 8080 := by
      refine ⟨fun h => ?_, fun h => by rw [hport, h]; rfl⟩
      have hnum := congrArg numberOf (hport.symm.trans h)
      rw [numberOf_toString] at hnum
      exact Option.some.inj (hnum.trans (numberOf_toString 8080))
    rw [if_neg hne, h8080, hport, numberOf_toString]
    simp [ALLOWED_PORTS, hn, hne, ← hport]

structure Passes (web : Web) (allowedHosts : List String) (text : String) (u : Url) : Prop where
  parse : web.parse text = some u
  protocol : u.protocol = "http:"
  credentials : u.username = "" ∧ u.password = ""
  port : u.port = "" ∨ u.port = "8080"
  host : Admissible allowedHosts u.hostname

theorem assertSafeLocalTarget_eq_ok (hweb : Whatwg web) :
    assertSafeLocalTarget web baseUrl allowedHosts = .ok u ↔
    trim baseUrl ≠ "" ∧ Passes web allowedHosts (withScheme (trim baseUrl)) u := by
  rw [assertSafeLocalTarget]
  by_cases hempty : trim baseUrl = ""
  · simp [hempty]
  · rw [if_neg hempty]
    cases hparse : web.parse (withScheme (trim baseUrl)) with
    | none =>
        constructor
        · intro h
          cases h
        · rintro ⟨-, hpasses⟩
          cases hparse.symm.trans hpasses.parse
    | some url =>
        constructor
        · intro h
          dsimp only at h
          split at h
          · cases h
          · rename_i hprotocol
            have hhttp := not_not.mp hprotocol
            split at h
            · cases h
            · rename_i hcredentials
              split at h
              · cases h
              · rename_i hport
                have hadmissible := admissible_iff allowedHosts hweb hparse hhttp
                have hpasses (hhost : isPrivateIPv4 (web.toLowerCase url.hostname) = true ∨
                    web.toLowerCase url.hostname ∈ allowedHosts) :
                    Passes web allowedHosts (withScheme (trim baseUrl)) url :=
                  { parse := hparse
                    protocol := hhttp
                    credentials := by simpa using hcredentials
                    port := (allowed_port_iff hweb hparse hhttp).mp (by simpa using hport)
                    host := hadmissible.mp hhost }
                split at h
                · rename_i hprivate
                  cases h
                  exact ⟨hempty, hpasses (.inl hprivate)⟩
                · split at h
                  · rename_i hlisted
                    cases h
                    exact ⟨hempty, hpasses (.inr hlisted)⟩
                  · cases h
        · rintro ⟨-, hpasses⟩
          obtain rfl := Option.some.inj (hparse.symm.trans hpasses.parse)
          have hport := (allowed_port_iff hweb hparse hpasses.protocol).mpr hpasses.port
          have hhost := (admissible_iff allowedHosts hweb hparse hpasses.protocol).mpr hpasses.host
          dsimp only
          rw [if_neg (not_not.mpr hpasses.protocol), if_neg (by simp [hpasses.credentials]),
            if_neg (by simp [hport])]
          rcases hhost with hprivate | hlisted
          · rw [if_pos hprivate]
          · rw [if_pos hlisted, ite_self]

theorem admissible_not_refused (hweb : Whatwg web) (hparse : web.parse (withScheme (trim baseUrl)) = some u)
    (hhost : Admissible allowedHosts u.hostname) :
    assertSafeLocalTarget web baseUrl allowedHosts ≠ .error hostNotAllowed := by
  rw [assertSafeLocalTarget]
  dsimp only
  split
  · exact fun h => absurd (Except.error.inj h) (by decide)
  · rw [hparse]
    dsimp only
    split
    · exact fun h => absurd (Except.error.inj h) (by decide)
    · rename_i hprotocol
      split
      · exact fun h => absurd (Except.error.inj h) (by decide)
      · split
        · exact fun h => absurd (Except.error.inj h) (by decide)
        · rcases (admissible_iff allowedHosts hweb hparse
            (not_not.mp hprotocol)).mpr hhost with hprivate | hlisted
          · rw [if_pos hprivate]
            exact fun h => by cases h
          · rw [if_pos hlisted, ite_self]
            exact fun h => by cases h

section Origin

theorem hasScheme_http (rest : String) : hasScheme ("http:" ++ "//" ++ rest) = true := by
  rw [hasScheme, String.toList_append]
  rfl

theorem withScheme_origin (h : u.protocol = "http:") : withScheme u.origin = u.origin := by
  rw [withScheme, Url.origin, h, if_pos (hasScheme_http u.host)]

theorem trim_origin (hweb : Whatwg web) (hparse : web.parse text = some u) (hhttp : u.protocol = "http:") :
    trim u.origin = u.origin := by
  apply trim_eq_self
  have hhost := hweb.spaceless text u hparse hhttp
  have hport : ∀ c ∈ u.port.toList, isWhiteSpace c = false := by
    rcases hweb.port text u hparse hhttp with hport | ⟨n, -, hport⟩
    · rw [hport]
      intro c hc
      cases hc
    · rw [hport]
      intro c hc
      exact isWhiteSpace_of_isDigit (Nat.isDigit_of_mem_toDigits (by decide) (by decide)
        (Nat.toList_repr ▸ hc))
  have hscheme : ("http:" ++ "//").toList.any isWhiteSpace = false := by decide
  intro c hc
  rw [Url.origin, hhttp, String.toList_append, List.mem_append] at hc
  rcases hc with hc | hc
  · exact Bool.eq_false_iff.mpr (List.any_eq_false.mp hscheme c hc)
  · rw [Url.host] at hc
    split at hc
    · exact hhost c hc
    · rw [String.toList_append, String.toList_append, List.mem_append, List.mem_append] at hc
      rcases hc with (hc | hc) | hc
      · exact hhost c hc
      · obtain rfl := List.mem_singleton.mp hc
        rfl
      · exact hport c hc

theorem validateBaseUrl_idempotent {origin : String} (hweb : Whatwg web)
    (h : validateBaseUrl web allowedHosts baseUrl = .ok origin) :
    validateBaseUrl web allowedHosts origin = .ok origin := by
  obtain ⟨u, hu, rfl⟩ := map_eq_ok h
  obtain ⟨-, hpasses⟩ := (assertSafeLocalTarget_eq_ok hweb).mp hu
  have hhttp := hpasses.protocol
  have htrim := trim_origin hweb hpasses.parse hhttp
  have hne : u.origin ≠ "" := by
    intro hempty
    have hlist := congrArg String.toList hempty
    rw [Url.origin, hhttp, String.toList_append] at hlist
    cases hlist
  have hagain : assertSafeLocalTarget web u.origin allowedHosts =
      .ok { protocol := "http:", hostname := u.hostname, port := u.port } := by
    refine (assertSafeLocalTarget_eq_ok hweb).mpr ⟨htrim.symm ▸ hne, ?_⟩
    rw [htrim, withScheme_origin hhttp]
    exact
      { parse := hweb.origin _ u hpasses.parse hhttp
        protocol := rfl
        credentials := ⟨rfl, rfl⟩
        port := hpasses.port
        host := hpasses.host }
  rw [validateBaseUrl, hagain, Url.origin, hhttp]
  rfl

end Origin

theorem getJson_contained {path : String} {request : FetchRequest} (hweb : Whatwg web)
    (h : getJson web allowedHosts baseUrl path = .ok request) :
    request.redirect = .manual ∧ ∃ u, web.parse request.url = some u ∧ u.pathname = path ∧
      Contained allowedHosts u := by
  rw [getJson] at h
  split at h
  · cases h
  · rename_i hpath
    have hpath := not_not.mp hpath
    split at h
    · cases h
    · rename_i base hbase
      obtain ⟨-, hpasses⟩ := (assertSafeLocalTarget_eq_ok hweb).mp hbase
      obtain ⟨target, htarget, hresolve, hparse⟩ :=
        hweb.path _ base hpasses.parse hpasses.protocol hpasses.credentials.1 hpasses.credentials.2 path hpath
      rw [hresolve] at h
      cases h
      refine ⟨rfl, target, hparse, by rw [htarget], ?_⟩
      rw [htarget]
      exact
        { protocol := hpasses.protocol
          port := hpasses.port
          credentials := hpasses.credentials
          path := by simpa [ALLOWED_PATHS] using hpath
          query := ⟨rfl, rfl⟩
          host := hpasses.host }

end EspClawPlatform.EspClaw
