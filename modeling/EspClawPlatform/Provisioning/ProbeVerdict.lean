import EspClawPlatform.Provisioning.DeviceProbe
import EspClawPlatform.Provisioning.Replay

namespace EspClawPlatform.Provisioning

theorem base64UrlDigit_eq_A : ∀ n < 64, base64UrlDigit n = 'A' ↔ n = 0 := by decide

theorem A_is_suffix {l : List Char} {x y : Char} : "AA".toList.isSuffixOf (l ++ [x, y]) = true ↔ x = 'A' ∧ y = 'A' := by
  have hletters : "AA".toList = ['A', 'A'] := rfl
  rw [List.isSuffixOf_iff_suffix, hletters]
  constructor
  · rintro ⟨more, h⟩
    have hinj := List.append_inj_right' h rfl
    simp only [List.cons.injEq, and_true] at hinj
    exact ⟨hinj.1.symm, hinj.2.symm⟩
  · rintro ⟨rfl, rfl⟩
    exact ⟨l, rfl⟩

theorem signature_digits {bytes : List UInt8} (hlen : bytes.length = 32) : ∃ (start : List UInt8) (a b : UInt8),
    bytes = start ++ [a, b] ∧ start.length = 30 ∧
    (toBase64Url bytes).toList = ((sextets start ++ [a.toNat / 4]).map base64UrlDigit) ++
      [base64UrlDigit (a.toNat % 4 * 16 + b.toNat / 16), base64UrlDigit (b.toNat % 16 * 4)] := by
  have hsplit := List.take_append_drop 30 bytes
  have hdrop : (bytes.drop 30).length = 2 := by rw [List.length_drop, hlen]
  obtain ⟨a, b, hab⟩ := List.length_eq_two.mp hdrop
  have htake : (bytes.take 30).length = 30 := by rw [List.length_take, hlen]; rfl
  refine ⟨bytes.take 30, a, b, by rw [← hab, hsplit], htake, ?_⟩
  rw [toBase64Url_eq]
  conv_lhs => rw [← hsplit, hab, sextets_append (by rw [htake])]
  simp [sextets]

theorem tamperSignature_toList {bytes : List UInt8} (hlen : bytes.length = 32) :
    ∃ (start : List UInt8) (a b : UInt8) (w : Nat), bytes = start ++ [a, b] ∧ start.length = 30 ∧ w < 2 ∧
    (w = 1 ↔ a.toNat % 4 * 16 + b.toNat / 16 = 0 ∧ b.toNat % 16 * 4 = 0) ∧
    (tamperSignature (toBase64Url bytes)).toList =
      (sextets start ++ [a.toNat / 4, w, w]).map base64UrlDigit := by
  obtain ⟨start, a, b, hbytes, hstart, hdigits⟩ := signature_digits hlen
  have ha := a.toNat_lt
  have hb := b.toNat_lt
  have hkept : (toBase64Url bytes).toList.take ((toBase64Url bytes).toList.length - 2) =
      (sextets start ++ [a.toNat / 4]).map base64UrlDigit := by
    rw [hdigits, List.length_append]
    exact List.take_left' (by simp)
  have hends : "AA".toList.isSuffixOf (toBase64Url bytes).toList = true ↔
      a.toNat % 4 * 16 + b.toNat / 16 = 0 ∧ b.toNat % 16 * 4 = 0 := by
    rw [hdigits, A_is_suffix, base64UrlDigit_eq_A _ (by omega), base64UrlDigit_eq_A _ (by omega)]
  by_cases hsuffix : "AA".toList.isSuffixOf (toBase64Url bytes).toList = true
  · refine ⟨start, a, b, 1, hbytes, hstart, by omega, iff_of_true rfl (hends.mp hsuffix), ?_⟩
    rw [tamperSignature, if_pos hsuffix, String.toList_append, String.toList_ofList, hkept]
    simp [base64UrlDigit, base64Digit]
  · refine ⟨start, a, b, 0, hbytes, hstart, by omega, iff_of_false (by omega) fun h => hsuffix (hends.mpr h), ?_⟩
    rw [tamperSignature, if_neg hsuffix, String.toList_append, String.toList_ofList, hkept]
    simp [base64UrlDigit, base64Digit]

theorem fromBase64Url_digits {text : String} {groups : List Nat} (htext : text.toList = groups.map base64UrlDigit)
    (hlt : ∀ n ∈ groups, n < 64) : fromBase64Url text = some (unsextets groups) := by
  have hall : text.toList.all isBase64Url := by
    rw [List.all_eq_true, htext]
    intro c hc
    obtain ⟨n, hn, rfl⟩ := List.mem_map.mp hc
    exact (base64UrlDigit_spec n (hlt n hn)).2.2.2.1
  have hvalues : groups.map (fun n => base64Value (if base64UrlDigit n = '-' then '+'
      else if base64UrlDigit n = '_' then '/' else base64UrlDigit n)) = groups := by
    rw [List.map_congr_left fun n hn => (base64UrlDigit_spec n (hlt n hn)).2.2.2.2, List.map_id']
  rw [fromBase64Url, if_pos hall, htext, List.map_map]
  exact congrArg some (congrArg unsextets hvalues)

theorem decode_tamperSignature {bytes : List UInt8} (hlen : bytes.length = 32) :
    ∃ other, (decode (tamperSignature (toBase64Url bytes)) 64).filter (fun sig => sig.length = 32) = some other ∧
      other ≠ bytes := by
  obtain ⟨start, a, b, w, rfl, hstart, hw, hends, htext⟩ := tamperSignature_toList hlen
  have ha := a.toNat_lt
  have hb := b.toNat_lt
  have hgroups : (sextets start).length = 40 := by rw [length_sextets, hstart]
  have hread : unsextets (sextets start ++ [a.toNat / 4, w, w]) =
      start ++ [UInt8.ofNat (a.toNat / 4 * 4 + w / 16), UInt8.ofNat (w % 16 * 16 + w / 4)] := by
    rw [unsextets_append (by rw [hgroups]), unsextets_sextets]
    rfl
  have hlt : ∀ n ∈ sextets start ++ [a.toNat / 4, w, w], n < 64 := by
    intro n hn
    rcases List.mem_append.mp hn with hn | hn
    · exact sextets_lt start n hn
    · simp only [List.mem_cons, List.not_mem_nil, or_false] at hn
      omega
  have hlength : (tamperSignature (toBase64Url (start ++ [a, b]))).toList.length = 43 := by
    rw [htext, List.length_map, List.length_append, hgroups]
    rfl
  have hplain : (tamperSignature (toBase64Url (start ++ [a, b]))).toList.countP (fun c => 0x10000 ≤ c.toNat) = 0 := by
    rw [List.countP_eq_zero, htext]
    intro c hc
    obtain ⟨n, hn, rfl⟩ := List.mem_map.mp hc
    simpa using (base64UrlDigit_spec n (hlt n hn)).2.2.1
  have hseg : ¬ (tamperSignature (toBase64Url (start ++ [a, b])) = "" ∨
      utf16Length (tamperSignature (toBase64Url (start ++ [a, b]))) > SEGMENT_MAX) := by
    rintro (h | h)
    · rw [h] at hlength
      cases hlength
    · rw [utf16Length, hplain, ← String.length_toList, hlength, SEGMENT_MAX] at h
      omega
  refine ⟨start ++ [UInt8.ofNat (a.toNat / 4 * 4 + w / 16), UInt8.ofNat (w % 16 * 16 + w / 4)], ?_, ?_⟩
  · rw [decode, if_neg hseg, fromBase64Url_digits htext hlt, hread, Option.filter_some, if_pos (by simp [hstart]),
      Option.filter_some, if_pos (by simp [hstart])]
  · intro h
    have hlast := List.append_cancel_left h
    simp only [List.cons.injEq, and_true] at hlast
    have h₁ := congrArg UInt8.toNat hlast.1
    have h₂ := congrArg UInt8.toNat hlast.2
    rw [UInt8.toNat_ofNat'] at h₁ h₂
    by_cases hone : w = 1
    · obtain ⟨h₃, h₄⟩ := hends.mp hone
      omega
    · have hzero : ¬ (a.toNat % 4 * 16 + b.toNat / 16 = 0 ∧ b.toNat % 16 * 4 = 0) := fun h => hone (hends.mpr h)
      omega

section Verify

variable {runtime : Runtime} {parse : String → Option Json} {args : SignInput} {device : FirmwareModel} {t : Rat}

/-- The clock of the device is set, and within half a minute of the time that a token was signed at. -/
def Synchronised (now : Int) (t : Rat) : Prop := MIN_VALID_EPOCH ≤ t ∧ now - 30 ≤ t ∧ t ≤ now + 35

/-- The clock is set and outside the window of a token that was signed at some time. -/
def Outside (now : Int) (t : Rat) : Prop :=
  ISSUED_AT_BACKDATE_SECONDS ≤ now ∧ MIN_VALID_EPOCH ≤ t ∧ (t < now - 30 ∨ now + 35 < t)

inductive Judged (args : SignInput) (device : FirmwareModel) (t : Rat) : Except String (String × Json × String) → Prop
  | windowless (h : args.nowSeconds < ISSUED_AT_BACKDATE_SECONDS) :
      Judged args device t (.error "invalid token validity window (must be issued_at < expires_at, TTL <= 60s)")
  | noClock (h : t < MIN_VALID_EPOCH) :
      Judged args device t (.error "system time not set; cannot verify token expiry")
  | expired (h : Outside args.nowSeconds t) : Judged args device t (.error "token expired or not yet valid")
  | replay (h : Synchronised args.nowSeconds t) (hn : args.nonce = "" ∨ utf16 args.nonce ∈ device.seenNonces) :
      Judged args device t (.error "token nonce already used (replay)")
  | granted (h : Synchronised args.nowSeconds t) (hn : ¬ (args.nonce = "" ∨ utf16 args.nonce ∈ device.seenNonces)) :
      Judged args device t (.ok (args.capability, .obj args.input.rows, args.nonce))

theorem judged (htarget : isPlatformExecTarget args.capability) (hd : device.ownDeviceId = args.deviceId) :
    Judged args device t (device.judge args.payload t) := by
  rw [judge_signed htarget hd]
  split
  · exact .windowless ‹_›
  · rename_i hw
    split
    · exact .noClock ‹_›
    · rename_i hc
      split
      · exact .expired ⟨Int.not_lt.mp hw, not_lt.mp hc, ‹_›⟩
      · rename_i ht
        rw [not_or, not_lt, not_lt] at ht
        split
        · exact .replay ⟨not_lt.mp hc, ht⟩ ‹_›
        · exact .granted ⟨not_lt.mp hc, ht⟩ ‹_›

theorem not_synchronised_of_lt {now : Int} (h : now < ISSUED_AT_BACKDATE_SECONDS) : ¬ Synchronised now t := by
  rintro ⟨hc, -, hu⟩
  have hlt : (now : Rat) < 25 := by exact_mod_cast h
  rw [MIN_VALID_EPOCH] at hc
  linarith

theorem not_synchronised_of_outside {now : Int} (h : Outside now t) : ¬ Synchronised now t := by
  rintro ⟨-, hl, hu⟩
  rcases h.2.2 with h | h <;> linarith

theorem nonempty_of_parse (hempty : parse "" = none) (hparse : parse (runtime.stringify args.payload) = some args.payload) :
    runtime.stringify args.payload ≠ "" := by
  intro h
  rw [h, hempty] at hparse
  cases hparse

theorem open_of_keyed (hhmac : ∀ key text, (runtime.hmacSha256 key text).length = 32) (hempty : parse "" = none)
    (hparse : parse (runtime.stringify args.payload) = some args.payload)
    (hsize : (utf8 (runtime.stringify args.payload)).length ≤ PAYLOAD_MAX)
    (hkeyed : device.secret.filter (fun secret => SECRET_MIN_BYTES ≤ secret.length) = some args.secret) :
    device.openToken runtime (some (args.token runtime)) = .ok (runtime.stringify args.payload) := by
  have hopen := openToken_signed hhmac (nonempty_of_parse hempty hparse) hsize hkeyed
  rwa [if_neg (not_not.mpr rfl)] at hopen

/-- A token whose authentic payload can only be the one that was signed does not make `verify` throw. -/
theorem verify_answers {token : Option String} (hparse : parse (runtime.stringify args.payload) = some args.payload)
    (hsegment : ∀ segment, device.authenticated runtime token = some segment → segment = args.segment runtime) :
    ∃ answer, device.verify runtime parse token t = some answer := by
  cases hopen : device.openToken runtime token with
  | error error => exact ⟨_, by rw [FirmwareModel.verify, hopen]⟩
  | ok text =>
      obtain ⟨segment, bytes, hauth, hdecode, rfl⟩ := openToken_ok hopen
      obtain rfl := hsegment segment hauth
      rw [text_of_segment hdecode] at hopen
      obtain ⟨herror, hok⟩ := verify_payload (t := t) hparse hopen
      cases hj : device.judge args.payload t with
      | error error => exact ⟨_, herror error hj⟩
      | ok judged => exact ⟨_, hok _ _ _ hj⟩

theorem authenticated_of_split {token segment sig : String} (hsplit : splitToken token = some (segment, sig))
    {found : String} (h : device.authenticated runtime (some token) = some found) : found = segment := by
  simp only [FirmwareModel.authenticated, Option.getD_some, hsplit, bind, Option.bind_some,
    Option.bind_eq_some_iff] at h
  obtain ⟨secret, -, signature, -, h⟩ := h
  split at h
  · exact (Option.some.inj h).symm
  · cases h

theorem verify_token (hhmac : ∀ key text, (runtime.hmacSha256 key text).length = 32) (hempty : parse "" = none)
    (hparse : parse (runtime.stringify args.payload) = some args.payload) (device : FirmwareModel) (t : Rat) :
    ∃ answer, device.verify runtime parse (some (args.token runtime)) t = some answer :=
  verify_answers hparse fun _ h =>
    authenticated_of_split (splitToken_token hhmac (nonempty_of_parse hempty hparse)) h

theorem split_token : split (args.token runtime) '.' =
    [args.segment runtime, toBase64Url (runtime.hmacSha256 args.secret (args.segment runtime))] := by
  have hnodot (bytes : List UInt8) : '.' ∉ (toBase64Url bytes).toList := by
    intro hdot
    obtain ⟨n, hn, hc⟩ := mem_toBase64Url hdot
    exact (base64UrlDigit_spec n hn).2.1 hc.symm
  have hjoin : args.token runtime =
      join [args.segment runtime, toBase64Url (runtime.hmacSha256 args.secret (args.segment runtime))] '.' := by
    apply String.toList_injective
    simp [SignInput.token, join, String.toList_append, List.intercalate, List.intersperse]
  rw [hjoin]
  apply split_join _ (by simp)
  intro x hx
  simp only [List.mem_cons, List.not_mem_nil, or_false] at hx
  rcases hx with rfl | rfl
  · exact hnodot _
  · exact hnodot _

theorem tamperSignature_ne_empty {bytes : List UInt8} (hlen : bytes.length = 32) :
    tamperSignature (toBase64Url bytes) ≠ "" := by
  intro h
  obtain ⟨other, hdecode, -⟩ := decode_tamperSignature hlen
  rw [h, decode, if_pos (.inl rfl)] at hdecode
  cases hdecode

theorem splitToken_tampered (hhmac : ∀ key text, (runtime.hmacSha256 key text).length = 32)
    (hne : runtime.stringify args.payload ≠ "") : ∃ token, tamper (args.token runtime) = some token ∧
    splitToken token = some (args.segment runtime,
      tamperSignature (toBase64Url (runtime.hmacSha256 args.secret (args.segment runtime)))) := by
  refine ⟨_, by rw [tamper, split_token], ?_⟩
  apply splitToken_join
  · intro hdot
    obtain ⟨n, hn, hc⟩ := mem_toBase64Url hdot
    exact (base64UrlDigit_spec n hn).2.1 hc.symm
  · intro h
    have hsplit : splitToken (args.token runtime) = _ := splitToken_token hhmac hne
    rw [SignInput.token, h] at hsplit
    simp [splitToken] at hsplit
  · exact tamperSignature_ne_empty (hhmac _ _)

structure FirmwareModel.Holds (device : FirmwareModel) (secret : List UInt8) (deviceId : String) : Prop where
  secret : device.secret = some secret
  id : device.ownDeviceId = deviceId

theorem filter_of_holds {secret : List UInt8} {deviceId : String} (hlong : secret.length = 32)
    (hd : device.Holds secret deviceId) :
    device.secret.filter (fun secret => SECRET_MIN_BYTES ≤ secret.length) = some secret := by
  rw [hd.secret, Option.filter_some, if_pos]
  rw [hlong]
  decide

theorem holds_remember {secret : List UInt8} {deviceId : String} (hd : device.Holds secret deviceId) (nonce : String) :
    (device.remember nonce).Holds secret deviceId :=
  ⟨hd.secret, hd.id⟩

theorem holds_verify {secret : List UInt8} {deviceId : String} (hd : device.Holds secret deviceId)
    {token : Option String} {answer : VerifyResult} {after : FirmwareModel}
    (h : device.verify runtime parse token t = some (answer, after)) : after.Holds secret deviceId := by
  cases hg : device.grant runtime parse token t with
  | none =>
      obtain ⟨rfl, -⟩ := verify_of_none hg _ h
      exact hd
  | some g =>
      rw [verify_of_grant hg] at h
      obtain ⟨-, rfl⟩ := Prod.mk.inj (Option.some.inj h)
      exact holds_remember hd g.nonce

theorem verify_tampered (hhmac : ∀ key text, (runtime.hmacSha256 key text).length = 32)
    (hne : runtime.stringify args.payload ≠ "")
    (hkeyed : device.secret.filter (fun secret => SECRET_MIN_BYTES ≤ secret.length) = some args.secret)
    {token : String} (htoken : tamper (args.token runtime) = some token) :
    device.verify runtime parse (some token) t = some (fail "invalid token signature", device) := by
  obtain ⟨token', htoken', hsplit⟩ := splitToken_tampered hhmac hne
  obtain rfl := Option.some.inj (htoken'.symm.trans htoken)
  obtain ⟨other, hdecode, hother⟩ := decode_tamperSignature (hhmac args.secret (args.segment runtime))
  have hnonempty : token' ≠ "" := by
    intro h
    rw [h] at hsplit
    cases hsplit
  have hopen : device.openToken runtime (some token') = .error "invalid token signature" := by
    simp only [FirmwareModel.openToken, hkeyed, Option.getD_some, if_neg hnonempty, hsplit, hdecode]
    exact if_pos (Ne.symm hother)
  rw [FirmwareModel.verify, hopen]

theorem verify_unshared (hhmac : ∀ key text, (runtime.hmacSha256 key text).length = 32)
    (hne : runtime.stringify args.payload ≠ "") (hsize : (utf8 (runtime.stringify args.payload)).length ≤ PAYLOAD_MAX)
    (h : ¬ device.Shares runtime args) :
    ∃ error, device.verify runtime parse (some (args.token runtime)) t = some (fail error, device) := by
  cases hkey : device.secret.filter (fun secret => SECRET_MIN_BYTES ≤ secret.length) with
  | none =>
      have hopen : device.openToken runtime (some (args.token runtime)) =
          .error "platform secret not configured (run platform_configure locally first)" := by
        rw [FirmwareModel.openToken, hkey]
      exact ⟨_, by rw [FirmwareModel.verify, hopen]⟩
  | some own =>
      have hopen := openToken_signed hhmac hne hsize hkey
      rw [if_pos fun he => h ⟨own, hkey, he⟩] at hopen
      exact ⟨_, by rw [FirmwareModel.verify, hopen]⟩

theorem judge_otherDevice (h : device.ownDeviceId ≠ args.deviceId) :
    device.judge args.payload t = .error "token was issued for a different device" := by
  rw [FirmwareModel.judge, if_pos]
  rw [(str_payload args).1]
  exact fun he => h (Option.some.inj he).symm

theorem judge_notAllowed (hd : device.ownDeviceId = args.deviceId) (hne : args.capability ≠ "")
    (htarget : isPlatformExecTarget args.capability = false) :
    device.judge args.payload t =
      .error s!"capability '{args.capability}' cannot be triggered through platform_exec" := by
  obtain ⟨hdevice, hcapability, -⟩ := str_payload args
  simp only [FirmwareModel.judge, hdevice, hd, ne_eq, not_true_eq_false, if_false, hcapability, Option.getD_some,
    if_neg hne, htarget, Bool.not_false, if_true]

end Verify

section Probe

variable {runtime : Runtime} {parse : String → Option Json} {opts : ProbeOptions} {draws : ProbeDraws}
  {secret : List UInt8} {device : FirmwareModel} {t : Rat}

def probeArgs (secret : List UInt8) (deviceId capability : String) (draw : ProbeDraw) : SignInput where
  secret := secret
  deviceId := deviceId
  capability := capability
  input := .empty
  nowSeconds := draw.nowSeconds
  nonce := draw.nonce

/-- The draw of the token that expired two minutes ago, as if it were signed in its time. -/
def ProbeDraw.backdated (draw : ProbeDraw) : ProbeDraw := { draw with nowSeconds := draw.nowSeconds - 155 }

def goodArgs (opts : ProbeOptions) (draws : ProbeDraws) (secret : List UInt8) : SignInput :=
  probeArgs secret opts.deviceId "list_agents" draws.good

def freshArgs (opts : ProbeOptions) (draws : ProbeDraws) (secret : List UInt8) : SignInput :=
  probeArgs secret opts.deviceId "list_agents" draws.fresh

def wrongDeviceArgs (opts : ProbeOptions) (draws : ProbeDraws) (secret : List UInt8) : SignInput :=
  probeArgs secret (otherDeviceId opts.deviceId) "list_agents" draws.wrongDevice

def notAllowedArgs (opts : ProbeOptions) (draws : ProbeDraws) (secret : List UInt8) : SignInput :=
  probeArgs secret opts.deviceId "ssh_configure" draws.notAllowed

def expiredArgs (opts : ProbeOptions) (draws : ProbeDraws) (secret : List UInt8) : SignInput :=
  probeArgs secret opts.deviceId "list_agents" draws.expired.backdated

def probeCalls (opts : ProbeOptions) (draws : ProbeDraws) (secret : List UInt8) : List SignInput :=
  [goodArgs opts draws secret, freshArgs opts draws secret, wrongDeviceArgs opts draws secret,
    notAllowedArgs opts draws secret, expiredArgs opts draws secret]

/-- What a probe rests on: the runtime reads what it writes, no other secret of
the device signs the first token alike, and the first nonce is a new one. -/
structure ProbeSetup (runtime : Runtime) (parse : String → Option Json) (opts : ProbeOptions) (draws : ProbeDraws)
    (secret : List UInt8) (device : FirmwareModel) : Prop where
  derived : deriveDeviceSecret runtime opts.masterKey opts.deviceId = .ok secret
  long : secret.length = 32
  hmac : ∀ key text, (runtime.hmacSha256 key text).length = 32
  empty : parse "" = none
  read : ∀ args ∈ probeCalls opts draws secret, parse (runtime.stringify args.payload) = some args.payload
  size : ∀ args ∈ probeCalls opts draws secret, (utf8 (runtime.stringify args.payload)).length ≤ PAYLOAD_MAX
  apart : ∀ own, device.secret = some own →
    runtime.hmacSha256 own ((goodArgs opts draws secret).segment runtime) =
      runtime.hmacSha256 secret ((goodArgs opts draws secret).segment runtime) → own = secret
  nonce : ∃ random : List UInt8, random.length = NONCE_BYTES ∧ draws.good.nonce = toBase64Url random
  unseen : utf16 draws.good.nonce ∉ device.seenNonces

section Calls

variable (opts draws secret)

theorem goodArgs_mem : goodArgs opts draws secret ∈ probeCalls opts draws secret := by simp [probeCalls]

theorem freshArgs_mem : freshArgs opts draws secret ∈ probeCalls opts draws secret := by simp [probeCalls]

theorem wrongDeviceArgs_mem : wrongDeviceArgs opts draws secret ∈ probeCalls opts draws secret := by simp [probeCalls]

theorem notAllowedArgs_mem : notAllowedArgs opts draws secret ∈ probeCalls opts draws secret := by simp [probeCalls]

theorem expiredArgs_mem : expiredArgs opts draws secret ∈ probeCalls opts draws secret := by simp [probeCalls]

end Calls

theorem otherDeviceId_ne (deviceId : String) : otherDeviceId deviceId ≠ deviceId := by
  rw [otherDeviceId]
  split
  · rename_i h
    rw [h]
    decide
  · rename_i h
    exact Ne.symm h

theorem forge_notAllowed : forgeToken runtime secret
    (forgedPayload opts.deviceId "ssh_configure" (draws.notAllowed.nowSeconds - 25) draws.notAllowed.nonce) =
      (notAllowedArgs opts draws secret).token runtime := rfl

theorem forge_expired : forgeToken runtime secret
    (forgedPayload opts.deviceId "list_agents" (draws.expired.nowSeconds - 180) draws.expired.nonce) =
      (expiredArgs opts draws secret).token runtime := by
  have htime : draws.expired.nowSeconds - 180 = draws.expired.nowSeconds - 155 - ISSUED_AT_BACKDATE_SECONDS := by
    rw [ISSUED_AT_BACKDATE_SECONDS]
    omega
  rw [htime]
  rfl

theorem sign_probe {args : SignInput} (htarget : isPlatformExecTarget args.capability)
    (hsize : (utf8 (runtime.stringify args.payload)).length ≤ PAYLOAD_MAX) :
    (signPlatformToken runtime args).toOption = some (args.token runtime) := by
  have hfits : ¬ (utf8 (runtime.stringify args.payload)).length > PAYLOAD_MAX_BYTES := not_lt.mpr hsize
  rw [sign_eq htarget, if_neg hfits]
  rfl

theorem transport_token {token : String} {answer : VerifyResult} {after : FirmwareModel} {readings : List Rat}
    (h : device.verify runtime parse (some token) t = some (answer, after)) :
    deviceTransport runtime parse (device, t :: readings) "platform_exec" (tokenInput token) =
      some (answer.reply, (after, readings)) := by
  have htoken : stringField (tokenInput token) "token" = some token := rfl
  simp only [deviceTransport, if_true, htoken, h, Option.map_some]

theorem exitCode_probeChecks {plain ok replay tampered wd na ex : ProbeReply} :
    exitCode (probeChecks plain ok replay tampered wd na ex) = 0 ↔
      refusedWith plain (includes · "not exposed to the LLM") = true ∧ ok.ok = true ∧
      refusedWith replay (fun text => matchesIgnoringCase "nonce already used" text ||
        matchesIgnoringCase "replay" text) = true ∧
      refusedWith tampered (matchesIgnoringCase "invalid token signature") = true ∧
      refusedWith wd (matchesIgnoringCase "different device") = true ∧
      refusedWith na (matchesIgnoringCase "cannot be triggered through platform_exec") = true ∧
      refusedWith ex (matchesIgnoringCase "expired or not yet valid") = true := by
  simp [exitCode, probeChecks, check]

/-- The checks whose outcome the clock of a provisioned device decides. -/
def clockChecks : List String :=
  ["2 valid token, read-only target", "3 replayed token is refused", "7 expired token is refused"]

theorem failed_is_clock {plain ok replay tampered wd na ex : ProbeReply}
    (h₁ : refusedWith plain (includes · "not exposed to the LLM") = true)
    (h₄ : refusedWith tampered (matchesIgnoringCase "invalid token signature") = true)
    (h₅ : refusedWith wd (matchesIgnoringCase "different device") = true)
    (h₆ : refusedWith na (matchesIgnoringCase "cannot be triggered through platform_exec") = true) :
    ∀ c ∈ probeChecks plain ok replay tampered wd na ex, c.pass = false → c.name ∈ clockChecks := by
  intro c hc hfail
  simp only [probeChecks, List.mem_cons, List.not_mem_nil, or_false] at hc
  rcases hc with rfl | rfl | rfl | rfl | rfl | rfl | rfl
  · exact absurd (h₁.symm.trans hfail) (by decide)
  · exact List.mem_cons_self
  · exact List.mem_cons_of_mem _ List.mem_cons_self
  · exact absurd (h₄.symm.trans hfail) (by decide)
  · exact absurd (h₅.symm.trans hfail) (by decide)
  · exact absurd (h₆.symm.trans hfail) (by decide)
  · exact List.mem_cons_of_mem _ (List.mem_cons_of_mem _ List.mem_cons_self)

def plainDenial : ProbeReply where
  ok := false
  result := some "Error: cap 'ota_update' is not exposed to the LLM (reason=root_agent_only)."

theorem transport_plain {input : Json} {s : FirmwareModel × List Rat} :
    deviceTransport runtime parse s "ota_update" input = some (plainDenial, s) := by
  have hname : ¬ "ota_update" = "platform_exec" := by decide
  rw [deviceTransport, if_neg hname]
  rfl

theorem plain_denied : refusedWith plainDenial (includes · "not exposed to the LLM") = true := by
  decide +kernel

theorem forged_refused : refusedWith (fail "invalid token signature").reply
    (matchesIgnoringCase "invalid token signature") = true := by
  decide +kernel

theorem wrongDevice_refused : refusedWith (fail "token was issued for a different device").reply
    (matchesIgnoringCase "different device") = true := by
  decide +kernel

theorem notAllowed_refused :
    refusedWith (fail "capability 'ssh_configure' cannot be triggered through platform_exec").reply
      (matchesIgnoringCase "cannot be triggered through platform_exec") = true := by
  decide +kernel

variable (hs : ProbeSetup runtime parse opts draws secret device)
include hs

theorem verify_call {args : SignInput} (hargs : args ∈ probeCalls opts draws secret) (d : FirmwareModel) (t : Rat) :
    ∃ answer after, d.verify runtime parse (some (args.token runtime)) t = some (answer, after) := by
  obtain ⟨answer, h⟩ := verify_token hs.hmac hs.empty (hs.read args hargs) d t
  exact ⟨answer.1, answer.2, h⟩

theorem stringify_call {args : SignInput} (hargs : args ∈ probeCalls opts draws secret) :
    runtime.stringify args.payload ≠ "" :=
  nonempty_of_parse hs.empty (hs.read args hargs)

theorem open_call {args : SignInput} (hargs : args ∈ probeCalls opts draws secret) {d : FirmwareModel}
    (hd : d.Holds secret opts.deviceId) :
    d.openToken runtime (some (args.token runtime)) = .ok (runtime.stringify args.payload) := by
  have hsecret : args.secret = secret := by
    simp only [probeCalls, List.mem_cons, List.not_mem_nil, or_false] at hargs
    rcases hargs with rfl | rfl | rfl | rfl | rfl <;> rfl
  apply open_of_keyed hs.hmac hs.empty (hs.read args hargs) (hs.size args hargs)
  rw [hsecret]
  exact filter_of_holds hs.long hd

theorem answer_error {args : SignInput} (hargs : args ∈ probeCalls opts draws secret) {d : FirmwareModel}
    (hd : d.Holds secret opts.deviceId) {error : String} (h : d.judge args.payload t = .error error) :
    d.verify runtime parse (some (args.token runtime)) t = some (fail error, d) :=
  (verify_payload (hs.read args hargs) (open_call hs hargs hd)).1 error h

theorem holds_of_shares (hshares : device.Shares runtime (goodArgs opts draws secret))
    (hd : device.ownDeviceId = opts.deviceId) : device.Holds secret opts.deviceId := by
  obtain ⟨own, hkey, hsame⟩ := hshares
  obtain ⟨hown, -⟩ := Option.filter_eq_some_iff.mp hkey
  obtain rfl := hs.apart own hown hsame
  exact ⟨hown, hd⟩

theorem refuse_good (t : Rat) (hd : ¬ device.Holds secret opts.deviceId) : ∃ error,
    device.verify runtime parse (some ((goodArgs opts draws secret).token runtime)) t = some (fail error, device) := by
  have hargs := goodArgs_mem opts draws secret
  by_cases hshares : device.Shares runtime (goodArgs opts draws secret)
  · have hid : device.ownDeviceId ≠ (goodArgs opts draws secret).deviceId := fun h => hd (holds_of_shares hs hshares h)
    obtain ⟨own, hkey, hsame⟩ := hshares
    have hopen := openToken_signed hs.hmac (stringify_call hs hargs) (hs.size _ hargs) hkey
    rw [if_neg (not_not.mpr hsame)] at hopen
    exact ⟨_, (verify_payload (hs.read _ hargs) hopen).1 _ (judge_otherDevice hid)⟩
  · exact verify_unshared hs.hmac (stringify_call hs hargs) (hs.size _ hargs) hshares

theorem verify_good (t : Rat) (hd : device.Holds secret opts.deviceId) : ∃ answer after,
    device.verify runtime parse (some ((goodArgs opts draws secret).token runtime)) t = some (answer, after) ∧
    (answer.reply.ok = true ↔ Synchronised draws.good.nowSeconds t) ∧
    (answer.reply.ok = true → after = device.remember draws.good.nonce) := by
  have hargs := goodArgs_mem opts draws secret
  have hjudged : Judged (goodArgs opts draws secret) device t (device.judge (goodArgs opts draws secret).payload t) :=
    judged rfl hd.id
  generalize hj : device.judge (goodArgs opts draws secret).payload t = judgement at hjudged
  cases hjudged with
  | windowless h =>
      exact ⟨_, _, answer_error hs hargs hd hj, iff_of_false (fun h => by cases h) (not_synchronised_of_lt h),
        fun h => by cases h⟩
  | noClock h =>
      exact ⟨_, _, answer_error hs hargs hd hj, iff_of_false (fun h => by cases h) fun h' => absurd h'.1 (not_le.mpr h),
        fun h => by cases h⟩
  | expired h =>
      exact ⟨_, _, answer_error hs hargs hd hj, iff_of_false (fun h => by cases h) (not_synchronised_of_outside h),
        fun h => by cases h⟩
  | replay h hn =>
      obtain ⟨random, hlen, hrandom⟩ := hs.nonce
      rcases hn with hn | hn
      · have hempty := toBase64Url_eq_empty.mp (hrandom.symm.trans hn)
        rw [hempty] at hlen
        cases hlen
      · exact absurd hn hs.unseen
  | granted h hn =>
      exact ⟨_, _, (verify_payload (hs.read _ hargs) (open_call hs hargs hd)).2 _ _ _ hj, iff_of_true rfl h,
        fun _ => rfl⟩

theorem verify_again (t : Rat) (hd : device.Holds secret opts.deviceId) : ∃ error,
    (device.remember draws.good.nonce).verify runtime parse (some ((goodArgs opts draws secret).token runtime)) t =
      some (fail error, device.remember draws.good.nonce) ∧
    (refusedWith (fail error).reply (fun text => matchesIgnoringCase "nonce already used" text ||
      matchesIgnoringCase "replay" text) = true ↔ Synchronised draws.good.nowSeconds t) := by
  have hargs := goodArgs_mem opts draws secret
  have hd' := holds_remember hd draws.good.nonce
  have hseen : utf16 draws.good.nonce ∈ (device.remember draws.good.nonce).seenNonces := by
    obtain ⟨random, hlen, hrandom⟩ := hs.nonce
    have hkept : kept draws.good.nonce = utf16 draws.good.nonce := by
      apply kept_of_short
      rw [hrandom, utf16Length_toBase64Url, hlen]
      decide
    rw [remember_eq, hkept]
    exact Recent.mem_push (by decide) device.seenNonces (utf16 draws.good.nonce)
  have hjudged : Judged (goodArgs opts draws secret) (device.remember draws.good.nonce) t
      ((device.remember draws.good.nonce).judge (goodArgs opts draws secret).payload t) := judged rfl hd.id
  generalize hj : (device.remember draws.good.nonce).judge (goodArgs opts draws secret).payload t = judgement at hjudged
  cases hjudged with
  | windowless h =>
      exact ⟨_, answer_error hs hargs hd' hj, iff_of_false (by decide +kernel) (not_synchronised_of_lt h)⟩
  | noClock h =>
      exact ⟨_, answer_error hs hargs hd' hj, iff_of_false (by decide +kernel) fun h' => absurd h'.1 (not_le.mpr h)⟩
  | expired h =>
      exact ⟨_, answer_error hs hargs hd' hj, iff_of_false (by decide +kernel) (not_synchronised_of_outside h)⟩
  | replay h hn => exact ⟨_, answer_error hs hargs hd' hj, iff_of_true (by decide +kernel) h⟩
  | granted h hn => exact absurd (.inr hseen) hn

theorem verify_forged (t : Rat) {d : FirmwareModel} (hd : d.Holds secret opts.deviceId) {token : String}
    (htoken : tamper ((freshArgs opts draws secret).token runtime) = some token) :
    d.verify runtime parse (some token) t = some (fail "invalid token signature", d) := by
  have hargs := freshArgs_mem opts draws secret
  exact verify_tampered hs.hmac (stringify_call hs hargs) (filter_of_holds hs.long hd) htoken

theorem verify_wrongDevice (t : Rat) {d : FirmwareModel} (hd : d.Holds secret opts.deviceId) :
    d.verify runtime parse (some ((wrongDeviceArgs opts draws secret).token runtime)) t =
      some (fail "token was issued for a different device", d) := by
  have hargs := wrongDeviceArgs_mem opts draws secret
  apply answer_error hs hargs hd (judge_otherDevice _)
  rw [hd.id]
  exact (otherDeviceId_ne opts.deviceId).symm

theorem verify_notAllowed (t : Rat) {d : FirmwareModel} (hd : d.Holds secret opts.deviceId) :
    d.verify runtime parse (some ((notAllowedArgs opts draws secret).token runtime)) t =
      some (fail "capability 'ssh_configure' cannot be triggered through platform_exec", d) := by
  have hargs := notAllowedArgs_mem opts draws secret
  have htarget : isPlatformExecTarget "ssh_configure" = false := by decide
  have hne : "ssh_configure" ≠ "" := by decide
  exact answer_error hs hargs hd (judge_notAllowed hd.id hne htarget)

theorem verify_expired (t : Rat) {d : FirmwareModel} (hd : d.Holds secret opts.deviceId) : ∃ answer after,
    d.verify runtime parse (some ((expiredArgs opts draws secret).token runtime)) t = some (answer, after) ∧
    (refusedWith answer.reply (matchesIgnoringCase "expired or not yet valid") = true ↔
      Outside (draws.expired.nowSeconds - 155) t) := by
  have hargs := expiredArgs_mem opts draws secret
  have hjudged : Judged (expiredArgs opts draws secret) d t (d.judge (expiredArgs opts draws secret).payload t) :=
    judged rfl hd.id
  generalize hj : d.judge (expiredArgs opts draws secret).payload t = judgement at hjudged
  cases hjudged with
  | windowless h =>
      exact ⟨_, _, answer_error hs hargs hd hj, iff_of_false (by decide +kernel)
        fun h' => absurd h'.1 (Int.not_le.mpr h)⟩
  | noClock h =>
      exact ⟨_, _, answer_error hs hargs hd hj, iff_of_false (by decide +kernel) fun h' => absurd h'.2.1 (not_le.mpr h)⟩
  | expired h => exact ⟨_, _, answer_error hs hargs hd hj, iff_of_true (by decide +kernel) h⟩
  | replay h =>
      exact ⟨_, _, answer_error hs hargs hd hj, iff_of_false (by decide +kernel)
        fun h' => not_synchronised_of_outside h' h⟩
  | granted h =>
      exact ⟨_, _, (verify_payload (hs.read _ hargs) (open_call hs hargs hd)).2 _ _ _ hj,
        iff_of_false (fun h => by cases h) fun h' => not_synchronised_of_outside h' h⟩

theorem sign_call {args : SignInput} (hargs : args ∈ probeCalls opts draws secret)
    (htarget : isPlatformExecTarget args.capability) :
    (signPlatformToken runtime args).toOption = some (args.token runtime) :=
  sign_probe htarget (hs.size args hargs)

theorem runDeviceProbe_eq {σ : Type} {request : ProbeTransport σ} {s₀ s₁ s₂ s₃ s₄ s₅ s₆ s₇ : σ}
    {plain ok replay tampered wd na ex : ProbeReply} {forged : String}
    (htoken : tamper ((freshArgs opts draws secret).token runtime) = some forged)
    (h₁ : request s₀ "ota_update" (.obj [("url", .str "https://example.invalid/x.bin")]) = some (plain, s₁))
    (h₂ : request s₁ "platform_exec" (tokenInput ((goodArgs opts draws secret).token runtime)) = some (ok, s₂))
    (h₃ : request s₂ "platform_exec" (tokenInput ((goodArgs opts draws secret).token runtime)) = some (replay, s₃))
    (h₄ : request s₃ "platform_exec" (tokenInput forged) = some (tampered, s₄))
    (h₅ : request s₄ "platform_exec" (tokenInput ((wrongDeviceArgs opts draws secret).token runtime)) = some (wd, s₅))
    (h₆ : request s₅ "platform_exec" (tokenInput ((notAllowedArgs opts draws secret).token runtime)) = some (na, s₆))
    (h₇ : request s₆ "platform_exec" (tokenInput ((expiredArgs opts draws secret).token runtime)) = some (ex, s₇)) :
    runDeviceProbe runtime request opts draws s₀ = some (probeChecks plain ok replay tampered wd na ex) := by
  have hgood := sign_call hs (goodArgs_mem opts draws secret) rfl
  have hfresh := sign_call hs (freshArgs_mem opts draws secret) rfl
  have hwrong := sign_call hs (wrongDeviceArgs_mem opts draws secret) rfl
  have hderived : (deriveDeviceSecret runtime opts.masterKey opts.deviceId).toOption = some secret := by
    rw [hs.derived]
    rfl
  simp only [goodArgs, freshArgs, wrongDeviceArgs, probeArgs] at hgood hfresh hwrong htoken h₂ h₃ h₅
  simp only [runDeviceProbe, bind, hderived, Option.bind_some, h₁, hgood, h₂, h₃, hfresh, htoken, h₄, hwrong, h₅,
    forge_notAllowed, h₆, forge_expired, h₇]

theorem verify_forgery (d : FirmwareModel) (t : Rat) {token sig : String}
    (hsplit : splitToken token = some ((freshArgs opts draws secret).segment runtime, sig)) :
    ∃ answer, d.verify runtime parse (some token) t = some answer :=
  verify_answers (hs.read _ (freshArgs_mem opts draws secret)) fun _ h => authenticated_of_split hsplit h

theorem probe_fails {t₂ : Rat} {ok : VerifyResult} {d₂ : FirmwareModel}
    (hok : device.verify runtime parse (some ((goodArgs opts draws secret).token runtime)) t₂ = some (ok, d₂))
    (h : ok.reply.ok ≠ true) (t₃ t₄ t₅ t₆ t₇ : Rat) : ∃ results,
    runDeviceProbe runtime (deviceTransport runtime parse) opts draws (device, [t₂, t₃, t₄, t₅, t₆, t₇]) =
      some results ∧ exitCode results ≠ 0 := by
  have hargs := freshArgs_mem opts draws secret
  obtain ⟨forged, htoken, hsplit⟩ := splitToken_tampered hs.hmac (stringify_call hs hargs)
  obtain ⟨replay, d₃, hreplay⟩ := verify_call hs (goodArgs_mem opts draws secret) d₂ t₃
  obtain ⟨tampered, htampered⟩ := verify_forgery hs d₃ t₄ hsplit
  obtain ⟨wd, d₅, hwd⟩ :=
    verify_call hs (wrongDeviceArgs_mem opts draws secret) tampered.2 t₅
  obtain ⟨na, d₆, hna⟩ := verify_call hs (notAllowedArgs_mem opts draws secret) d₅ t₆
  obtain ⟨ex, d₇, hex⟩ := verify_call hs (expiredArgs_mem opts draws secret) d₆ t₇
  refine ⟨_, runDeviceProbe_eq hs htoken transport_plain (transport_token hok) (transport_token hreplay)
    (transport_token htampered) (transport_token hwd) (transport_token hna) (transport_token hex), fun hexit => ?_⟩
  exact h (exitCode_probeChecks.mp hexit).2.1

/-- A probe of a device that has the secret reports on the answers to the two uses of the
first token, to the expired one, and on four answers that are as they should be. -/
theorem probe_of_held (hheld : device.Holds secret opts.deviceId) {t₂ t₃ : Rat} {ok replay : VerifyResult}
    {d₂ d₃ : FirmwareModel}
    (hok : device.verify runtime parse (some ((goodArgs opts draws secret).token runtime)) t₂ = some (ok, d₂))
    (hreplay : d₂.verify runtime parse (some ((goodArgs opts draws secret).token runtime)) t₃ = some (replay, d₃))
    (t₄ t₅ t₆ t₇ : Rat) : ∃ ex : VerifyResult,
    runDeviceProbe runtime (deviceTransport runtime parse) opts draws (device, [t₂, t₃, t₄, t₅, t₆, t₇]) =
      some (probeChecks plainDenial ok.reply replay.reply (fail "invalid token signature").reply
        (fail "token was issued for a different device").reply
        (fail "capability 'ssh_configure' cannot be triggered through platform_exec").reply ex.reply) ∧
    (refusedWith ex.reply (matchesIgnoringCase "expired or not yet valid") = true ↔
      Outside (draws.expired.nowSeconds - 155) t₇) := by
  have hd : d₃.Holds secret opts.deviceId := holds_verify (holds_verify hheld hok) hreplay
  have hargs := freshArgs_mem opts draws secret
  obtain ⟨forged, htoken, -⟩ := splitToken_tampered hs.hmac (stringify_call hs hargs)
  have htampered := verify_forged hs t₄ hd htoken
  have hwd := verify_wrongDevice hs t₅ hd
  have hna := verify_notAllowed hs t₆ hd
  obtain ⟨ex, d₇, hex, houtside⟩ := verify_expired hs t₇ hd
  exact ⟨ex, runDeviceProbe_eq hs htoken transport_plain (transport_token hok) (transport_token hreplay)
    (transport_token htampered) (transport_token hwd) (transport_token hna) (transport_token hex), houtside⟩

end Probe

def probeSecret : List UInt8 :=
  [209, 101, 22, 12, 11, 192, 255, 162, 151, 187, 239, 240, 126, 251, 212, 54, 118, 155, 242, 218, 126, 168, 147, 54,
    246, 99, 16, 228, 154, 76, 72, 170]

def probeOptions : ProbeOptions where
  deviceId := "ecda3b4ff7d4"
  masterKey := (List.range 32).map fun n => UInt8.ofNat (90 + n)

def probeDraw : ProbeDraw where
  nowSeconds := 1800000000
  nonce := toBase64Url (List.replicate 16 0)

def probeDraws : ProbeDraws where
  good := probeDraw
  fresh := probeDraw
  wrongDevice := probeDraw
  notAllowed := probeDraw
  expired := probeDraw

def probedCalls : List SignInput := probeCalls probeOptions probeDraws probeSecret

/-- `JSON.stringify` of a payload of plain texts and integers. -/
def payloadText : Json → String
  | .obj [(_, .str deviceId), (_, .str capability), _, (_, .num (.finite issuedAt)), (_, .num (.finite expiresAt)),
      (_, .str nonce)] =>
        "\x7b\"device_id\":\"" ++ deviceId ++ "\",\"capability\":\"" ++ capability ++
          "\",\"input\":\x7b\x7d,\"issued_at\":" ++ toString issuedAt.num ++ ",\"expires_at\":" ++
            toString expiresAt.num ++ ",\"nonce\":\"" ++ nonce ++ "\"\x7d"
  | _ => ""

def payloadParse (text : String) : Option Json :=
  (probedCalls.map SignInput.payload).find? fun payload => payloadText payload = text

def probeSignatures : List (List UInt8) :=
  let good :=
    [149, 110, 11, 172, 58, 61, 195, 130, 83, 154, 33, 176, 237, 222, 18, 166, 22, 94, 76, 218, 218, 58, 47, 124, 54,
      25, 76, 161, 232, 235, 244, 175]
  [good, good,
    [119, 39, 186, 126, 139, 35, 142, 110, 193, 196, 35, 47, 70, 231, 23, 238, 153, 71, 43, 235, 136, 237, 133, 184,
      88, 13, 99, 53, 38, 99, 217, 173],
    [225, 249, 244, 169, 240, 153, 38, 145, 41, 175, 66, 213, 103, 57, 154, 78, 196, 160, 70, 69, 66, 135, 131, 211,
      171, 253, 117, 142, 79, 253, 127, 160],
    [38, 46, 62, 131, 33, 4, 122, 214, 122, 144, 118, 76, 137, 0, 132, 38, 72, 227, 225, 35, 62, 237, 55, 76, 78, 173,
      194, 164, 180, 35, 217, 138]]

def probeRuntime : Runtime where
  stringify := payloadText
  hkdfSha256 := fun _ _ => probeSecret
  hmacSha256 := fun _ text =>
    (((probedCalls.map fun args => toBase64Url (utf8 (payloadText args.payload))).zip probeSignatures).find?
      fun signed => signed.1 = text).elim (List.replicate 32 0) Prod.snd

theorem probe_hmac (key : List UInt8) (text : String) : (probeRuntime.hmacSha256 key text).length = 32 := by
  have hlen : ∀ signature ∈ probeSignatures, signature.length = 32 := by decide
  rw [probeRuntime]
  simp only
  cases hfind : ((probedCalls.map fun args => toBase64Url (utf8 (payloadText args.payload))).zip
      probeSignatures).find? fun signed => signed.1 = text with
  | none => rfl
  | some signed => exact hlen _ (List.of_mem_zip (List.mem_of_find?_eq_some hfind)).2

def probedDevice : FirmwareModel where
  secret := some probeSecret
  ownDeviceId := "ecda3b4ff7d4"

theorem probe_setup : ProbeSetup probeRuntime payloadParse probeOptions probeDraws probeSecret probedDevice where
  derived := by decide
  long := rfl
  hmac := probe_hmac
  empty := by decide +kernel
  read := by decide +kernel
  size := by decide +kernel
  apart := fun _ h _ => (Option.some.inj h).symm
  nonce := ⟨List.replicate 16 0, rfl, rfl⟩
  unseen := List.not_mem_nil

end EspClawPlatform.Provisioning
