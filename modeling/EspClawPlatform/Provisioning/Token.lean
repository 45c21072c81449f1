import Mathlib.Algebra.Order.Ring.Rat
import Mathlib.Tactic.Linarith
import Mathlib.Tactic.NormNum
import EspClawPlatform.Provisioning.FirmwareModel

namespace EspClawPlatform.Provisioning

def base64UrlDigit (n : Nat) : Char :=
  if base64Digit n = '+' then '-' else if base64Digit n = '/' then '_' else base64Digit n

def padding (bytes : List UInt8) : Nat := (3 - bytes.length % 3) % 3

theorem base64_eq (bytes : List UInt8) :
    base64 bytes = (sextets bytes).map base64Digit ++ List.replicate (padding bytes) '=' := by
  induction bytes using base64.induct with
  | case1 | case2 | case3 => simp [base64, sextets, padding, List.replicate]
  | case4 a b c rest ih =>
      have hp : padding (a :: b :: c :: rest) = padding rest := by
        simp only [padding, List.length_cons]
        omega
      rw [base64, sextets, hp, ih]
      rfl

theorem base64UrlDigit_spec : ∀ n < 64, base64UrlDigit n ≠ '=' ∧ base64UrlDigit n ≠ '.' ∧
    (base64UrlDigit n).toNat < 0x10000 ∧ isBase64Url (base64UrlDigit n) ∧
      base64Value (if base64UrlDigit n = '-' then '+' else if base64UrlDigit n = '_' then '/' else base64UrlDigit n) =
        n := by
  decide

theorem drop_padding {l : List Char} (h : ∀ c ∈ l, c ≠ '=') (k : Nat) :
    ((l ++ List.replicate k '=').reverse.dropWhile (· = '=')).reverse = l := by
  rw [strip_append_replicate]
  have hrest : l.reverse.dropWhile (· = '=') = l.reverse := by
    cases hr : l.reverse with
    | nil => rfl
    | cons c cs =>
        have hc : c ≠ '=' := h c (List.mem_reverse.mp (hr ▸ List.mem_cons_self))
        rw [List.dropWhile_cons_of_neg (by simpa using hc)]
  rw [hrest, List.reverse_reverse]

theorem toBase64Url_eq (bytes : List UInt8) :
    (toBase64Url bytes).toList = (sextets bytes).map base64UrlDigit := by
  have hmap : (base64 bytes).map (fun c => if c = '+' then '-' else if c = '/' then '_' else c) =
      (sextets bytes).map base64UrlDigit ++ List.replicate (padding bytes) '=' := by
    rw [base64_eq, List.map_append, List.map_map, List.map_replicate]
    rfl
  rw [toBase64Url, hmap, String.toList_ofList]
  refine drop_padding ?_ _
  intro c hc
  obtain ⟨n, hn, rfl⟩ := List.mem_map.mp hc
  exact (base64UrlDigit_spec n (sextets_lt bytes n hn)).1

theorem mem_toBase64Url {bytes : List UInt8} {c : Char} (h : c ∈ (toBase64Url bytes).toList) :
    ∃ n < 64, c = base64UrlDigit n := by
  rw [toBase64Url_eq] at h
  obtain ⟨n, hn, rfl⟩ := List.mem_map.mp h
  exact ⟨n, sextets_lt bytes n hn, rfl⟩

theorem fromBase64Url_toBase64Url (bytes : List UInt8) : fromBase64Url (toBase64Url bytes) = some bytes := by
  have hall : (toBase64Url bytes).toList.all isBase64Url := by
    rw [List.all_eq_true]
    intro c hc
    obtain ⟨n, hn, rfl⟩ := mem_toBase64Url hc
    exact (base64UrlDigit_spec n hn).2.2.2.1
  have hvalues : (sextets bytes).map (fun n => base64Value (if base64UrlDigit n = '-' then '+'
      else if base64UrlDigit n = '_' then '/' else base64UrlDigit n)) = sextets bytes := by
    rw [List.map_congr_left fun n hn => (base64UrlDigit_spec n (sextets_lt bytes n hn)).2.2.2.2, List.map_id']
  rw [fromBase64Url, if_pos hall, toBase64Url_eq, List.map_map]
  exact congrArg some ((congrArg unsextets hvalues).trans (unsextets_sextets bytes))

theorem length_toBase64Url (bytes : List UInt8) :
    (toBase64Url bytes).length = (bytes.length * 4 + 2) / 3 := by
  rw [← String.length_toList, toBase64Url_eq, List.length_map, length_sextets]

theorem utf16Length_toBase64Url (bytes : List UInt8) :
    utf16Length (toBase64Url bytes) = (bytes.length * 4 + 2) / 3 := by
  have hnone : (toBase64Url bytes).toList.countP (fun c => 0x10000 ≤ c.toNat) = 0 := by
    rw [List.countP_eq_zero]
    intro c hc
    obtain ⟨n, hn, rfl⟩ := mem_toBase64Url hc
    simpa using (base64UrlDigit_spec n hn).2.2.1
  rw [utf16Length, hnone, Nat.add_zero, length_toBase64Url]

theorem toBase64Url_eq_empty {bytes : List UInt8} : toBase64Url bytes = "" ↔ bytes = [] := by
  rw [← String.length_eq_zero_iff, length_toBase64Url, ← List.length_eq_zero_iff]
  omega

theorem decode_toBase64Url {bytes : List UInt8} {maxDecoded : Nat} (hne : bytes ≠ [])
    (hle : bytes.length ≤ maxDecoded) (hmax : bytes.length ≤ PAYLOAD_MAX) :
    decode (toBase64Url bytes) maxDecoded = some bytes := by
  have hseg : ¬ (toBase64Url bytes = "" ∨ utf16Length (toBase64Url bytes) > SEGMENT_MAX) := by
    rw [toBase64Url_eq_empty, utf16Length_toBase64Url]
    rintro (h | h)
    · exact hne h
    · simp only [PAYLOAD_MAX, SEGMENT_MAX] at hmax h
      omega
  rw [decode, if_neg hseg, fromBase64Url_toBase64Url, Option.filter_some, if_pos (by simpa using hle)]

theorem splitToken_join {payloadSegment sigSegment : String} (hdot : '.' ∉ payloadSegment.toList)
    (hp : payloadSegment ≠ "") (hs : sigSegment ≠ "") :
    splitToken (payloadSegment ++ "." ++ sigSegment) = some (payloadSegment, sigSegment) := by
  have hlist : (payloadSegment ++ "." ++ sigSegment).toList = payloadSegment.toList ++
    '.' :: sigSegment.toList := by
    simp [String.toList_append]
  have hall : ∀ c ∈ payloadSegment.toList, decide (c ≠ '.') = true := by
    intro c hc
    have hne : c ≠ '.' := fun h => hdot (h ▸ hc)
    simpa using hne
  have htake : (payloadSegment ++ "." ++ sigSegment).toList.takeWhile (· ≠ '.') = payloadSegment.toList := by
    rw [hlist, List.takeWhile_append_of_pos hall, List.takeWhile_cons_of_neg (by simp), List.append_nil]
  have hdrop : ((payloadSegment ++ "." ++ sigSegment).toList.dropWhile
    (· ≠ '.')).drop 1 = sigSegment.toList := by
    rw [hlist, List.dropWhile_append_of_pos hall, List.dropWhile_cons_of_neg (by simp)]
    rfl
  have hne : ¬ (payloadSegment.toList = [] ∨ sigSegment.toList = []) := by
    rintro (h | h)
    · exact hp (String.toList_eq_nil_iff.mp h)
    · exact hs (String.toList_eq_nil_iff.mp h)
  simp only [splitToken]
  rw [htake, hdrop, if_neg hne, String.ofList_toList, String.ofList_toList]

def SignInput.segment (runtime : Runtime) (args : SignInput) : String :=
  toBase64Url (utf8 (runtime.stringify args.payload))

def SignInput.token (runtime : Runtime) (args : SignInput) : String :=
  args.segment runtime ++ "." ++ toBase64Url (runtime.hmacSha256 args.secret (args.segment runtime))

def tooLarge (size : Nat) : PlatformTokenError where
  message := s!"input is too large for platform_exec ({size} bytes of token payload, the device accepts {PAYLOAD_MAX_BYTES})"
  kind := .tooLarge

theorem sign_eq {runtime : Runtime} {args : SignInput} (htarget : isPlatformExecTarget args.capability) :
    signPlatformToken runtime args =
      if (utf8 (runtime.stringify args.payload)).length > PAYLOAD_MAX_BYTES then
        .error (tooLarge (utf8 (runtime.stringify args.payload)).length)
      else .ok (args.token runtime) := by
  rw [signPlatformToken, htarget]
  simp only [Bool.not_true, Bool.false_eq_true, if_false]
  split
  · rfl
  · rename_i hsize
    rw [if_neg]
    · rfl
    · rw [length_toBase64Url]
      simp only [PAYLOAD_MAX_BYTES, SEGMENT_MAX_CHARS] at hsize ⊢
      omega

/-- The secret of a device signs the token of the call as its own secret does. -/
def FirmwareModel.Shares (runtime : Runtime) (device : FirmwareModel) (args : SignInput) : Prop :=
  ∃ secret, device.secret.filter (fun secret => SECRET_MIN_BYTES ≤ secret.length) = some secret ∧
    runtime.hmacSha256 secret (args.segment runtime) = runtime.hmacSha256 args.secret (args.segment runtime)

/-- The ways in which a device can take a token that the platform has signed. -/
inductive Verdict (runtime : Runtime) (args : SignInput) (device : FirmwareModel) (t : Rat) :
    VerifyResult → Prop
  | unconfigured (h : device.secret.filter (fun secret => SECRET_MIN_BYTES ≤ secret.length) = none) :
      Verdict runtime args device t (fail "platform secret not configured (run platform_configure locally first)")
  | signature (h : ¬ device.Shares runtime args) :
      Verdict runtime args device t (fail "invalid token signature")
  | otherDevice (h : device.ownDeviceId ≠ args.deviceId) :
      Verdict runtime args device t (fail "token was issued for a different device")
  | invalidWindow (hs : device.Shares runtime args) (hd : device.ownDeviceId = args.deviceId)
      (h : args.nowSeconds < ISSUED_AT_BACKDATE_SECONDS) :
      Verdict runtime args device t (fail "invalid token validity window (must be issued_at < expires_at, TTL <= 60s)")
  | noClock (hs : device.Shares runtime args) (hd : device.ownDeviceId = args.deviceId)
      (h : t < MIN_VALID_EPOCH) :
      Verdict runtime args device t (fail "system time not set; cannot verify token expiry")
  | expired (hw : ISSUED_AT_BACKDATE_SECONDS ≤ args.nowSeconds) (hc : MIN_VALID_EPOCH ≤ t)
      (h : t < args.nowSeconds - 30 ∨ args.nowSeconds + 35 < t) :
      Verdict runtime args device t (fail "token expired or not yet valid")
  | replay (hw : ISSUED_AT_BACKDATE_SECONDS ≤ args.nowSeconds) (hc : MIN_VALID_EPOCH ≤ t)
      (h : args.nonce = "" ∨ utf16 args.nonce ∈ device.seenNonces) :
      Verdict runtime args device t (fail "token nonce already used (replay)")
  | accepted (hd : device.ownDeviceId = args.deviceId) (hc : MIN_VALID_EPOCH ≤ t)
      (h : args.nowSeconds - 30 ≤ t ∧ t ≤ args.nowSeconds + 35) :
      Verdict runtime args device t (.accepted args.capability (.obj args.input.rows))

section Signed

variable {runtime : Runtime} {parse : String → Option Json} {args : SignInput}
  {device : FirmwareModel} {t : Rat}

theorem splitToken_token (hhmac : ∀ key text, (runtime.hmacSha256 key text).length = 32)
    (hne : runtime.stringify args.payload ≠ "") : splitToken (args.token runtime) =
      some (args.segment runtime, toBase64Url (runtime.hmacSha256 args.secret (args.segment runtime))) := by
  refine splitToken_join ?_ ?_ ?_
  · intro hdot
    obtain ⟨n, hn, hc⟩ := mem_toBase64Url hdot
    exact (base64UrlDigit_spec n hn).2.1 hc.symm
  · rw [SignInput.segment, ne_eq, toBase64Url_eq_empty]
    intro hnil
    have hlen := length_utf8Encode_le (runtime.stringify args.payload).toList
    rw [show utf8Encode (runtime.stringify args.payload).toList = [] from hnil] at hlen
    exact hne (String.toList_eq_nil_iff.mp (List.length_eq_zero_iff.mp (Nat.le_zero.mp hlen)))
  · rw [ne_eq, toBase64Url_eq_empty]
    intro hnil
    have hlen := hhmac args.secret (args.segment runtime)
    rw [hnil] at hlen
    cases hlen

theorem openToken_signed (hhmac : ∀ key text, (runtime.hmacSha256 key text).length = 32)
    (hne : runtime.stringify args.payload ≠ "")
    (hsize : (utf8 (runtime.stringify args.payload)).length ≤ PAYLOAD_MAX) {secret : List UInt8}
    (hsecret : device.secret.filter (fun secret => SECRET_MIN_BYTES ≤ secret.length) = some secret) :
    device.openToken runtime (some (args.token runtime)) =
      if runtime.hmacSha256 secret (args.segment runtime) ≠ runtime.hmacSha256 args.secret
        (args.segment runtime) then
        .error "invalid token signature"
      else .ok (runtime.stringify args.payload) := by
  have hsplit := splitToken_token hhmac hne
  have htoken : args.token runtime ≠ "" := by
    intro h
    rw [h] at hsplit
    cases hsplit
  have hsig : (decode (toBase64Url (runtime.hmacSha256 args.secret (args.segment runtime))) 64).filter
      (fun sig => sig.length = 32) = some (runtime.hmacSha256 args.secret (args.segment runtime)) := by
    have hlen := hhmac args.secret (args.segment runtime)
    rw [decode_toBase64Url (by rintro h; rw [h] at hlen; cases hlen) (by omega) (by rw [hlen]; decide),
      Option.filter_some, if_pos (by simpa using hlen)]
  have hbytes : utf8 (runtime.stringify args.payload) ≠ [] := by
    intro hnil
    have hlen := length_utf8Encode_le (runtime.stringify args.payload).toList
    rw [show utf8Encode (runtime.stringify args.payload).toList = [] from hnil] at hlen
    exact hne (String.toList_eq_nil_iff.mp (List.length_eq_zero_iff.mp (Nat.le_zero.mp hlen)))
  have hpayload : decode (args.segment runtime) PAYLOAD_MAX = some (utf8 (runtime.stringify args.payload)) :=
    decode_toBase64Url hbytes hsize hsize
  have htext : String.ofList (utf8Decode (utf8 (runtime.stringify args.payload)).length
      (utf8 (runtime.stringify args.payload))) = runtime.stringify args.payload := by
    rw [utf8, show (runtime.stringify args.payload).toList.flatMap String.utf8EncodeChar =
      utf8Encode (runtime.stringify args.payload).toList from rfl, utf8Decode_encode (length_utf8Encode_le _),
      String.ofList_toList]
  simp only [FirmwareModel.openToken, hsecret, Option.getD_some, if_neg htoken, hsplit, hsig, hpayload, htext]

variable (args) in
theorem str_payload : stringField args.payload "device_id" = some args.deviceId ∧
    stringField args.payload "capability" = some args.capability ∧
      stringField args.payload "nonce" = some args.nonce := by
  simp [stringField, SignInput.payload, Json.property]

theorem window_payload : validityWindow (numberField args.payload "issued_at")
    (numberField args.payload "expires_at") =
    if args.nowSeconds < ISSUED_AT_BACKDATE_SECONDS then none
    else some ((args.nowSeconds : Rat) - 25, (args.nowSeconds : Rat) + 35) := by
  have hissued : numberField args.payload "issued_at" = .finite ((args.nowSeconds : Rat) - 25) := by
    simp [numberField, SignInput.payload, Json.property, integer, ISSUED_AT_BACKDATE_SECONDS]
  have hexpires : numberField args.payload "expires_at" = .finite ((args.nowSeconds : Rat) + 35) := by
    simp [numberField, SignInput.payload, Json.property, integer, ISSUED_AT_BACKDATE_SECONDS,
      TOKEN_TTL_SECONDS]
    linarith
  have hneg : (args.nowSeconds : Rat) - 25 < 0 ↔ args.nowSeconds < ISSUED_AT_BACKDATE_SECONDS := by
    rw [sub_neg]
    exact_mod_cast Iff.rfl
  have hcond : ((args.nowSeconds : Rat) - 25 < 0 ∨ (args.nowSeconds : Rat) + 35 < 0 ∨
      (args.nowSeconds : Rat) + 35 ≤ (args.nowSeconds : Rat) - 25 ∨
        (args.nowSeconds : Rat) + 35 - ((args.nowSeconds : Rat) - 25) > MAX_TTL_S) ↔
      args.nowSeconds < ISSUED_AT_BACKDATE_SECONDS := by
    rw [← hneg]
    constructor
    · rintro (h | h | h | h)
      · exact h
      · linarith
      · linarith
      · rw [MAX_TTL_S] at h
        linarith
    · exact .inl
  rw [hissued, hexpires, validityWindow]
  exact if_congr hcond rfl rfl

theorem input_payload : inputField args.payload = .obj args.input.rows := by
  simp [inputField, SignInput.payload, Json.property]

theorem judge_signed (htarget : isPlatformExecTarget args.capability)
    (hd : device.ownDeviceId = args.deviceId) :
    device.judge args.payload t =
      if args.nowSeconds < ISSUED_AT_BACKDATE_SECONDS then
        .error "invalid token validity window (must be issued_at < expires_at, TTL <= 60s)"
      else if t < MIN_VALID_EPOCH then .error "system time not set; cannot verify token expiry"
      else if t < args.nowSeconds - 30 ∨ args.nowSeconds + 35 < t then .error "token expired or not yet valid"
      else if args.nonce = "" ∨ utf16 args.nonce ∈ device.seenNonces then .error "token nonce already used (replay)"
      else .ok (args.capability, .obj args.input.rows, args.nonce) := by
  obtain ⟨hdevice, hcapability, hnonce⟩ := str_payload args
  have hne : args.capability ≠ "" := by
    intro h
    rw [h] at htarget
    cases htarget
  have hskew : t < (args.nowSeconds : Rat) - 25 - CLOCK_SKEW_S ↔ t < args.nowSeconds - 30 := by
    rw [CLOCK_SKEW_S]
    constructor <;> intro h <;> linarith
  simp only [FirmwareModel.judge, hdevice, hcapability, hnonce, Option.getD_some, hd, ne_eq,
    not_true_eq_false,
    if_false, if_neg hne, htarget, Bool.not_true, Bool.false_eq_true, window_payload, input_payload]
  split
  · rename_i hw
    split at hw
    · rename_i hlt
      rw [if_pos hlt]
    · cases hw
  · rename_i issuedAt expiresAt hw
    split at hw
    · cases hw
    · rename_i hlt
      cases hw
      rw [if_neg hlt]
      simp only [hskew, gt_iff_lt]

theorem verify_payload {token : Option String}
    (hparse : parse (runtime.stringify args.payload) = some args.payload)
    (hopen : device.openToken runtime token = .ok (runtime.stringify args.payload)) :
    (∀ error, device.judge args.payload t = .error error →
      device.verify runtime parse token t = some (fail error, device)) ∧
    ∀ capability input nonce, device.judge args.payload t = .ok (capability, input, nonce) →
      device.verify runtime parse token t = some (.accepted capability input, device.remember nonce) := by
  constructor
  · intro error h
    rw [FirmwareModel.verify, hopen]
    simp only [hparse]
    rw [SignInput.payload] at h ⊢
    simp only [h]
  · intro capability input nonce h
    rw [FirmwareModel.verify, hopen]
    simp only [hparse]
    rw [SignInput.payload] at h ⊢
    simp only [h]

variable (device t) in
theorem verify_signed (hhmac : ∀ key text, (runtime.hmacSha256 key text).length = 32)
    (hempty : parse "" = none) (hparse : parse (runtime.stringify args.payload) = some args.payload)
    (htarget : isPlatformExecTarget args.capability)
    (hsize : (utf8 (runtime.stringify args.payload)).length ≤ PAYLOAD_MAX) :
    ∃ result device', device.verify runtime parse (some (args.token runtime)) t = some (result, device') ∧
      Verdict runtime args device t result := by
  have hne : runtime.stringify args.payload ≠ "" := by
    intro h
    rw [h, hempty] at hparse
    cases hparse
  cases hsecret : device.secret.filter (fun secret => SECRET_MIN_BYTES ≤ secret.length) with
  | none =>
      refine ⟨_, device, ?_, .unconfigured hsecret⟩
      rw [FirmwareModel.verify, FirmwareModel.openToken, hsecret]
  | some secret =>
      have hopen := openToken_signed hhmac hne hsize hsecret
      by_cases hsig : runtime.hmacSha256 secret (args.segment runtime) =
          runtime.hmacSha256 args.secret (args.segment runtime)
      · rw [if_neg (not_not.mpr hsig)] at hopen
        obtain ⟨herror, hok⟩ := verify_payload (t := t) hparse hopen
        have hshares : device.Shares runtime args := ⟨secret, hsecret, hsig⟩
        by_cases hd : device.ownDeviceId = args.deviceId
        · have hjudge := judge_signed (t := t) htarget hd
          split at hjudge
          · rename_i hw
            exact ⟨_, _, herror _ hjudge, .invalidWindow hshares hd hw⟩
          · rename_i hw
            split at hjudge
            · rename_i hc
              exact ⟨_, _, herror _ hjudge, .noClock hshares hd hc⟩
            · rename_i hc
              split at hjudge
              · rename_i ht
                exact ⟨_, _, herror _ hjudge, .expired (Int.not_lt.mp hw) (not_lt.mp hc) ht⟩
              · rename_i ht
                split at hjudge
                · rename_i hn
                  exact ⟨_, _, herror _ hjudge, .replay (Int.not_lt.mp hw) (not_lt.mp hc) hn⟩
                · rw [not_or, not_lt, not_lt] at ht
                  exact ⟨_, _, hok _ _ _ hjudge, .accepted hd (not_lt.mp hc) ht⟩
        · refine ⟨_, device, herror "token was issued for a different device" ?_, .otherDevice hd⟩
          rw [FirmwareModel.judge, (str_payload args).1, if_pos]
          exact fun h => hd (Option.some.inj h).symm
      · rw [if_pos hsig] at hopen
        refine ⟨_, device, ?_, .signature ?_⟩
        · rw [FirmwareModel.verify, hopen]
        · rintro ⟨secret', hsecret', hsig'⟩
          obtain rfl := Option.some.inj (hsecret.symm.trans hsecret')
          exact hsig hsig'

theorem accepted_iff {result : VerifyResult} {random : List UInt8} (hsecret : args.secret.length = 32)
    (hrandom : random.length = NONCE_BYTES) (hnonce : args.nonce = toBase64Url random)
    (hs : device.secret = some args.secret) (hd : device.ownDeviceId = args.deviceId)
    (hn : utf16 args.nonce ∉ device.seenNonces) (h : Verdict runtime args device t result) :
    (∃ capability input, result = .accepted capability input) ↔
      MIN_VALID_EPOCH ≤ t ∧ args.nowSeconds - 30 ≤ t ∧ t ≤ args.nowSeconds + 35 := by
  have hfilter : device.secret.filter (fun secret => SECRET_MIN_BYTES ≤ secret.length) = some args.secret := by
    rw [hs, Option.filter_some, if_pos]
    rw [hsecret]
    decide
  have hrefused {error : String} (hno : ¬ (MIN_VALID_EPOCH ≤ t ∧ args.nowSeconds - 30 ≤ t ∧
    t ≤ args.nowSeconds + 35)) :
      (∃ capability input, fail error = .accepted capability input) ↔
        MIN_VALID_EPOCH ≤ t ∧ args.nowSeconds - 30 ≤ t ∧ t ≤ args.nowSeconds + 35 :=
    iff_of_false (fun ⟨_, _, h⟩ => by cases h) hno
  cases h with
  | unconfigured h => cases hfilter.symm.trans h
  | signature h => exact absurd ⟨args.secret, hfilter, rfl⟩ h
  | otherDevice h => exact absurd hd h
  | invalidWindow _ _ h =>
      apply hrefused
      rintro ⟨hc, -, ht⟩
      have hlt : (args.nowSeconds : Rat) < 25 := by exact_mod_cast h
      rw [MIN_VALID_EPOCH] at hc
      linarith
  | noClock _ _ h => exact hrefused fun ⟨hc, _⟩ => absurd hc (not_le.mpr h)
  | expired _ _ h =>
      apply hrefused
      rintro ⟨-, hl, hu⟩
      rcases h with h | h <;> linarith
  | replay _ _ h =>
      rcases h with h | h
      · rw [hnonce, toBase64Url_eq_empty] at h
        rw [h] at hrandom
        cases hrandom
      · exact absurd h hn
  | accepted _ hc h => exact iff_of_true ⟨_, _, rfl⟩ ⟨hc, h⟩

theorem verdict_accepted {result : VerifyResult} {capability : String} {input : Json}
    (h : Verdict runtime args device t result) (hr : result = .accepted capability input) :
    device.ownDeviceId = args.deviceId ∧ capability = args.capability ∧ input = .obj args.input.rows := by
  cases h with
  | accepted hd => cases hr; exact ⟨hd, rfl, rfl⟩
  | _ => cases hr

end Signed

/-- What the platform signs, the device accepts: only a payload above the limit
is refused, and by the first check; any other token is accepted exactly in its
time by the device that it is for, with the capability and the input that were
signed, and by no device of another id. -/
theorem device_accepts_signed {runtime : Runtime} {parse : String → Option Json} {args : SignInput}
    {random : List UInt8} (hhmac : ∀ key text, (runtime.hmacSha256 key text).length = 32)
    (hempty : parse "" = none)
    (hparse : parse (runtime.stringify args.payload) = some args.payload) (hsecret : args.secret.length = 32)
    (htarget : isPlatformExecTarget args.capability) (hrandom : random.length = NONCE_BYTES)
    (hnonce : args.nonce = toBase64Url random) :
    ((∃ error, signPlatformToken runtime args = .error error ∧ error.kind = .tooLarge) ↔
      768 < (utf8 (runtime.stringify args.payload)).length) ∧
    (∀ error, signPlatformToken runtime args = .error error →
      error = tooLarge (utf8 (runtime.stringify args.payload)).length) ∧
    ((utf8 (runtime.stringify args.payload)).length ≤ 768 →
      ∃ token, signPlatformToken runtime args = .ok token ∧
      ∀ (device : FirmwareModel) (t : Rat),
        (device.secret = some args.secret → device.ownDeviceId = args.deviceId →
          utf16 args.nonce ∉ device.seenNonces →
          ((∃ capability input device', device.verify runtime parse (some token) t =
            some (.accepted capability input, device')) ↔
              1704067200 ≤ t ∧ args.nowSeconds - 30 ≤ t ∧ t ≤ args.nowSeconds + 35) ∧
          ∀ capability input device', device.verify runtime parse (some token) t =
            some (.accepted capability input, device') →
              capability = args.capability ∧ input = .obj args.input.rows) ∧
        (device.ownDeviceId ≠ args.deviceId → ∀ capability input device',
          device.verify runtime parse (some token) t ≠ some (.accepted capability input, device'))) := by
  have hsign : signPlatformToken runtime args = _ := sign_eq htarget
  by_cases hsize : (utf8 (runtime.stringify args.payload)).length > PAYLOAD_MAX_BYTES
  · rw [if_pos hsize] at hsign
    refine ⟨iff_of_true ⟨_, hsign, rfl⟩ hsize, fun error h => ?_, fun hle => absurd hsize (not_lt.mpr hle)⟩
    exact (Except.error.inj (hsign.symm.trans h)).symm
  · rw [if_neg hsize] at hsign
    refine ⟨iff_of_false ?_ hsize, fun error h => ?_, fun hle => ⟨_, hsign, fun device t => ?_⟩⟩
    · rintro ⟨error, h, -⟩
      cases hsign.symm.trans h
    · cases hsign.symm.trans h
    · obtain ⟨result, device', hverify, hverdict⟩ :=
        verify_signed device t hhmac hempty hparse htarget hle
      have hresult {capability : String} {input : Json} {d : FirmwareModel}
          (h : device.verify runtime parse
            (some (args.token runtime)) t = some (.accepted capability input, d)) :
          result = .accepted capability input :=
        congrArg Prod.fst (Option.some.inj (hverify.symm.trans h))
      refine ⟨fun hs hd hn => ⟨?_, fun capability input d h => ?_⟩, fun hd capability input d h => ?_⟩
      · rw [show (1704067200 : Rat) = MIN_VALID_EPOCH from rfl,
          ← accepted_iff hsecret hrandom hnonce hs hd hn hverdict]
        constructor
        · rintro ⟨capability, input, d, h⟩
          exact ⟨capability, input, hresult h⟩
        · rintro ⟨capability, input, rfl⟩
          exact ⟨capability, input, device', hverify⟩
      · exact (verdict_accepted hverdict (hresult h)).2
      · exact hd (verdict_accepted hverdict (hresult h)).1

def sampleArgs : SignInput where
  secret := (List.range 32).map UInt8.ofNat
  deviceId := "ecda3b4ff7d4"
  capability := "list_agents"
  input := .empty
  nowSeconds := 1780000000
  nonce := toBase64Url (List.replicate 16 0)

def samplePayload : String :=
  "\x7b\"device_id\":\"ecda3b4ff7d4\",\"capability\":\"list_agents\",\"input\":\x7b\x7d," ++
    "\"issued_at\":1779999975,\"expires_at\":1780000035,\"nonce\":\"AAAAAAAAAAAAAAAAAAAAAA\"\x7d"

def sampleParse (text : String) : Option Json :=
    if text = samplePayload then some sampleArgs.payload else none

def sampleRuntime : Runtime where
  stringify := fun _ => samplePayload
  hkdfSha256 := fun _ _ => sampleArgs.secret
  hmacSha256 := fun _ _ =>
    [215, 73, 67, 37, 91, 175, 255, 99, 243, 55, 61, 224, 177, 12, 126, 128,
      83, 253, 69, 63, 87, 190, 220, 0, 33, 1, 56, 24, 175, 74, 68, 167]

theorem sample_size : (utf8 (sampleRuntime.stringify sampleArgs.payload)).length ≤ PAYLOAD_MAX := by
  decide +kernel

def sampleDevice : FirmwareModel where
  secret := some sampleArgs.secret
  ownDeviceId := "ecda3b4ff7d4"

theorem sample_parsed : sampleParse (sampleRuntime.stringify sampleArgs.payload) = some sampleArgs.payload :=
  if_pos rfl

theorem sample_empty : sampleParse "" = none :=
  if_neg (by decide)

theorem sample_token_accepted : ∃ token, signPlatformToken sampleRuntime sampleArgs = .ok token ∧
    ∃ capability input device,
      ({ secret := some sampleArgs.secret, ownDeviceId := "ecda3b4ff7d4" } : FirmwareModel).verify
        sampleRuntime sampleParse (some token) 1780000000 = some (.accepted capability input, device) := by
  have hnonce : sampleArgs.nonce = toBase64Url (List.replicate 16 0) := rfl
  obtain ⟨-, -, haccepts⟩ :=
    device_accepts_signed (fun _ _ => rfl) sample_empty sample_parsed (by decide) (by decide) (by decide) hnonce
  obtain ⟨token, hsign, haccepts⟩ := haccepts sample_size
  refine ⟨token, hsign, (((haccepts _ 1780000000).1 rfl rfl (by simp)).1).mpr ?_⟩
  norm_num [sampleArgs]

end EspClawPlatform.Provisioning
