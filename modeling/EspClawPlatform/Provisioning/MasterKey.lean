import EspClawPlatform.Provisioning.Token

namespace EspClawPlatform.Provisioning

/-- `PLATFORM_MASTER_KEY` in the schema of the environment. -/
def acceptsMasterKey (raw : Option String) : Bool :=
  raw.all fun text => text.toList.all isBase64Url && 43 ≤ text.length

/-- The key that the token service holds; the outer `none` is the error of `fromBase64Url`. -/
def masterKey (raw : Option String) : Option (Option (List UInt8)) :=
  match raw.filter (· ≠ "") with
  | none => some none
  | some text => (fromBase64Url text).map some

def requireKey (runtime : Runtime) (masterKey : Option (List UInt8)) (deviceId : String) :
    Except IssueError (List UInt8) :=
  match masterKey with
  | none => .error (.unavailable "Privileged operations are not configured (PLATFORM_MASTER_KEY is not set)")
  | some key => deriveDeviceSecret runtime key deviceId

def deviceSecret (runtime : Runtime) (masterKey : Option (List UInt8)) (deviceId : String) :
    Except IssueError String :=
  (requireKey runtime masterKey deviceId).map toBase64Url

def keyTooShort : IssueError := .plain s!"master key must be at least {MIN_MASTER_KEY_BYTES} bytes"

theorem isBase64Url_toBase64Url (bytes : List UInt8) :
    ∀ c ∈ (toBase64Url bytes).toList, isBase64Url c = true := by
  intro c hc
  obtain ⟨n, hn, rfl⟩ := mem_toBase64Url hc
  exact (base64UrlDigit_spec n hn).2.2.2.1

theorem length_fromBase64Url {text : String} {bytes : List UInt8} (h : fromBase64Url text = some bytes) :
    bytes.length = text.length * 3 / 4 := by
  rw [fromBase64Url] at h
  split at h
  · obtain rfl := Option.some.inj h
    rw [length_unsextets, List.length_map, String.length_toList]
  · cases h

theorem fromBase64Url_accepted {text : String} (h : acceptsMasterKey (some text) = true) :
    ∃ bytes, fromBase64Url text = some bytes ∧ MIN_MASTER_KEY_BYTES ≤ bytes.length := by
  rw [acceptsMasterKey, Option.all_some, Bool.and_eq_true, decide_eq_true_eq] at h
  obtain ⟨hall, hlength⟩ := h
  cases hbytes : fromBase64Url text with
  | none => simp [fromBase64Url, hall] at hbytes
  | some bytes =>
      refine ⟨bytes, rfl, ?_⟩
      rw [length_fromBase64Url hbytes, MIN_MASTER_KEY_BYTES]
      omega

theorem masterKey_accepted {raw : Option String} (h : acceptsMasterKey raw = true) :
    ∃ key, masterKey raw = some key ∧ ∀ bytes ∈ key, MIN_MASTER_KEY_BYTES ≤ bytes.length := by
  cases raw with
  | none => exact ⟨none, rfl, fun bytes hb => (by cases hb)⟩
  | some text =>
      have hne : text ≠ "" := by
        rintro rfl
        exact absurd h (by decide)
      obtain ⟨bytes, hbytes, hlength⟩ := fromBase64Url_accepted h
      refine ⟨some bytes, ?_, ?_⟩
      · rw [masterKey, Option.filter_some, if_pos (decide_eq_true hne)]
        exact congrArg (Option.map some) hbytes
      · rintro key hmem
        obtain rfl := Option.some.inj hmem
        exact hlength

section Service

variable {runtime : Runtime} {key : Option (List UInt8)} {deviceId : String}

theorem requireKey_ne_tooShort (h : ∀ bytes ∈ key, MIN_MASTER_KEY_BYTES ≤ bytes.length) :
    requireKey runtime key deviceId ≠ .error keyTooShort := by
  intro he
  cases key with
  | none => cases Except.error.inj he
  | some bytes =>
      rw [requireKey, deriveDeviceSecret, if_neg (Nat.not_lt.mpr (h bytes rfl))] at he
      split at he
      · exact absurd (Except.error.inj he) (by decide)
      · cases he

theorem deviceSecret_ne_tooShort (h : ∀ bytes ∈ key, MIN_MASTER_KEY_BYTES ≤ bytes.length) :
    deviceSecret runtime key deviceId ≠ .error keyTooShort := by
  intro he
  have hkey : requireKey runtime key deviceId ≠ .error keyTooShort := requireKey_ne_tooShort h
  rw [deviceSecret] at he
  cases hr : requireKey runtime key deviceId with
  | ok secret =>
      rw [hr] at he
      cases he
  | error e =>
      rw [hr] at he hkey
      obtain rfl : e = keyTooShort := Except.error.inj he
      exact hkey rfl

theorem issue_eq (capability : String) (input : Record) (nowSeconds : Int) (nonce : String) :
    issue runtime key deviceId capability input nowSeconds nonce =
      (requireKey runtime key deviceId).bind fun secret =>
        (signPlatformToken runtime
          { secret := secret, deviceId := deviceId, capability := capability, input := input,
            nowSeconds := nowSeconds, nonce := nonce }).mapError IssueError.token := by
  cases key <;> rfl

theorem issue_ne_tooShort (h : ∀ bytes ∈ key, MIN_MASTER_KEY_BYTES ≤ bytes.length) (capability : String)
    (input : Record) (nowSeconds : Int) (nonce : String) :
    issue runtime key deviceId capability input nowSeconds nonce ≠ .error keyTooShort := by
  have hkey : requireKey runtime key deviceId ≠ .error keyTooShort := requireKey_ne_tooShort h
  rw [issue_eq]
  cases hr : requireKey runtime key deviceId with
  | error e =>
      intro he
      obtain rfl : e = keyTooShort := Except.error.inj he
      exact hkey hr
  | ok secret =>
      -- what signing throws is an error of the token
      change (signPlatformToken runtime _).mapError IssueError.token ≠ _
      intro he
      cases hs : signPlatformToken runtime
        { secret := secret, deviceId := deviceId, capability := capability, input := input,
          nowSeconds := nowSeconds, nonce := nonce } with
      | ok token =>
          rw [hs] at he
          cases he
      | error e =>
          rw [hs] at he
          cases Except.error.inj he

end Service

theorem toBase64Url_injective : Function.Injective toBase64Url := by
  intro a b h
  have hdecoded := fromBase64Url_toBase64Url a
  rw [h, fromBase64Url_toBase64Url] at hdecoded
  exact (Option.some.inj hdecoded).symm

/-- The codec loses nothing and writes four characters for three bytes, rounded up;
and no key that the environment admits is too short for the token service. -/
theorem base64Url_and_master_key :
    (∀ bytes, (∀ c ∈ (toBase64Url bytes).toList, isBase64Url c = true) ∧
      utf16Length (toBase64Url bytes) = (4 * bytes.length + 2) / 3 ∧
        fromBase64Url (toBase64Url bytes) = some bytes) ∧
    Function.Injective toBase64Url ∧
    (∀ text, acceptsMasterKey (some text) = true →
      ∃ bytes, fromBase64Url text = some bytes ∧ MIN_MASTER_KEY_BYTES ≤ bytes.length) ∧
    ∀ raw, acceptsMasterKey raw = true → ∃ key, masterKey raw = some key ∧
      ∀ (runtime : Runtime) (deviceId : String), deviceSecret runtime key deviceId ≠ .error keyTooShort ∧
        ∀ capability input nowSeconds nonce,
          issue runtime key deviceId capability input nowSeconds nonce ≠ .error keyTooShort := by
  refine ⟨fun bytes => ⟨isBase64Url_toBase64Url bytes, ?_, fromBase64Url_toBase64Url bytes⟩,
    toBase64Url_injective, fun text h => ?_, fun raw h => ?_⟩
  · rw [utf16Length_toBase64Url, Nat.mul_comm]
  · exact fromBase64Url_accepted h
  · obtain ⟨key, hkey, hlength⟩ := masterKey_accepted h
    exact ⟨key, hkey, fun runtime deviceId => ⟨deviceSecret_ne_tooShort hlength, issue_ne_tooShort hlength⟩⟩

end EspClawPlatform.Provisioning
