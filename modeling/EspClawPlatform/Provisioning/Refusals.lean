import EspClawPlatform.Commands.CommandsService
import EspClawPlatform.Provisioning.Token

namespace EspClawPlatform.Provisioning

open Commands (classify matchesDenial)
open Mqtt (ResponseEnvelope)

variable {runtime : Runtime} {parse : String → Option Json} {args : SignInput}
  {device : FirmwareModel} {t : Rat}
variable (id : String) (capability output : Option String)

/-- The response to a command that brought a token: the error text of a refusal, or `ok`. -/
def responseOf (id : String) (capability : Option String) (output : Option String) : VerifyResult →
    ResponseEnvelope
  | .accepted .. => { id := id, capability := capability, ok := true, result := output }
  | .refused error => { id := id, capability := capability, ok := false, result := some error }

/-- The device would take the token for its own, but can tell no time, or was given none. -/
def Untimed (runtime : Runtime) (args : SignInput) (device : FirmwareModel) (t : Rat) : Prop :=
  device.Shares runtime args ∧ device.ownDeviceId = args.deviceId ∧
    (args.nowSeconds < ISSUED_AT_BACKDATE_SECONDS ∨ t < MIN_VALID_EPOCH)

theorem classify_denial {text : String} (h : matchesDenial ("Error: " ++ text) = true) :
    classify (responseOf id capability output (fail text)) = .rejected := by
  simp [responseOf, fail, classify, h]

theorem classify_failure {text : String} (h : matchesDenial ("Error: " ++ text) = false)
    (ht : includes ("Error: " ++ text) "timed out" = false) :
    classify (responseOf id capability output (fail text)) = .failed := by
  simp [responseOf, fail, classify, h, ht]

theorem classify_noClock :
    classify (responseOf id capability output
      (fail "system time not set; cannot verify token expiry")) = .failed :=
  classify_failure _ _ _ (by decide +kernel) (by decide +kernel)

theorem refusal_rejected_iff {error : String} (h : Verdict runtime args device t (.refused error)) :
    classify (responseOf id capability output (.refused error)) = .rejected ↔
      ¬ Untimed runtime args device t := by
  generalize hr : VerifyResult.refused error = result at h
  cases h with
  | unconfigured h =>
      cases hr
      apply iff_of_true (classify_denial _ _ _ (by decide +kernel))
      rintro ⟨⟨secret, hs, -⟩, -⟩
      cases h.symm.trans hs
  | signature h =>
      cases hr
      exact iff_of_true (classify_denial _ _ _ (by decide +kernel)) fun hu => h hu.1
  | otherDevice h =>
      cases hr
      exact iff_of_true (classify_denial _ _ _ (by decide +kernel)) fun hu => h hu.2.1
  | invalidWindow hs hd h =>
      cases hr
      rw [classify_failure _ _ _ (by decide +kernel) (by decide +kernel)]
      exact iff_of_false (by simp) (not_not.mpr ⟨hs, hd, .inl h⟩)
  | noClock hs hd h =>
      cases hr
      rw [classify_noClock]
      exact iff_of_false (by simp) (not_not.mpr ⟨hs, hd, .inr h⟩)
  | expired hw hc =>
      cases hr
      apply iff_of_true (classify_denial _ _ _ (by decide +kernel))
      rintro ⟨-, -, h | h⟩
      · exact absurd hw (Int.not_le.mpr h)
      · exact absurd hc (not_le.mpr h)
  | replay hw hc =>
      cases hr
      apply iff_of_true (classify_denial _ _ _ (by decide +kernel))
      rintro ⟨-, -, h | h⟩
      · exact absurd hw (Int.not_le.mpr h)
      · exact absurd hc (not_le.mpr h)
  | accepted => cases hr

theorem sign_ok {token : String} (h : signPlatformToken runtime args = .ok token) :
    isPlatformExecTarget args.capability ∧ (utf8 (runtime.stringify args.payload)).length ≤ PAYLOAD_MAX ∧
      token = args.token runtime := by
  have htarget : isPlatformExecTarget args.capability := by
    rw [signPlatformToken] at h
    split at h
    · cases h
    · rename_i hn
      simpa using hn
  rw [sign_eq htarget] at h
  split at h
  · cases h
  · rename_i hsize
    exact ⟨htarget, not_lt.mp hsize, (Except.ok.inj h).symm⟩

/-- The refusal of a signed token is classified as a rejection exactly when it
is not about time itself, and a token that is accepted and answered with `ok`
is a success. -/
theorem refusals_are_rejected_iff {token : String} {result : VerifyResult} {device' : FirmwareModel}
    (hhmac : ∀ key text, (runtime.hmacSha256 key text).length = 32) (hempty : parse "" = none)
    (hparse : parse (runtime.stringify args.payload) = some args.payload)
    (hsign : signPlatformToken runtime args = .ok token)
    (hverify : device.verify runtime parse (some token) t = some (result, device')) :
    ((∀ error, result = .refused error → classify (responseOf id capability output result) = .rejected) ∧
      (∀ target input, result = .accepted target input →
        classify (responseOf id capability output result) = .succeeded)) ↔
          ¬ Untimed runtime args device t := by
  obtain ⟨htarget, hsize, rfl⟩ := sign_ok hsign
  obtain ⟨result', d, hverify', hverdict⟩ :=
    verify_signed device t hhmac hempty hparse htarget hsize
  obtain rfl : result = result' := congrArg Prod.fst (Option.some.inj (hverify.symm.trans hverify'))
  cases result with
  | refused error =>
      rw [← refusal_rejected_iff id capability output hverdict]
      constructor
      · exact fun h => h.1 error rfl
      · exact fun h => ⟨fun _ _ => h, (fun _ _ he => by cases he)⟩
  | accepted target input =>
      refine iff_of_true ⟨(fun _ he => by cases he), fun _ _ _ => rfl⟩ ?_
      rintro ⟨-, -, htime⟩
      cases hverdict with
      | accepted _ hc h =>
          rcases htime with htime | htime
          · have hlt : (args.nowSeconds : Rat) < 25 := by exact_mod_cast htime
            rw [MIN_VALID_EPOCH] at hc
            linarith
          · exact absurd hc (not_le.mpr htime)

theorem sample_signed : signPlatformToken sampleRuntime sampleArgs = .ok (sampleArgs.token sampleRuntime) :=
  (sign_eq (by decide)).trans (if_neg (not_lt.mpr sample_size))

theorem clockless_refusal_is_failed : ¬ ∀ (runtime : Runtime) (parse : String → Option Json)
    (args : SignInput) (token id error : String) (capability output : Option String)
    (device device' : FirmwareModel) (t : Rat),
    (∀ key text, (runtime.hmacSha256 key text).length = 32) → parse "" = none →
      parse (runtime.stringify args.payload) = some args.payload →
        signPlatformToken runtime args = .ok token →
        device.verify runtime parse (some token) t = some (.refused error, device') →
          classify (responseOf id capability output (.refused error)) = .rejected := by
  intro h
  have hsecret : sampleDevice.secret.filter (fun secret => SECRET_MIN_BYTES ≤ secret.length) =
      some sampleArgs.secret := by decide
  have hopen := openToken_signed (fun _ _ => rfl) (by decide) sample_size hsecret
  have hjudge : sampleDevice.judge sampleArgs.payload 1000 =
      .error "system time not set; cannot verify token expiry" := by decide +kernel
  have hverify := (verify_payload sample_parsed (hopen.trans (if_neg (not_not.mpr rfl)))).1 _ hjudge
  have hrejected := h sampleRuntime sampleParse sampleArgs _ "c1" _ none none _ _ 1000 (fun _ _ => rfl)
    sample_empty sample_parsed sample_signed hverify
  cases (classify_noClock "c1" none none).symm.trans hrejected

theorem expired_token_is_rejected : ∃ token result device',
    signPlatformToken sampleRuntime sampleArgs = .ok token ∧
    sampleDevice.verify sampleRuntime sampleParse (some token) 1780000100 = some (result, device') ∧
      ∀ error, result = .refused error → classify (responseOf "c1" none none result) = .rejected := by
  obtain ⟨result, device', hverify, -⟩ := verify_signed sampleDevice 1780000100 (fun _ _ => rfl)
    sample_empty sample_parsed (by decide) sample_size
  refine ⟨_, result, device', sample_signed, hverify, ?_⟩
  refine ((refusals_are_rejected_iff "c1" none none (fun _ _ => rfl) sample_empty sample_parsed sample_signed
    hverify).mpr ?_).1
  rintro ⟨-, -, h | h⟩
  · exact absurd h (by decide)
  · norm_num [MIN_VALID_EPOCH] at h

end EspClawPlatform.Provisioning
