import EspClawPlatform.Lib.Recent
import EspClawPlatform.Lib.Run
import EspClawPlatform.Provisioning.Token

namespace EspClawPlatform.Provisioning

open Run

def kept (nonce : String) : List Nat := (utf16 nonce).take 47

structure Grant where
  capability : String
  input : Json
  nonce : String
  deriving DecidableEq

def FirmwareModel.authenticated (runtime : Runtime) (device : FirmwareModel) (token : Option String) :
    Option String := do
  let secret ← device.secret.filter fun secret => SECRET_MIN_BYTES ≤ secret.length
  let (payloadSegment, sigSegment) ← splitToken (token.getD "")
  let sig ← (decode sigSegment 64).filter fun sig => sig.length = 32
  if runtime.hmacSha256 secret payloadSegment = sig then some payloadSegment else none

def FirmwareModel.payload (runtime : Runtime) (parse : String → Option Json) (device : FirmwareModel)
    (token : Option String) : Option Json :=
  (device.openToken runtime token).toOption.bind parse

def FirmwareModel.grant (runtime : Runtime) (parse : String → Option Json) (device : FirmwareModel)
    (token : Option String) (nowSeconds : Rat) : Option Grant :=
  (device.payload runtime parse token).bind fun payload =>
    (device.judge payload nowSeconds).toOption.map fun granted =>
      { capability := granted.1, input := granted.2.1, nonce := granted.2.2 }

inductive DeviceAction
  | verify (token : Option String) (nowSeconds : Rat)
  | reboot
  deriving DecidableEq

/-- A call that throws leaves the device as it is. -/
def FirmwareModel.step (runtime : Runtime) (parse : String → Option Json) (device : FirmwareModel) :
    DeviceAction → Option FirmwareModel
  | .verify token nowSeconds => some ((device.verify runtime parse token nowSeconds).elim device Prod.snd)
  | .reboot => some device.reboot

def FirmwareModel.grants (runtime : Runtime) (parse : String → Option Json) (device : FirmwareModel) :
    DeviceAction → List Grant
  | .verify token nowSeconds => (device.grant runtime parse token nowSeconds).toList
  | .reboot => []

variable {runtime : Runtime} {parse : String → Option Json} {device d : FirmwareModel} {token : Option String}
  {t : Rat} {payload : Json} {g : Grant}

theorem openToken_ok {text : String} (h : device.openToken runtime token = .ok text) :
    ∃ segment bytes, device.authenticated runtime token = some segment ∧
      decode segment PAYLOAD_MAX = some bytes ∧ text = String.ofList (utf8Decode bytes.length bytes) := by
  simp only [FirmwareModel.openToken] at h
  split at h
  · cases h
  rename_i secret hsecret
  split at h
  · cases h
  split at h
  · cases h
  rename_i payloadSegment sigSegment hsplit
  split at h
  · cases h
  rename_i sig hsig
  split at h
  · cases h
  rename_i hmac
  split at h
  · cases h
  rename_i bytes hbytes
  cases h
  refine ⟨payloadSegment, bytes, ?_, hbytes, rfl⟩
  simp only [FirmwareModel.authenticated, hsecret, hsplit, hsig, bind, Option.bind_some, not_not.mp hmac, if_true]

theorem text_of_segment {args : SignInput} {bytes : List UInt8}
    (h : decode (args.segment runtime) PAYLOAD_MAX = some bytes) :
    String.ofList (utf8Decode bytes.length bytes) = runtime.stringify args.payload := by
  rw [decode] at h
  split at h
  · cases h
  rw [SignInput.segment, fromBase64Url_toBase64Url, Option.filter_some] at h
  split at h
  · cases h
    rw [utf8, show (runtime.stringify args.payload).toList.flatMap String.utf8EncodeChar =
      utf8Encode (runtime.stringify args.payload).toList from rfl, utf8Decode_encode (length_utf8Encode_le _),
      String.ofList_toList]
  · cases h

structure Acceptable (device : FirmwareModel) (payload : Json) (t : Rat) (g : Grant) : Prop where
  device_id : stringField payload "device_id" = some device.ownDeviceId
  capability : stringField payload "capability" = some g.capability
  target : isPlatformExecTarget g.capability
  window : ∃ issuedAt expiresAt, validityWindow (numberField payload "issued_at")
    (numberField payload "expires_at") = some (issuedAt, expiresAt) ∧ issuedAt - CLOCK_SKEW_S ≤ t ∧ t ≤ expiresAt
  clock : MIN_VALID_EPOCH ≤ t
  nonce : stringField payload "nonce" = some g.nonce
  fresh : g.nonce ≠ "" ∧ utf16 g.nonce ∉ device.seenNonces
  input : g.input = inputField payload

theorem getD_stringField {k value : String} (hne : value ≠ "") :
    (stringField payload k).getD "" = value ↔ stringField payload k = some value := by
  cases stringField payload k with
  | none => exact ⟨fun h => absurd h.symm hne, fun h => by cases h⟩
  | some v => rw [Option.getD_some, Option.some.injEq]

theorem judge_ok_iff : device.judge payload t = .ok (g.capability, g.input, g.nonce) ↔
    Acceptable device payload t g := by
  constructor
  · intro h
    simp only [FirmwareModel.judge] at h
    split at h
    · cases h
    rename_i hd
    split at h
    · cases h
    rename_i hc
    split at h
    · cases h
    rename_i htarget
    split at h
    · cases h
    rename_i issuedAt expiresAt hw
    split at h
    · cases h
    rename_i hclock
    split at h
    · cases h
    rename_i ht
    split at h
    · cases h
    rename_i hn
    simp only [Except.ok.injEq, Prod.mk.injEq] at h
    obtain ⟨hcap, hinput, hnonce⟩ := h
    rw [hcap] at hc htarget
    rw [hnonce] at hn
    obtain ⟨hn, hseen⟩ := not_or.mp hn
    obtain ⟨hl, hu⟩ := not_or.mp ht
    exact
      { device_id := not_not.mp hd
        capability := (getD_stringField hc).mp hcap
        target := by simpa using htarget
        window := ⟨issuedAt, expiresAt, hw, not_lt.mp hl, not_lt.mp hu⟩
        clock := not_lt.mp hclock
        nonce := (getD_stringField hn).mp hnonce
        fresh := ⟨hn, hseen⟩
        input := hinput.symm }
  · intro h
    obtain ⟨issuedAt, expiresAt, hw, hl, hu⟩ := h.window
    have hc : g.capability ≠ "" := by
      intro he
      have htarget := h.target
      rw [he] at htarget
      cases htarget
    simp only [FirmwareModel.judge, h.device_id, h.capability, h.nonce, h.target, hw, Option.getD_some, ne_eq,
      not_true_eq_false, if_false, hc, Bool.not_true, Bool.false_eq_true, not_lt.mpr h.clock, gt_iff_lt,
      not_lt.mpr hl, not_lt.mpr hu, or_self, h.fresh.1, h.fresh.2, h.input]

theorem grant_eq_some : device.grant runtime parse token t = some g ↔
    ∃ payload, device.payload runtime parse token = some payload ∧ Acceptable device payload t g := by
  rw [FirmwareModel.grant, Option.bind_eq_some_iff]
  refine exists_congr fun payload => and_congr_right fun _ => ?_
  rw [← judge_ok_iff]
  cases hj : device.judge payload t with
  | error e => exact iff_of_false (fun h => by cases h) (fun h => by cases h)
  | ok granted =>
      obtain ⟨capability, input, nonce⟩ := granted
      obtain ⟨capability', input', nonce'⟩ := g
      simp only [Except.toOption, Option.map_some, Option.some.injEq, Grant.mk.injEq, Except.ok.injEq,
        Prod.mk.injEq]

theorem judge_null (device : FirmwareModel) (t : Rat) :
    device.judge .null t = .error "token was issued for a different device" := by
  rw [FirmwareModel.judge]
  exact if_pos (fun h => by cases h)

theorem verify_of_grant (h : device.grant runtime parse token t = some g) :
    device.verify runtime parse token t = some (.accepted g.capability g.input, device.remember g.nonce) := by
  obtain ⟨payload, hp, ha⟩ := grant_eq_some.mp h
  have hj := judge_ok_iff.mpr ha
  rw [FirmwareModel.payload] at hp
  rw [FirmwareModel.verify]
  cases ho : device.openToken runtime token with
  | error e => rw [ho] at hp; cases hp
  | ok text =>
      rw [ho] at hp
      have hparse : parse text = some payload := hp
      simp only [hparse]
      cases payload with
      | null => rw [judge_null] at hj; cases hj
      | bool | num | str | arr | obj => simp only [hj]

theorem verify_of_none (h : device.grant runtime parse token t = none) :
    ∀ r ∈ device.verify runtime parse token t, r.2 = device ∧ ∀ c i, r.1 ≠ .accepted c i := by
  intro r hr
  rw [FirmwareModel.grant, FirmwareModel.payload] at h
  rw [FirmwareModel.verify] at hr
  cases ho : device.openToken runtime token with
  | error e =>
      rw [ho] at hr
      cases hr
      exact ⟨rfl, fun _ _ => by rintro ⟨⟩⟩
  | ok text =>
      rw [ho] at hr h
      simp only at hr
      cases hparse : parse text with
      | none =>
          rw [hparse] at hr
          cases hr
          exact ⟨rfl, fun _ _ => by rintro ⟨⟩⟩
      | some payload =>
          rw [hparse] at hr
          cases hj : device.judge payload t with
          | error e =>
              cases payload with
              | null => cases hr
              | bool | num | str | arr | obj =>
                  simp only [hj] at hr
                  cases hr
                  exact ⟨rfl, fun _ _ => by rintro ⟨⟩⟩
          | ok granted =>
              simp only [Except.toOption, Option.bind_some, hparse, hj, Option.map_some, reduceCtorEq] at h

def FirmwareModel.Accepts (runtime : Runtime) (parse : String → Option Json) (device : FirmwareModel)
    (token : Option String) (t : Rat) : Prop :=
  ∃ capability input after, device.verify runtime parse token t = some (.accepted capability input, after)

theorem accepts_iff : device.Accepts runtime parse token t ↔ ∃ g, device.grant runtime parse token t = some g := by
  constructor
  · rintro ⟨capability, input, after, h⟩
    cases hg : device.grant runtime parse token t with
    | some g => exact ⟨g, rfl⟩
    | none => exact absurd rfl ((verify_of_none hg _ h).2 capability input)
  · rintro ⟨g, hg⟩
    exact ⟨_, _, _, verify_of_grant hg⟩

theorem step_of_grant (h : device.grant runtime parse token t = some g) :
    device.step runtime parse (.verify token t) = some (device.remember g.nonce) := by
  rw [FirmwareModel.step, verify_of_grant h, Option.elim_some]

theorem step_of_none (h : device.grant runtime parse token t = none) :
    device.step runtime parse (.verify token t) = some device := by
  rw [FirmwareModel.step]
  cases hv : device.verify runtime parse token t with
  | none => rfl
  | some r => rw [Option.elim_some, (verify_of_none h r hv).1]

def FirmwareModel.seeing (device : FirmwareModel) (seen : List (List Nat)) : FirmwareModel :=
  { device with seenNonces := seen }

theorem remember_eq (device : FirmwareModel) (nonce : String) :
    device.remember nonce = device.seeing (Recent.push NONCE_WINDOW device.seenNonces (kept nonce)) := rfl

theorem window_step {seen : List (List Nat)} {a : DeviceAction} (ha : a ≠ .reboot)
    (h : (device.seeing (seen.rtake NONCE_WINDOW)).step runtime parse a = some d) :
    d = device.seeing ((seen ++ ((device.seeing (seen.rtake NONCE_WINDOW)).grants runtime parse a).map fun g =>
      kept g.nonce).rtake NONCE_WINDOW) := by
  cases a with
  | reboot => exact absurd rfl ha
  | verify token t =>
      rw [FirmwareModel.grants]
      cases hg : (device.seeing (seen.rtake NONCE_WINDOW)).grant runtime parse token t with
      | none =>
          cases (step_of_none hg).symm.trans h
          rw [Option.toList_none, List.map_nil, List.append_nil]
      | some g =>
          cases (step_of_grant hg).symm.trans h
          rw [remember_eq, FirmwareModel.seeing, FirmwareModel.seeing, Recent.push_rtake]
          rfl

theorem window_run {seen : List (List Nat)} {as : List DeviceAction} (has : .reboot ∉ as)
    (h : run (FirmwareModel.step runtime parse) (device.seeing (seen.rtake NONCE_WINDOW)) as = some d) :
    d = device.seeing ((seen ++ (trace (FirmwareModel.step runtime parse) (FirmwareModel.grants runtime parse)
      (device.seeing (seen.rtake NONCE_WINDOW)) as).map fun g => kept g.nonce).rtake NONCE_WINDOW) := by
  induction as generalizing seen with
  | nil => cases h; rw [trace, List.map_nil, List.append_nil]
  | cons a as ih =>
      obtain ⟨v, hv, hrun⟩ := run_cons.mp h
      rw [trace_cons hv]
      obtain ⟨ha, has⟩ := not_or.mp (List.mem_cons.not.mp has)
      obtain rfl := window_step (Ne.symm ha) hv
      rw [ih has hrun, List.map_append, List.append_assoc]

theorem kept_of_short {nonce : String} (h : utf16Length nonce ≤ 47) : kept nonce = utf16 nonce := by
  rw [kept, List.take_of_length_le ((length_utf16 nonce).le.trans h)]

theorem seeing_step {a : DeviceAction} (h : device.step runtime parse a = some d) :
    ∃ seen, d = device.seeing seen ∧
      ∀ x ∈ seen, x ∈ device.seenNonces ∨ ∃ g ∈ device.grants runtime parse a, kept g.nonce = x := by
  cases a with
  | reboot => cases h; exact ⟨[], rfl, fun _ hx => by cases hx⟩
  | verify token t =>
      rw [FirmwareModel.grants]
      cases hg : device.grant runtime parse token t with
      | none =>
          cases (step_of_none hg).symm.trans h
          exact ⟨device.seenNonces, rfl, fun _ hx => .inl hx⟩
      | some g =>
          cases (step_of_grant hg).symm.trans h
          refine ⟨_, remember_eq device g.nonce, fun x hx => ?_⟩
          rw [Recent.push] at hx
          have hmem : x ∈ device.seenNonces ++ [kept g.nonce] := by
            split at hx
            · exact List.mem_of_mem_drop hx
            · exact hx
          rcases List.mem_append.mp hmem with hx | hx
          · exact .inl hx
          · exact .inr ⟨g, List.mem_singleton_self g, (List.mem_singleton.mp hx).symm⟩

theorem seeing_run {as : List DeviceAction} (h : run (FirmwareModel.step runtime parse) device as = some d) :
    ∃ seen, d = device.seeing seen ∧ ∀ x ∈ seen, x ∈ device.seenNonces ∨
      ∃ g ∈ trace (FirmwareModel.step runtime parse) (FirmwareModel.grants runtime parse) device as,
        kept g.nonce = x := by
  induction as generalizing device with
  | nil => cases h; exact ⟨d.seenNonces, rfl, fun _ hx => .inl hx⟩
  | cons a as ih =>
      obtain ⟨v, hv, hrun⟩ := run_cons.mp h
      obtain ⟨seen, rfl, hseen⟩ := seeing_step hv
      obtain ⟨seen', rfl, hseen'⟩ := ih hrun
      refine ⟨seen', rfl, fun x hx => ?_⟩
      rw [trace_cons hv]
      rcases hseen' x hx with hx | ⟨g, hg, hx⟩
      · rcases hseen x hx with hx | ⟨g, hg, hx⟩
        · exact .inl hx
        · exact .inr ⟨g, List.mem_append_left _ hg, hx⟩
      · exact .inr ⟨g, List.mem_append_right _ hg, hx⟩

theorem mem_window {seen : List (List Nat)} {nonce : List Nat} {mid : List DeviceAction}
    (h : run (FirmwareModel.step runtime parse)
      (device.seeing (Recent.push NONCE_WINDOW (seen.rtake NONCE_WINDOW) nonce)) mid = some d)
    (hlast : ∀ g ∈ trace (FirmwareModel.step runtime parse) (FirmwareModel.grants runtime parse)
      (device.seeing (Recent.push NONCE_WINDOW (seen.rtake NONCE_WINDOW) nonce)) mid, kept g.nonce ≠ nonce) :
    nonce ∉ d.seenNonces ↔ .reboot ∈ mid ∨
      NONCE_WINDOW ≤ (trace (FirmwareModel.step runtime parse) (FirmwareModel.grants runtime parse)
        (device.seeing (Recent.push NONCE_WINDOW (seen.rtake NONCE_WINDOW) nonce)) mid).length := by
  by_cases hb : .reboot ∈ mid
  · refine iff_of_true (fun hmem => ?_) (.inl hb)
    obtain ⟨pre, post, rfl⟩ := List.append_of_mem hb
    obtain ⟨u, hpre, hrun⟩ := run_append.mp h
    obtain ⟨v, hv, hpost⟩ := run_cons.mp hrun
    cases hv
    obtain ⟨seen', rfl, hseen⟩ := seeing_run hpost
    rcases hseen nonce hmem with hx | ⟨g, hg, hx⟩
    · cases hx
    · refine hlast g ?_ hx
      rw [trace_append hpre, trace_cons (rfl : u.step runtime parse .reboot = some u.reboot)]
      exact List.mem_append_right _ (List.mem_append_right _ hg)
  · rw [or_iff_right hb]
    rw [Recent.push_rtake] at h hlast ⊢
    obtain rfl := window_run hb h
    have hnone : nonce ∉ (trace (FirmwareModel.step runtime parse) (FirmwareModel.grants runtime parse)
        (device.seeing ((seen ++ [nonce]).rtake NONCE_WINDOW)) mid).map fun g => kept g.nonce := by
      intro hmem
      obtain ⟨g, hg, hx⟩ := List.mem_map.mp hmem
      exact hlast g hg hx
    rw [FirmwareModel.seeing, ← List.append_cons, Recent.mem_rtake_append _ _ _ hnone, List.length_map,
      not_lt]

def FirmwareModel.Bounded (device : FirmwareModel) : Prop :=
  ∃ seen : List (List Nat), device.seenNonces = seen.rtake NONCE_WINDOW

theorem bounded_step {a : DeviceAction} (hb : device.Bounded) (h : device.step runtime parse a = some d) :
    d.Bounded := by
  obtain ⟨seen, hs⟩ := hb
  cases a with
  | reboot => cases h; exact ⟨[], rfl⟩
  | verify token t =>
      have hd : device = device.seeing (seen.rtake NONCE_WINDOW) := by rw [← hs]; rfl
      rw [hd] at h
      rw [window_step (by rintro ⟨⟩) h]
      exact ⟨_, rfl⟩

theorem validityWindow_eq {issued expires : JsNumber} {issuedAt expiresAt : Rat}
    (h : validityWindow issued expires = some (issuedAt, expiresAt)) :
    issued = .finite issuedAt ∧ expires = .finite expiresAt ∧ issuedAt < expiresAt ∧ expiresAt ≤ issuedAt + 60 := by
  cases issued with
  | finite a =>
      cases expires with
      | finite b =>
          rw [validityWindow] at h
          split at h
          · cases h
          · rename_i hn
            cases h
            simp only [not_or, not_lt, not_le, gt_iff_lt, MAX_TTL_S] at hn
            obtain ⟨-, -, hlt, hle⟩ := hn
            exact ⟨rfl, rfl, hlt, by linarith⟩
      | infinity | nan => cases h
  | infinity | nan => cases h

/-- The times of a payload are whole seconds that a double holds exactly. -/
structure WholeSeconds (payload : Json) (issuedAt expiresAt : Nat) : Prop where
  issued : numberField payload "issued_at" = .finite issuedAt
  expires : numberField payload "expires_at" = .finite expiresAt
  safe : issuedAt ≤ 2 ^ 53 ∧ expiresAt ≤ 2 ^ 53

theorem accepts_seeing_iff {seen : List (List Nat)} {issued expires t₁ : Rat} {g : Grant}
    (hpayload : device.payload runtime parse token = some payload) (ha : Acceptable device payload t₁ g)
    (hw : validityWindow (numberField payload "issued_at") (numberField payload "expires_at") =
      some (issued, expires)) (t₂ : Rat) :
    (device.seeing seen).Accepts runtime parse token t₂ ↔
      (1704067200 ≤ t₂ ∧ issued - 5 ≤ t₂ ∧ t₂ ≤ expires) ∧ utf16 g.nonce ∉ seen := by
  rw [accepts_iff]
  constructor
  · rintro ⟨g', hg'⟩
    obtain ⟨payload', hp', ha'⟩ := grant_eq_some.mp hg'
    obtain rfl := Option.some.inj (hpayload.symm.trans hp')
    obtain ⟨issued', expires', hw', hl', hu'⟩ := ha'.window
    cases hw.symm.trans hw'
    have hn : g'.nonce = g.nonce := Option.some.inj (ha'.nonce.symm.trans ha.nonce)
    exact ⟨⟨ha'.clock, hl', hu'⟩, hn ▸ ha'.fresh.2⟩
  · rintro ⟨⟨hclock, hl', hu'⟩, hfresh⟩
    refine ⟨g, grant_eq_some.mpr ⟨payload, hpayload, ?_⟩⟩
    exact
      { device_id := ha.device_id
        capability := ha.capability
        target := ha.target
        window := ⟨_, _, hw, hl', hu'⟩
        clock := hclock
        nonce := ha.nonce
        fresh := ⟨ha.fresh.1, hfresh⟩
        input := ha.input }

def sampleToken : Option String := some (sampleArgs.token sampleRuntime)

theorem sample_payload : sampleDevice.payload sampleRuntime sampleParse sampleToken = some sampleArgs.payload := by
  have hne : sampleRuntime.stringify sampleArgs.payload ≠ "" := by decide
  have hsecret : sampleDevice.secret.filter (fun secret => SECRET_MIN_BYTES ≤ secret.length) = some sampleArgs.secret :=
    rfl
  have hopen := openToken_signed (fun _ _ => rfl) hne sample_size hsecret
  rw [if_neg (not_not.mpr rfl)] at hopen
  rw [FirmwareModel.payload, sampleToken, hopen, Except.toOption, Option.bind_some, sample_parsed]

theorem sample_grant : sampleDevice.grant sampleRuntime sampleParse sampleToken 1780000000 =
    some { capability := "list_agents", input := .obj [], nonce := sampleArgs.nonce } := by
  have hw : validityWindow (numberField sampleArgs.payload "issued_at")
    (numberField sampleArgs.payload "expires_at") =
      some (1779999975, 1780000035) := by decide +kernel
  refine grant_eq_some.mpr ⟨_, sample_payload, ?_⟩
  exact
    { device_id := rfl
      capability := rfl
      target := by decide
      window := ⟨_, _, hw, by norm_num [CLOCK_SKEW_S], by norm_num⟩
      clock := by norm_num [MIN_VALID_EPOCH]
      nonce := rfl
      fresh := ⟨by decide +kernel, List.not_mem_nil⟩
      input := rfl }

end EspClawPlatform.Provisioning
