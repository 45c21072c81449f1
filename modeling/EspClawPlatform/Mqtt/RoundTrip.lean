import EspClawPlatform.Mqtt.Levels

namespace EspClawPlatform.Mqtt

def IsBaseTopic (base : String) : Prop := ∃ t p, parseTopic t = some p ∧ p.baseTopic = base

def IsDeviceId (device : String) : Prop := ∃ t p, parseTopic t = some p ∧ p.deviceId = device

variable {base device topic : String} {leaf : Leaf}

theorem isLevel_text (leaf : Leaf) : IsLevel leaf.text := by
  cases leaf <;> exact ⟨by decide, by decide⟩

theorem text_injective : Function.Injective Leaf.text := by
  intro x y h
  cases x <;> cases y <;> first | rfl | exact absurd h (by decide)

theorem split_levels {levels : List String} (hne : levels ≠ []) (h : ∀ x ∈ levels, IsLevel x) :
    (split (join levels '/') '/').filter (· ≠ "") = levels := by
  rw [split_join (fun x hx => (h x hx).2) hne]
  exact List.filter_eq_self.mpr fun x hx => decide_eq_true (h x hx).1

theorem parseTopic_join {levels : List String} {x y : String} (hne : levels ≠ [])
    (h : ∀ z ∈ levels ++ [x, y], IsLevel z) :
    parseTopic (join (levels ++ [x, y]) '/') =
      some { baseTopic := join levels '/', deviceId := x, leaf := y } :=
  parseTopic_eq_some.mpr ⟨levels, hne, split_levels (by simp) h, rfl⟩

theorem isBaseTopic_iff : IsBaseTopic base ↔
    ∃ levels, levels ≠ [] ∧ (∀ x ∈ levels, IsLevel x) ∧ base = join levels '/' := by
  constructor
  · rintro ⟨t, p, hp, rfl⟩
    obtain ⟨levels, hne, hparts, hbase⟩ := parseTopic_eq_some.mp hp
    exact ⟨levels, hne, fun x hx => isLevel_of_mem (hparts ▸ List.mem_append_left _ hx), hbase⟩
  · rintro ⟨levels, hne, h, rfl⟩
    refine ⟨_, _, parseTopic_join (x := "d") (y := Leaf.status.text) hne ?_, rfl⟩
    intro z hz
    rcases List.mem_append.mp hz with hz | hz
    · exact h z hz
    · rcases List.mem_pair.mp hz with rfl | rfl
      · exact ⟨by decide, by decide⟩
      · exact isLevel_text .status

theorem isDeviceId_iff : IsDeviceId device ↔ IsLevel device := by
  constructor
  · rintro ⟨t, p, hp, rfl⟩
    obtain ⟨levels, -, hparts, -⟩ := parseTopic_eq_some.mp hp
    exact isLevel_of_mem (hparts ▸ List.mem_append_right _ List.mem_cons_self)
  · intro h
    refine ⟨join (["b"] ++ [device, Leaf.status.text]) '/', _, parseTopic_join (by simp) ?_, rfl⟩
    intro z hz
    rcases List.mem_append.mp hz with hz | hz
    · rw [List.mem_singleton.mp hz]
      exact ⟨by decide, by decide⟩
    · rcases List.mem_pair.mp hz with rfl | rfl
      · exact h
      · exact isLevel_text .status

theorem parseTopic_buildTopic (hbase : IsBaseTopic base) (hdevice : IsDeviceId device)
    (hb : buildTopic base device leaf = .ok topic) :
    parseTopic topic = some { baseTopic := base, deviceId := device, leaf := leaf.text } := by
  obtain ⟨levels, hne, hlevels, rfl⟩ := isBaseTopic_iff.mp hbase
  rw [buildTopic_join hne hlevels] at hb
  split at hb
  · cases hb
  · split at hb
    · cases hb
    · obtain rfl := Except.ok.inj hb
      refine parseTopic_join hne ?_
      intro z hz
      rcases List.mem_append.mp hz with hz | hz
      · exact hlevels z hz
      · rcases List.mem_pair.mp hz with rfl | rfl
        · exact isDeviceId_iff.mp hdevice
        · exact isLevel_text leaf

theorem buildTopic_append_slashes (h : trim base ≠ "") (n : Nat) :
    buildTopic (base ++ String.ofList (List.replicate n '/')) device leaf = buildTopic base device leaf := by
  have hblank : trim (base ++ String.ofList (List.replicate n '/')) ≠ "" := by
    rw [ne_eq, trim_eq_empty, String.toList_append] at *
    exact fun hall => h fun c hc => hall c (List.mem_append_left _ hc)
  have htrim : trimTrailingSlashes (base ++ String.ofList (List.replicate n '/')) = trimTrailingSlashes base := by
    rw [trimTrailingSlashes, String.toList_append, String.toList_ofList, strip_append_replicate]
    rfl
  rw [buildTopic, buildTopic, if_neg hblank, if_neg h, htrim]

/-- Topics built of what `parseTopic` can yield are read back as they were
built, and so no two of them are the same. -/
theorem topic_round_trip (hbase : IsBaseTopic base) (hdevice : IsDeviceId device)
    (hb : buildTopic base device leaf = .ok topic) :
    parseTopic topic = some { baseTopic := base, deviceId := device, leaf := leaf.text } ∧
      (∀ n, buildTopic (base ++ String.ofList (List.replicate n '/')) device leaf = .ok topic) ∧
      ∀ base' device' leaf', IsBaseTopic base' → IsDeviceId device' → buildTopic base' device' leaf' = .ok topic →
        base' = base ∧ device' = device ∧ leaf' = leaf := by
  have hparse := parseTopic_buildTopic hbase hdevice hb
  refine ⟨hparse, fun n => ?_, fun base' device' leaf' hbase' hdevice' hb' => ?_⟩
  · rw [buildTopic_append_slashes, hb]
    intro hblank
    rw [buildTopic, if_pos hblank] at hb
    cases hb
  · have hparse' := parseTopic_buildTopic hbase' hdevice' hb'
    have hsame := Option.some.inj (hparse'.symm.trans hparse)
    obtain ⟨hbases, hdevices, hleaves⟩ := ParsedTopic.mk.inj hsame
    exact ⟨hbases, hdevices, text_injective hleaves⟩

theorem tenant_command_is_read_back :
    parseTopic "espclaw/acme/d1/command" =
      some { baseTopic := "espclaw/acme", deviceId := "d1", leaf := "command" } :=
  (@topic_round_trip _ _ _ .command ⟨"espclaw/acme/d1/status", _, rfl, rfl⟩
    ⟨"espclaw/acme/d1/status", _, rfl, rfl⟩ (by decide)).1

end EspClawPlatform.Mqtt
