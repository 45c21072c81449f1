import EspClawPlatform.Mqtt.MqttService

namespace EspClawPlatform.Mqtt

def IsLevel (x : String) : Prop := x ≠ "" ∧ '/' ∉ x.toList

variable {base : List String} {device : String} {t : String} {p : ParsedTopic}

theorem isLevel_of_mem {x : String} (h : x ∈ (split t '/').filter (· ≠ "")) : IsLevel x := by
  obtain ⟨hx, hne⟩ := List.mem_filter.mp h
  exact ⟨by simpa using hne, not_mem_of_mem_split hx⟩

theorem join_ne_empty (hne : base ≠ []) (h : ∀ x ∈ base, IsLevel x) : join base '/' ≠ "" := by
  intro hjoin
  have hsplit := split_join (fun x hx => (h x hx).2) hne
  rw [hjoin] at hsplit
  exact (h "" (hsplit ▸ List.mem_singleton_self "")).1 rfl

theorem trimTrailingSlashes_join (hne : base ≠ []) (h : ∀ x ∈ base, IsLevel x) :
    trimTrailingSlashes (join base '/') = join base '/' := by
  obtain ⟨init, x, rfl⟩ : ∃ init x, base = init ++ [x] := ⟨_, _, (List.dropLast_append_getLast hne).symm⟩
  obtain ⟨hx, hslash⟩ := h x (by simp)
  obtain ⟨before, hlast⟩ : ∃ before, (join (init ++ [x]) '/').toList = before ++ x.toList := by
    by_cases hinit : init = []
    · subst hinit
      exact ⟨[], by simp [join]⟩
    · exact ⟨(join init '/').toList ++ ['/'], by simp [join_concat hinit]⟩
  obtain ⟨d, ds, hd⟩ := List.exists_cons_of_ne_nil (l := x.toList.reverse) (by simpa using hx)
  have hne : d ≠ '/' := by
    rintro rfl
    exact hslash (List.mem_reverse.mp (hd ▸ List.mem_cons_self))
  rw [trimTrailingSlashes, hlast, List.reverse_append, hd, List.cons_append,
    List.dropWhile_cons_of_neg (by simpa using hne), ← List.cons_append, ← hd, ← List.reverse_append,
    List.reverse_reverse, ← hlast, String.ofList_toList]

theorem buildTopic_join (hne : base ≠ []) (h : ∀ x ∈ base, IsLevel x) (leaf : Leaf) :
    buildTopic (join base '/') device leaf =
      if trim (join base '/') = "" then .error "baseTopic is required"
      else if trim device = "" then .error "deviceId is required"
      else .ok (join (base ++ [device, leaf.text]) '/') := by
  have hlevels : base ++ [device, leaf.text] = base ++ [device] ++ [leaf.text] := by simp
  rw [buildTopic, trimTrailingSlashes_join hne h, hlevels, join_concat (by simp), join_concat hne]
  rfl

theorem parseTopic_eq_some : parseTopic t = some p ↔ ∃ base, base ≠ [] ∧
    (split t '/').filter (· ≠ "") = base ++ [p.deviceId, p.leaf] ∧ p.baseTopic = join base '/' := by
  have hlevel : ∀ x ∈ (split t '/').filter (· ≠ ""), IsLevel x := fun x hx => isLevel_of_mem hx
  simp only [parseTopic]
  generalize (split t '/').filter (· ≠ "") = parts at hlevel ⊢
  constructor
  · intro h
    split at h
    · cases h
    · rename_i hlen
      split at h
      · cases h
      · cases h
        refine ⟨parts.take (parts.length - 2), ?_, ?_, rfl⟩
        · rw [ne_eq, List.take_eq_nil_iff, not_or]
          exact ⟨by omega, by rintro rfl; exact hlen (by simp)⟩
        · have hdrop : parts.drop (parts.length - 2) =
              [parts.getD (parts.length - 2) "", parts.getD (parts.length - 1) ""] := by
            rw [List.drop_eq_getElem_cons (by omega), List.drop_eq_getElem_cons (by omega),
              List.drop_of_length_le (by omega)]
            have hlast : parts.length - 2 + 1 = parts.length - 1 := by omega
            simp only [hlast, List.getD_eq_getElem?_getD]
            rw [List.getElem?_eq_getElem (by omega), List.getElem?_eq_getElem (by omega)]
            rfl
          rw [← hdrop, List.take_append_drop]
  · rintro ⟨base, hne, rfl, hb⟩
    have hpos : 0 < base.length := List.length_pos_iff.mpr hne
    have hbase : join base '/' ≠ "" := join_ne_empty hne fun x hx => hlevel x (List.mem_append_left _ hx)
    have hdevice : p.deviceId ≠ "" := (hlevel p.deviceId (by simp)).1
    have hleaf : p.leaf ≠ "" := (hlevel p.leaf (by simp)).1
    have hlen : (base ++ [p.deviceId, p.leaf]).length = base.length + 2 := List.length_append
    rw [hlen, if_neg (by omega)]
    simpa [hdevice, hleaf, ← hb] using hb ▸ hbase

/-- No level of the topic is empty, and neither the level of the device nor all
that stands before it is blank. -/
def Answerable (t : String) : Prop :=
  (∀ level ∈ split t '/', level ≠ "") ∧ trim (join (split t '/').dropLast.dropLast '/') ≠ "" ∧
    trim ((split t '/').dropLast.getLastD "") ≠ ""

instance (t : String) : Decidable (Answerable t) :=
  inferInstanceAs (Decidable (_ ∧ _ ∧ _))

def withLeaf (t : String) (leaf : Leaf) : String := join ((split t '/').dropLast ++ [leaf.text]) '/'

theorem deviceId_of_parseTopic (h : parseTopic t = some p) : p.deviceId ≠ "" := by
  obtain ⟨base, -, hparts, -⟩ := parseTopic_eq_some.mp h
  have hmem : p.deviceId ∈ (split t '/').filter (· ≠ "") := by
    rw [hparts]
    exact List.mem_append_right _ List.mem_cons_self
  exact (isLevel_of_mem hmem).1

theorem split_of_clean (hp : parseTopic t = some p) (h : ∀ level ∈ split t '/', level ≠ "") :
    ∃ base, base ≠ [] ∧ split t '/' = base ++ [p.deviceId] ++ [p.leaf] ∧ (∀ x ∈ base, IsLevel x) ∧
      p.baseTopic = join base '/' := by
  obtain ⟨base, hne, hparts, hbase⟩ := parseTopic_eq_some.mp hp
  have hsplit : split t '/' = base ++ [p.deviceId, p.leaf] := by
    rw [← hparts, List.filter_eq_self.mpr (by simpa using h)]
  refine ⟨base, hne, by simpa using hsplit, fun x hx => ?_, hbase⟩
  exact isLevel_of_mem (hparts ▸ List.mem_append_left _ hx)

theorem answerable_iff {base : List String} {leaf : String}
    (hsplit : split t '/' = base ++ [device] ++ [leaf])
    (h : ∀ level ∈ split t '/', level ≠ "") :
    Answerable t ↔ trim (join base '/') ≠ "" ∧ trim device ≠ "" := by
  rw [Answerable, and_iff_right h, hsplit, List.dropLast_concat, List.dropLast_concat, List.getLastD_concat]

theorem buildTopic_parsed_iff {leaf : Leaf} (hp : parseTopic t = some p) (hleaf : p.leaf = leaf.text) :
    buildTopic p.baseTopic p.deviceId leaf = .ok t ↔ Answerable t := by
  by_cases hclean : ∀ level ∈ split t '/', level ≠ ""
  · obtain ⟨base, hne, hsplit, hlevel, hbase⟩ := split_of_clean hp hclean
    have hlevels : base ++ [p.deviceId, leaf.text] = split t '/' := by
      rw [hsplit, hleaf]
      simp
    rw [hbase, buildTopic_join hne hlevel, hlevels, join_split, answerable_iff hsplit hclean]
    split
    · rename_i hblank
      exact iff_of_false (by simp) fun h => h.1 hblank
    · rename_i hfull
      split
      · rename_i hblank
        exact iff_of_false (by simp) fun h => h.2 hblank
      · rename_i hdevice
        exact iff_of_true rfl ⟨hfull, hdevice⟩
  · obtain ⟨base, hne, hparts, hbase⟩ := parseTopic_eq_some.mp hp
    have hlevel : ∀ x ∈ base ++ [p.deviceId, p.leaf], IsLevel x := fun x hx => isLevel_of_mem (hparts ▸ hx)
    refine iff_of_false (fun h => hclean ?_) fun h => hclean h.1
    rw [hbase, buildTopic_join hne fun x hx => hlevel x (List.mem_append_left _ hx), ← hleaf] at h
    have hjoin : join (base ++ [p.deviceId, p.leaf]) '/' = t := by
      split at h
      · cases h
      · split at h
        · cases h
        · exact Except.ok.inj h
    rw [← hjoin, split_join (fun x hx => (hlevel x hx).2) (by simp)]
    exact fun level hl => (hlevel level hl).1

theorem commandTopic_parsed {config : Config} (hp : parseTopic t = some p) (h : Answerable t) :
    commandTopic config p.deviceId (some p.baseTopic) = .ok (withLeaf t .command) := by
  obtain ⟨base, hne, hsplit, hlevel, hbase⟩ := split_of_clean hp h.1
  obtain ⟨hfull, hdevice⟩ := (answerable_iff hsplit h.1).mp h
  simp only [commandTopic]
  rw [hbase, if_neg (join_ne_empty hne hlevel), buildTopic_join hne hlevel, if_neg hfull,
    if_neg hdevice, withLeaf, hsplit,
    List.dropLast_concat]
  simp

end EspClawPlatform.Mqtt
