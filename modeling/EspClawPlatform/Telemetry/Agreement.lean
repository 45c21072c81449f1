import EspClawPlatform.Telemetry.TelemetryPollerService
import EspClawPlatform.Twin.LostUpdates

namespace EspClawPlatform.Telemetry

open Bus

/-- The result is the text of an object whose member `m` holds a finite number or a boolean. -/
def Reading (parse : String → Option Json) (result : Option String) (m : String) (v : Json) : Prop :=
  ∃ text members, result = some text ∧ parse text = some (.obj members) ∧ (m, v) ∈ members ∧ v.isScalar = true

def columns (valueNumeric : Option Rat) (valueBool : Option Bool) : List Json :=
  (valueNumeric.map fun value => .num (.finite value)).toList ++ (valueBool.map .bool).toList

/-- The samples of an event are the readings, and so are the entries that `mergeReported` writes for them. -/
structure Carried (reading : String → Json → Prop) (deviceId : String) (samples : List Twin.ReportedSample)
    (row : Twin.DeviceShadow) : Prop where
  distinct : (samples.map EspClawPlatform.TelemetrySample.metric).Nodup
  same : ∀ m v, { metric := m, value := v } ∈ samples ↔ reading m v
  present : ∀ x ∈ samples, x.value ≠ .null
  written : ∀ m v, reading m v →
    ((Twin.Call.mergeReported deviceId samples).update row).reported.get m = some v
  kept : ∀ m, (∀ v, ¬ reading m v) →
    ((Twin.Call.mergeReported deviceId samples).update row).reported.get m = row.reported.get m

/-- The rows, the event and the entries of the twin are one map, and there is no event without rows. -/
structure Agree (reading : String → Json → Prop) (pair : Pair) (recordedAt : Nat)
    (rows : List TelemetrySample) (published : List Published) (row : Twin.DeviceShadow) : Prop where
  batch : ∀ r ∈ rows, r.deviceId = pair.1 ∧ r.source = pair.2.capability ∧ r.recordedAt = recordedAt
  single : ∀ r ∈ rows, ∃ v, columns r.valueNumeric r.valueBool = [v]
  distinct : (rows.map TelemetrySample.metric).Nodup
  stored : ∀ m v, (∃ r ∈ rows, r.metric = m ∧ columns r.valueNumeric r.valueBool = [v]) ↔ reading m v
  silent : rows = [] → published = []
  event : rows ≠ [] → ∃ samples,
    published = [{ announce "module:telemetry" (.telemetryUpdated pair.2.capability rows.length samples) with
      deviceId := some pair.1 }] ∧
    Carried reading pair.1 samples row

/-- Why the table takes none of the rows of a result. -/
inductive Refused (reading : String → Json → Prop) (table : Table TelemetrySample) (deviceId : String)
    (recordedAt : Nat) : Prop
  | name {m : String} {v : Json} (h : reading m v) (hm : fitsVarchar 64 m = false)
  | key {m : String} {v : Json} (h : reading m v)
      (hm : (table.find (deviceId, varchar 64 m, recordedAt)).isSome = true)
  | twice {m n : String} {v w : Json} (h : reading m v) (h' : reading n w) (hne : m ≠ n)
      (he : varchar 64 m = varchar 64 n)

/-- The table can hold the readings under their names, and so can the twin. -/
structure Storable (reading : String → Json → Prop) (table : Table TelemetrySample) (deviceId : String)
    (recordedAt : Nat) (row : Twin.DeviceShadow) : Prop where
  name : ∀ m v, reading m v → nulFree m = true ∧ m.length ≤ 64
  key : ∀ m v, reading m v → table.find (deviceId, m, recordedAt) = none
  own : ∀ v, reading "__proto__" v → row.reported.get "__proto__" ≠ none

variable {parse : String → Option Json} {result : Option String} {members : List (String × Json)}
  {m : String} {v : Json}

section Extraction

structure Extracted (samples : List ExtractedSample) (members : List (String × Json)) : Prop where
  values : samples.map (fun x => (x.metric, columns x.valueNumeric x.valueBool)) =
    members.map fun m => (m.1, [m.2])
  payload : toPayloadSamples samples = members.map fun m => { metric := m.1, value := m.2 }

theorem Extracted.append {xs ys : List ExtractedSample} {ms ns : List (String × Json)} (h : Extracted xs ms)
    (h' : Extracted ys ns) : Extracted (xs ++ ys) (ms ++ ns) where
  values := by rw [List.map_append, List.map_append, h.values, h'.values]
  payload := by
    have hmap : toPayloadSamples (xs ++ ys) = toPayloadSamples xs ++ toPayloadSamples ys := List.map_append
    rw [hmap, List.map_append, h.payload, h'.payload]

theorem Extracted.metrics {xs : List ExtractedSample} (h : Extracted xs members) :
    xs.map ExtractedSample.metric = members.map Prod.fst := by
  have hnames := congrArg (List.map Prod.fst) h.values
  rw [List.map_map, List.map_map] at hnames
  exact hnames

theorem Extracted.mem {xs : List ExtractedSample} (h : Extracted xs members) :
    (∃ x ∈ xs, x.metric = m ∧ columns x.valueNumeric x.valueBool = [v]) ↔ (m, v) ∈ members := by
  have hmem : (m, [v]) ∈ xs.map (fun x => (x.metric, columns x.valueNumeric x.valueBool)) ↔
      (m, [v]) ∈ members.map fun m => (m.1, [m.2]) := by rw [h.values]
  simpa [Prod.ext_iff] using hmem

theorem Extracted.single {xs : List ExtractedSample} (h : Extracted xs members) {x : ExtractedSample}
    (hx : x ∈ xs) : ∃ v, columns x.valueNumeric x.valueBool = [v] := by
  have hmem : (x.metric, columns x.valueNumeric x.valueBool) ∈ members.map fun m => (m.1, [m.2]) :=
    h.values ▸ List.mem_map.mpr ⟨x, hx, rfl⟩
  obtain ⟨m, -, he⟩ := List.mem_map.mp hmem
  exact ⟨m.2, (congrArg Prod.snd he).symm⟩

theorem extractSample_scalar (m : String × Json) :
    (m.2.isScalar = true ∧ ∃ x, extractSample m = some x ∧ Extracted [x] [m]) ∨
      (m.2.isScalar = false ∧ extractSample m = none) := by
  obtain ⟨key, value⟩ := m
  cases value with
  | bool b => exact .inl ⟨rfl, _, rfl, rfl, rfl⟩
  | num n =>
      cases n with
      | finite q => exact .inl ⟨rfl, _, rfl, rfl, rfl⟩
      | infinity => exact .inr ⟨rfl, rfl⟩
      | nan => exact .inr ⟨rfl, rfl⟩
  | null => exact .inr ⟨rfl, rfl⟩
  | str => exact .inr ⟨rfl, rfl⟩
  | arr => exact .inr ⟨rfl, rfl⟩
  | obj => exact .inr ⟨rfl, rfl⟩

def scalars (members : List (String × Json)) : List (String × Json) := members.filter fun m => m.2.isScalar

theorem nodup_scalars (h : (members.map Prod.fst).Nodup) : ((scalars members).map Prod.fst).Nodup :=
  h.sublist (List.filter_sublist.map _)

theorem extracted_members (members : List (String × Json)) :
    Extracted (members.filterMap extractSample) (scalars members) := by
  induction members with
  | nil => exact ⟨rfl, rfl⟩
  | cons m members ih =>
      rcases extractSample_scalar m with ⟨hs, x, hx, hone⟩ | ⟨hs, hx⟩
      · rw [List.filterMap_cons_some hx, scalars, List.filter_cons, if_pos hs]
        exact hone.append ih
      · rw [List.filterMap_cons_none hx, scalars, List.filter_cons, if_neg (by rw [hs]; exact Bool.false_ne_true)]
        exact ih

theorem extractSamples_members (hempty : parse "" = none)
    (hnames : ∀ text members, parse text = some (.obj members) → (members.map Prod.fst).Nodup)
    (result : Option String) :
    ∃ members, (members.map Prod.fst).Nodup ∧ Extracted (extractSamples parse result) members ∧
      ∀ m v, (m, v) ∈ members ↔ Reading parse result m v := by
  by_cases hobj : ∃ text members, result = some text ∧ parse text = some (.obj members)
  · obtain ⟨text, members, rfl, htext⟩ := hobj
    have hne : text ≠ "" := by
      rintro rfl
      cases hempty.symm.trans htext
    have hextract : extractSamples parse (some text) = members.filterMap extractSample := by
      rw [extractSamples, Option.filter_some, if_pos (by simpa using hne)]
      simp only [htext]
    refine ⟨scalars members, nodup_scalars (hnames _ _ htext), hextract ▸ extracted_members members, ?_⟩
    intro m v
    constructor
    · intro hm
      obtain ⟨hmem, hscalar⟩ := List.mem_filter.mp hm
      exact ⟨text, members, rfl, htext, hmem, hscalar⟩
    · rintro ⟨text', members', ht, htext', hmem, hscalar⟩
      obtain rfl := Option.some.inj ht
      obtain rfl : members = members' := by
        injection Option.some.inj (htext.symm.trans htext')
      exact List.mem_filter.mpr ⟨hmem, hscalar⟩
  · have hextract : extractSamples parse result = [] := by
      rw [extractSamples]
      split
      · rfl
      · rename_i text ht
        have hresult := (Option.filter_eq_some_iff.mp ht).1
        split
        · rename_i members htext
          exact absurd ⟨text, members, hresult, htext⟩ hobj
        · rfl
    refine ⟨[], List.nodup_nil, hextract ▸ ⟨rfl, rfl⟩, fun m v => iff_of_false List.not_mem_nil ?_⟩
    rintro ⟨text, members, hresult, htext, -⟩
    exact hobj ⟨text, members, hresult, htext⟩

end Extraction

section Insert

variable {table stored : Table TelemetrySample} {rows : List TelemetrySample}

theorem insert_cons (table : Table TelemetrySample) (r : TelemetrySample) (rows : List TelemetrySample) :
    insert table (r :: rows) = if admits table r then insert (table.save r.held) rows else none := by
  rw [insert, List.foldlM_cons]
  split <;> rfl

theorem admits_iff {r : TelemetrySample} :
    admits table r = true ↔ fitsVarchar 64 r.metric = true ∧ table.find (Keyed.key r.held) = none := by
  rw [admits, Bool.and_eq_true, Option.isNone_iff_eq_none]

theorem rows_insert (h : insert table rows = some stored) :
    stored.rows = table.rows ++ rows.map TelemetrySample.held := by
  induction rows generalizing table with
  | nil =>
      cases h
      exact (List.append_nil _).symm
  | cons r rows ih =>
      rw [insert_cons] at h
      split at h
      · rename_i hnew
        rw [ih h, Table.rows_save_of_none (admits_iff.mp hnew).2, List.append_assoc, List.map_cons,
          List.singleton_append]
      · cases h

theorem insert_isSome : (insert table rows).isSome = true ↔
    (∀ r ∈ rows, fitsVarchar 64 r.metric = true ∧ table.find (Keyed.key r.held) = none) ∧
      (rows.map fun r => Keyed.key r.held).Nodup := by
  induction rows generalizing table with
  | nil => exact iff_of_true rfl ⟨fun _ hr => absurd hr List.not_mem_nil, List.nodup_nil⟩
  | cons r rows ih =>
      rw [insert_cons, List.map_cons, List.nodup_cons, List.forall_mem_cons, ← admits_iff]
      split
      · rename_i hnew
        have hfind : ∀ x : TelemetrySample, (table.save r.held).find (Keyed.key x.held) = none ↔
            Keyed.key x.held ≠ Keyed.key r.held ∧ table.find (Keyed.key x.held) = none := by
          intro x
          rw [Table.find_save]
          split
          · rename_i he
            exact iff_of_false (fun hc => by cases hc) fun hc => hc.1 he
          · rename_i hne
            exact ⟨fun hf => ⟨hne, hf⟩, fun hf => hf.2⟩
        rw [ih]
        simp only [hfind, hnew, true_and]
        constructor
        · rintro ⟨hall, hn⟩
          refine ⟨fun x hx => ⟨(hall x hx).1, (hall x hx).2.2⟩, fun hmem => ?_, hn⟩
          obtain ⟨x, hx, he⟩ := List.mem_map.mp hmem
          exact (hall x hx).2.1 he
        · rintro ⟨hall, hfirst, hn⟩
          refine ⟨fun x hx => ⟨(hall x hx).1, fun he => hfirst ?_, (hall x hx).2⟩, hn⟩
          exact List.mem_map.mpr ⟨x, hx, he⟩
      · rename_i hold
        exact iff_of_false (by simp) fun hc => hold hc.1.1

theorem recordCapabilityResult_eq (parse : String → Option Json) (table : Table TelemetrySample)
    (deviceId source : String) (recordedAt : Nat) (result : Option String) :
    recordCapabilityResult parse table deviceId source recordedAt result =
      (insert table ((extractSamples parse result).map (ExtractedSample.row deviceId source recordedAt))).map
        fun table => (table, (extractSamples parse result).length) := by
  rw [recordCapabilityResult]
  split
  · rename_i hnil
    rw [hnil]
    rfl
  · rfl

end Insert

section Twin

variable {members : List (String × Json)} {samples : List Twin.ReportedSample} {row : Twin.DeviceShadow}

theorem carried_members (hn : (members.map Prod.fst).Nodup) (hs : ∀ x ∈ members, x.2.isScalar = true)
    (hproto : ∀ v, ("__proto__", v) ∈ members → row.reported.get "__proto__" ≠ none) (deviceId : String) :
    Carried (fun m v => (m, v) ∈ members) deviceId
      (members.map fun m => { metric := m.1, value := m.2 }) row := by
  have hmem : ∀ m v, ({ metric := m, value := v } : EspClawPlatform.TelemetrySample) ∈
      members.map (fun m => { metric := m.1, value := m.2 }) ↔ (m, v) ∈ members := by
    intro m v
    rw [List.mem_map]
    constructor
    · rintro ⟨x, hx, he⟩
      cases he
      exact hx
    · intro hx
      exact ⟨(m, v), hx, rfl⟩
  have hone : ∀ m v w, (m, v) ∈ members → (m, w) ∈ members → v = w := by
    intro m v w hv hw
    exact congrArg Prod.snd (List.inj_on_of_nodup_map hn hv hw rfl)
  refine ⟨?_, hmem, ?_, ?_, ?_⟩
  · rw [List.map_map]
    exact hn
  · intro x hx hnull
    have hscalar := hs _ ((hmem x.metric x.value).mp hx)
    rw [hnull] at hscalar
    cases hscalar
  · intro m v hv
    have hstore : m = "__proto__" → row.reported.get "__proto__" ≠ none := by
      rintro rfl
      exact hproto v hv
    rcases Twin.get_foldl_assign (m := m) _ hstore with ⟨x, hx, rfl, hget⟩ | ⟨hnone, -⟩
    · rw [hone _ _ _ hv ((hmem x.metric x.value).mp hx)]
      exact hget
    · exact absurd rfl (hnone _ ((hmem m v).mpr hv))
  · intro m hm
    by_cases hp : m = "__proto__" ∧ row.reported.get "__proto__" = none
    · obtain ⟨rfl, hnone⟩ := hp
      exact (Twin.get_proto_foldl _ hnone).trans hnone.symm
    · rcases Twin.get_foldl_assign (m := m) _ (fun h hnone => hp ⟨h, hnone⟩) with ⟨x, hx, rfl, -⟩ | ⟨-, hget⟩
      · exact absurd ((hmem x.metric x.value).mp hx) (hm x.value)
      · exact hget

end Twin

theorem agree_of_extracted {samples : List ExtractedSample} {row : Twin.DeviceShadow}
    (he : Extracted samples members) (hn : (members.map Prod.fst).Nodup)
    (hs : ∀ x ∈ members, x.2.isScalar = true)
    (hproto : ∀ v, ("__proto__", v) ∈ members → row.reported.get "__proto__" ≠ none) (pair : Pair)
    (recordedAt : Nat) (hsamples : extractSamples parse result = samples) :
    Agree (fun m v => (m, v) ∈ members) pair recordedAt
      (samples.map (ExtractedSample.row pair.1 pair.2.capability recordedAt))
      (updated parse pair samples.length result) row := by
  refine ⟨?_, ?_, ?_, ?_, ?_, ?_⟩
  · intro r hr
    obtain ⟨x, -, rfl⟩ := List.mem_map.mp hr
    exact ⟨rfl, rfl, rfl⟩
  · intro r hr
    obtain ⟨x, hx, rfl⟩ := List.mem_map.mp hr
    exact he.single hx
  · rw [List.map_map]
    exact he.metrics ▸ hn
  · intro m v
    rw [← he.mem]
    constructor
    · rintro ⟨r, hr, hm, hv⟩
      obtain ⟨x, hx, rfl⟩ := List.mem_map.mp hr
      exact ⟨x, hx, hm, hv⟩
    · rintro ⟨x, hx, hm, hv⟩
      exact ⟨_, List.mem_map.mpr ⟨x, hx, rfl⟩, hm, hv⟩
  · intro hnil
    rw [List.map_eq_nil_iff.mp hnil]
    rfl
  · intro hsome
    have hpos : 0 < samples.length := List.length_pos_iff.mpr fun hnil => hsome (List.map_eq_nil_iff.mpr hnil)
    refine ⟨toPayloadSamples samples, ?_, ?_⟩
    · rw [updated, if_pos hpos, hsamples, List.length_map]
    · rw [he.payload]
      exact carried_members hn hs hproto pair.1

theorem Agree.proto {reading : String → Json → Prop} {pair : Pair} {recordedAt : Nat}
    {rows : List TelemetrySample} {published : List Published} {row : Twin.DeviceShadow}
    (h : Agree reading pair recordedAt rows published row) (hv : reading "__proto__" v) :
    row.reported.get "__proto__" ≠ none := by
  intro hnone
  obtain ⟨r, hr, -⟩ := (h.stored _ v).mpr hv
  obtain ⟨samples, -, hcarried⟩ := h.event (List.ne_nil_of_mem hr)
  cases (hcarried.written _ v hv).symm.trans (Twin.get_proto_foldl _ hnone)

theorem inserted_iff {samples : List ExtractedSample} (he : Extracted samples members)
    (hn : (members.map Prod.fst).Nodup) (table : Table TelemetrySample) (deviceId source : String)
    (recordedAt : Nat) :
    (insert table (samples.map (ExtractedSample.row deviceId source recordedAt))).isSome = true ↔
      (∀ m v, (m, v) ∈ members →
        fitsVarchar 64 m = true ∧ table.find (deviceId, varchar 64 m, recordedAt) = none) ∧
      ∀ m v n w, (m, v) ∈ members → (n, w) ∈ members → varchar 64 m = varchar 64 n → m = n := by
  have hkeys : (samples.map (ExtractedSample.row deviceId source recordedAt)).map (fun r => Keyed.key r.held) =
      (members.map Prod.fst).map fun m => (deviceId, varchar 64 m, recordedAt) := by
    rw [← he.metrics, List.map_map, List.map_map]
    rfl
  have hnames : ∀ m, m ∈ members.map Prod.fst ↔ ∃ v, (m, v) ∈ members := by simp
  rw [insert_isSome, hkeys, List.nodup_map_iff_inj_on hn]
  constructor
  · rintro ⟨hall, hinj⟩
    refine ⟨fun m v hm => ?_, fun m v n w hm hw hmn => ?_⟩
    · obtain ⟨x, hx, rfl, -⟩ := he.mem.mpr hm
      exact hall _ (List.mem_map.mpr ⟨x, hx, rfl⟩)
    · exact hinj m ((hnames m).mpr ⟨v, hm⟩) n ((hnames n).mpr ⟨w, hw⟩) (by rw [hmn])
  · rintro ⟨hall, hinj⟩
    refine ⟨fun r hr => ?_, fun m hm n hn hmn => ?_⟩
    · obtain ⟨x, hx, rfl⟩ := List.mem_map.mp hr
      obtain ⟨v, hv⟩ := he.single hx
      exact hall x.metric v (he.mem.mp ⟨x, hx, rfl, hv⟩)
    · obtain ⟨v, hm⟩ := (hnames m).mp hm
      obtain ⟨w, hn⟩ := (hnames n).mp hn
      exact hinj m v n w hm hn (congrArg (fun key : String × String × Nat => key.2.1) hmn)

theorem refused_iff {samples : List ExtractedSample} (he : Extracted samples members)
    (hn : (members.map Prod.fst).Nodup) (table : Table TelemetrySample) (deviceId source : String)
    (recordedAt : Nat) :
    insert table (samples.map (ExtractedSample.row deviceId source recordedAt)) = none ↔
      Refused (fun m v => (m, v) ∈ members) table deviceId recordedAt := by
  rw [← Option.not_isSome_iff_eq_none, inserted_iff he hn]
  constructor
  · intro hnot
    by_contra hfree
    refine hnot ⟨fun m v hm => ⟨?_, ?_⟩, fun m v n w hm hw hmn => ?_⟩
    · exact Bool.not_eq_false _ ▸ fun hfits => hfree (.name hm hfits)
    · exact Option.not_isSome_iff_eq_none.mp fun hthere => hfree (.key hm hthere)
    · by_contra hne
      exact hfree (.twice hm hw hne hmn)
  · rintro hrefused ⟨hall, hinj⟩
    cases hrefused with
    | name hm hfits => exact Bool.false_ne_true (hfits.symm.trans (hall _ _ hm).1)
    | key hm hthere =>
        rw [(hall _ _ hm).2] at hthere
        cases hthere
    | twice hm hw hne hmn => exact hne (hinj _ _ _ _ hm hw hmn)

theorem held_rows {samples : List ExtractedSample} (he : Extracted samples members)
    (hname : ∀ m v, (m, v) ∈ members → nulFree m = true ∧ m.length ≤ 64) (deviceId source : String)
    (recordedAt : Nat) :
    (samples.map (ExtractedSample.row deviceId source recordedAt)).map TelemetrySample.held =
      samples.map (ExtractedSample.row deviceId source recordedAt) := by
  rw [List.map_map]
  refine List.map_congr_left fun x hx => ?_
  obtain ⟨v, hv⟩ := he.single hx
  have hlength := (hname x.metric v (he.mem.mp ⟨x, hx, rfl, hv⟩)).2
  rw [Function.comp, TelemetrySample.held, ExtractedSample.row, varchar_of_length hlength]

theorem next_keeps (s : State) (call : Nat) (rest : List Pair) :
    (s.next call rest).telemetry = s.telemetry ∧ (s.next call rest).events = s.events := by
  cases rest <;> exact ⟨rfl, rfl⟩

theorem storable_of_agree {samples : List ExtractedSample} {table stored : Table TelemetrySample}
    {rows : List TelemetrySample} {published : List Published} {pair : Pair} {recordedAt : Nat}
    {row : Twin.DeviceShadow} (he : Extracted samples members) (hn : (members.map Prod.fst).Nodup)
    (hstored : insert table (samples.map (ExtractedSample.row pair.1 pair.2.capability recordedAt)) = some stored)
    (hrows : stored.rows = table.rows ++ rows)
    (h : Agree (fun m v => (m, v) ∈ members) pair recordedAt rows published row) :
    Storable (fun m v => (m, v) ∈ members) table pair.1 recordedAt row := by
  obtain ⟨hall, -⟩ := (inserted_iff he hn table pair.1 pair.2.capability recordedAt).mp
    (Option.isSome_iff_exists.mpr ⟨stored, hstored⟩)
  have hheld : rows = samples.map fun x => (x.row pair.1 pair.2.capability recordedAt).held := by
    have hsame := hrows.symm.trans (rows_insert hstored)
    rw [List.map_map] at hsame
    exact List.append_cancel_left hsame
  have hname : ∀ m v, (m, v) ∈ members → nulFree m = true ∧ m.length ≤ 64 := by
    intro m v hm
    obtain ⟨r, hr, rfl, -⟩ := (h.stored m v).mpr hm
    obtain ⟨x, hx, rfl⟩ := List.mem_map.mp (hheld ▸ hr)
    obtain ⟨w, hw⟩ := he.single hx
    have hfits := (hall x.metric w (he.mem.mp ⟨x, hx, rfl, hw⟩)).1
    exact ⟨nulFree_varchar (nulFree_of_fits hfits), length_varchar⟩
  refine ⟨hname, fun m v hm => ?_, fun v hv => h.proto hv⟩
  have hfind := (hall m v hm).2
  rwa [varchar_of_length (hname m v hm).2] at hfind

/-- The rows, the event and the twin agree exactly when the table and the twin
can hold the readings; the table takes none of them for one that it cannot. -/
theorem telemetry_and_twin_agree_iff (hempty : parse "" = none)
    (hnames : ∀ text members, parse text = some (.obj members) → (members.map Prod.fst).Nodup)
    {s : State} {call : Nat} {pair : Pair} {recordedAt : Nat} {rest : List Pair}
    (hf : s.frames.get call = some (.recording pair recordedAt result rest)) (row : Twin.DeviceShadow) :
    (step parse s (.recorded call) = none ↔
        Refused (Reading parse result) s.telemetry pair.1 recordedAt) ∧
      ((∃ t rows published, step parse s (.recorded call) = some t ∧
          t.telemetry.rows = s.telemetry.rows ++ rows ∧ t.events = s.events ++ published ∧
          Agree (Reading parse result) pair recordedAt rows published row) ↔
        Storable (Reading parse result) s.telemetry pair.1 recordedAt row) := by
  obtain ⟨members, hn, he, hmem⟩ := extractSamples_members hempty hnames result
  have hreading : (fun m v => (m, v) ∈ members) = Reading parse result := by
    funext m v
    exact propext (hmem m v)
  have hs : ∀ x ∈ members, x.2.isScalar = true := by
    intro x hx
    obtain ⟨-, -, -, -, -, hscalar⟩ := (hmem x.1 x.2).mp hx
    exact hscalar
  have hstep : step parse s (.recorded call) =
      (recordCapabilityResult parse s.telemetry pair.1 pair.2.capability recordedAt result).map fun stored =>
        { s with telemetry := stored.1, events := s.events ++ updated parse pair stored.2 result }.next call
          rest := by
    rw [step, hf]
  rw [hstep, recordCapabilityResult_eq, Option.map_map, ← hreading]
  generalize hsamples : extractSamples parse result = samples at he
  constructor
  · rw [Option.map_eq_none_iff, refused_iff he hn]
  · constructor
    · rintro ⟨t, rows, published, ht, hrows, -, hagree⟩
      obtain ⟨stored, hstored, rfl⟩ := Option.map_eq_some_iff.mp ht
      have hkept := congrArg Table.rows (next_keeps
        { s with telemetry := stored, events := s.events ++ updated parse pair samples.length result } call rest).1
      exact storable_of_agree he hn hstored (hkept.symm.trans hrows) hagree
    · intro hstorable
      have hheld := held_rows he hstorable.name pair.1 pair.2.capability recordedAt
      have hinserted := (inserted_iff he hn s.telemetry pair.1 pair.2.capability recordedAt).mpr
        ⟨fun m v hm => ⟨fitsVarchar_of_length (hstorable.name m v hm).1 (hstorable.name m v hm).2,
            (varchar_of_length (hstorable.name m v hm).2).symm ▸ hstorable.key m v hm⟩,
          fun m v n w hm hw hmn => by
            rwa [varchar_of_length (hstorable.name m v hm).2, varchar_of_length (hstorable.name n w hw).2] at hmn⟩
      obtain ⟨stored, hstored⟩ := Option.isSome_iff_exists.mp hinserted
      refine ⟨_, _, _, Option.map_eq_some_iff.mpr ⟨stored, hstored, rfl⟩, ?_, ?_,
        agree_of_extracted he hn hs hstorable.own pair recordedAt hsamples⟩
      · exact (congrArg Table.rows (next_keeps _ call rest).1).trans (hheld ▸ rows_insert hstored)
      · exact (next_keeps _ call rest).2

def parseObject (text : String) (members : List (String × Json)) (input : String) : Option Json :=
  if input = text then some (.obj members) else none

theorem parseObject_eq_some {text input : String} {members members' : List (String × Json)}
    (h : parseObject text members input = some (.obj members')) : members' = members := by
  rw [parseObject] at h
  split at h
  · injection Option.some.inj h with h
    exact h.symm
  · cases h

theorem nodup_parseObject (h : (members.map Prod.fst).Nodup) (text input : String) (members' : List (String × Json))
    (hparse : parseObject text members input = some (.obj members')) : (members'.map Prod.fst).Nodup :=
  parseObject_eq_some hparse ▸ h

def netcfg : PollTarget := { capability := "network_status", requiredGroup := "cap_netcfg" }

def answered (result : String) : State where
  now := 7
  polling := true
  calls := 1
  frames := Table.empty.set 0 (.recording ("dev-1", netcfg) 7 (some result) [])
  promises := Table.empty.set 0 .pending

def protoText : String := "\x7b\"__proto__\":5\x7d"

theorem proto_reading_is_lost : ¬ ∀ (parse : String → Option Json) (result : Option String), parse "" = none →
    (∀ text members, parse text = some (.obj members) → (members.map Prod.fst).Nodup) →
    ∀ (s t : State) (call : Nat) (pair : Pair) (recordedAt : Nat) (rest : List Pair) (row : Twin.DeviceShadow),
    s.frames.get call = some (.recording pair recordedAt result rest) →
    step parse s (.recorded call) = some t →
    ∃ rows published, t.telemetry.rows = s.telemetry.rows ++ rows ∧ t.events = s.events ++ published ∧
      Agree (Reading parse result) pair recordedAt rows published row := by
  intro h
  let parse := parseObject protoText [("__proto__", .num (.finite 5))]
  have hnames : ∀ text members, parse text = some (.obj members) → (members.map Prod.fst).Nodup :=
    nodup_parseObject (by decide) protoText
  obtain ⟨rows, published, -, -, hagree⟩ := h parse (some protoText) (by decide) hnames (answered protoText) _ 0
    ("dev-1", netcfg) 7 [] (Twin.emptyShadow "dev-1") rfl rfl
  have hreading : Reading parse (some protoText) "__proto__" (.num (.finite 5)) :=
    ⟨protoText, _, rfl, rfl, List.mem_singleton_self _, rfl⟩
  exact hagree.proto hreading rfl

def statusText : String := "\x7b\"rssi\":0,\"ssid\":\"lab\",\"connected\":false\x7d"

def status : List (String × Json) :=
  [("rssi", .num (.finite 0)), ("ssid", .str "lab"), ("connected", .bool false)]

theorem zero_and_false_agree : ∃ t rows published,
    step (parseObject statusText status) (answered statusText) (.recorded 0) = some t ∧
      t.telemetry.rows = rows ∧ t.events = published ∧
      Agree (Reading (parseObject statusText status) (some statusText)) ("dev-1", netcfg) 7 rows published
        (Twin.emptyShadow "dev-1") := by
  have hnames := nodup_parseObject (show (status.map Prod.fst).Nodup by decide) statusText
  have hmember : ∀ m v, Reading (parseObject statusText status) (some statusText) m v → m ∈ status.map Prod.fst := by
    rintro m v ⟨text, members, -, hparse, hmem, -⟩
    rw [parseObject_eq_some hparse] at hmem
    exact List.mem_map.mpr ⟨_, hmem, rfl⟩
  have hstatus : ∀ m ∈ status.map Prod.fst, nulFree m = true ∧ m.length ≤ 64 := by decide +kernel
  have hstorable : Storable (Reading (parseObject statusText status) (some statusText))
      (answered statusText).telemetry "dev-1" 7 (Twin.emptyShadow "dev-1") := by
    refine ⟨fun m v h => hstatus m (hmember m v h), fun _ _ _ => rfl, fun v h => ?_⟩
    have hnone : "__proto__" ∉ status.map Prod.fst := by decide
    exact absurd (hmember _ v h) hnone
  have hrecording : (answered statusText).frames.get 0 =
      some (.recording ("dev-1", netcfg) 7 (some statusText) []) := rfl
  have hagree := telemetry_and_twin_agree_iff (by decide) hnames hrecording (Twin.emptyShadow "dev-1")
  obtain ⟨t, rows, published, ht, hrows, hevents, hall⟩ := hagree.2.mpr hstorable
  exact ⟨t, rows, published, ht, hrows, hevents, hall⟩

end EspClawPlatform.Telemetry
