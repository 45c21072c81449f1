import EspClawPlatform.Lib.Text
import EspClawPlatform.Bus.InProcessEventBus

namespace EspClawPlatform.Bus

section Alignment

variable {α : Type}

/-- What a segment of a pattern stands for: itself, any one segment, or all the rest. -/
inductive Segment (α : Type)
  | literal (x : α)
  | one
  | rest

/-- The segments of a type can be aligned with those of a pattern. -/
inductive Aligned : List (Segment α) → List α → Prop
  | nil : Aligned [] []
  | literal (x : α) {ps : List (Segment α)} {xs : List α} (h : Aligned ps xs) :
      Aligned (.literal x :: ps) (x :: xs)
  | one (x : α) {ps : List (Segment α)} {xs : List α} (h : Aligned ps xs) : Aligned (.one :: ps) (x :: xs)
  | rest (x : α) (xs : List α) : Aligned [.rest] (x :: xs)

theorem aligned_nil {xs : List α} : Aligned [] xs ↔ xs = [] := by
  constructor
  · rintro ⟨⟩
    rfl
  · rintro rfl
    exact .nil

theorem aligned_literal {x : α} {ps : List (Segment α)} {xs : List α} :
    Aligned (.literal x :: ps) xs ↔ ∃ ys, xs = x :: ys ∧ Aligned ps ys := by
  constructor
  · rintro (_ | ⟨_, h⟩)
    exact ⟨_, rfl, h⟩
  · rintro ⟨ys, rfl, h⟩
    exact .literal x h

theorem aligned_one {ps : List (Segment α)} {xs : List α} :
    Aligned (.one :: ps) xs ↔ ∃ y ys, xs = y :: ys ∧ Aligned ps ys := by
  constructor
  · rintro (_ | _ | ⟨y, h⟩)
    exact ⟨y, _, rfl, h⟩
  · rintro ⟨y, ys, rfl, h⟩
    exact .one y h

theorem aligned_rest {xs : List α} : Aligned [.rest] xs ↔ xs ≠ [] := by
  constructor
  · rintro ⟨⟩
    exact List.cons_ne_nil _ _
  · intro h
    obtain ⟨y, ys, rfl⟩ := List.exists_cons_of_ne_nil h
    exact .rest y ys

theorem aligned_literals {xs ys : List α} : Aligned (xs.map .literal) ys ↔ ys = xs := by
  induction xs generalizing ys with
  | nil => exact aligned_nil
  | cons x xs ih =>
      rw [List.map_cons, aligned_literal]
      constructor
      · rintro ⟨zs, rfl, h⟩
        rw [ih.mp h]
      · rintro rfl
        exact ⟨xs, rfl, ih.mpr rfl⟩

end Alignment

def Segment.parse (text : String) : Segment String :=
  if text = "**" then .rest else if text = "*" then .one else .literal text

theorem parse_rest : Segment.parse (String.ofList "**".toList) = .rest := by
  rw [String.ofList_toList, Segment.parse, if_pos rfl]

theorem matchSegments_iff {ps : List (List Char)} (ts : List (List Char)) (h : "**".toList ∉ ps.dropLast) :
    matchSegments ps ts = true ↔
      Aligned ((ps.map String.ofList).map Segment.parse) (ts.map String.ofList) := by
  induction ps generalizing ts with
  | nil =>
      rw [matchSegments, List.isEmpty_iff, List.map_nil, List.map_nil, aligned_nil, List.map_eq_nil_iff]
  | cons p ps ih =>
      rw [List.map_cons, List.map_cons]
      by_cases hrest : p = "**".toList
      · have hlast : ps = [] := by
          cases ps with
          | nil => rfl
          | cons q ps => exact absurd (hrest ▸ List.mem_cons_self) h
        have hmatch : matchSegments (p :: ps) ts = !ts.isEmpty := by cases ts <;> exact if_pos hrest
        rw [hmatch, hlast, hrest, parse_rest, List.map_nil, List.map_nil, aligned_rest,
          Bool.not_eq_true', ← Bool.not_eq_true, List.isEmpty_iff, ne_eq, List.map_eq_nil_iff]
      · have htail : "**".toList ∉ ps.dropLast := by
          cases ps with
          | nil => exact List.not_mem_nil
          | cons q ps => exact fun hm => h (List.mem_cons_of_mem p hm)
        have hnot : String.ofList p ≠ "**" := fun he => hrest (by rw [← he, String.toList_ofList])
        cases ts with
        | nil =>
            have hmatch : matchSegments (p :: ps) [] = false := if_neg hrest
            rw [hmatch]
            refine iff_of_false Bool.false_ne_true fun ha => ?_
            rw [Segment.parse, if_neg hnot] at ha
            split at ha <;> cases ha
        | cons x xs =>
            have hmatch : matchSegments (p :: ps) (x :: xs) =
                ((p = "*".toList || p = x) && matchSegments ps xs) := if_neg hrest
            rw [hmatch, Bool.and_eq_true, Bool.or_eq_true, decide_eq_true_eq, decide_eq_true_eq, ih xs htail,
              List.map_cons, Segment.parse, if_neg hnot]
            by_cases hone : p = "*".toList
            · rw [if_pos (by rw [hone, String.ofList_toList]), aligned_one]
              constructor
              · rintro ⟨-, ha⟩
                exact ⟨_, _, rfl, ha⟩
              · rintro ⟨y, ys, he, ha⟩
                obtain ⟨-, rfl⟩ := List.cons.inj he
                exact ⟨.inl hone, ha⟩
            · rw [if_neg fun he => hone (by rw [← he, String.toList_ofList]), aligned_literal]
              constructor
              · rintro ⟨hp, ha⟩
                rw [hp.resolve_left hone]
                exact ⟨_, rfl, ha⟩
              · rintro ⟨ys, he, ha⟩
                obtain ⟨hx, rfl⟩ := List.cons.inj he
                exact ⟨.inr (String.ofList_injective hx.symm), ha⟩

/-- A pattern that has `**` at its end at most means what its segments stand
for; `**` alone is all types, and a pattern without wildcards is itself. -/
theorem matchesPattern_iff_aligned {pattern : String} (h : "**" ∉ (split pattern '.').dropLast) (type : String) :
    (matchesPattern pattern type = true ↔ Aligned ((split pattern '.').map Segment.parse) (split type '.')) ∧
      matchesPattern "**" type = true ∧
      ("**" ∉ split pattern '.' → "*" ∉ split pattern '.' →
        (matchesPattern pattern type = true ↔ type = pattern)) := by
  have hdrop : "**".toList ∉ (pattern.toList.splitOn '.').dropLast := by
    intro hm
    apply h
    rw [split, ← List.map_dropLast]
    exact List.mem_map.mpr ⟨_, hm, String.ofList_toList⟩
  have haligned := matchSegments_iff (type.toList.splitOn '.') hdrop
  refine ⟨haligned, ?_, fun hrest hone => ?_⟩
  · have hsplit : type.toList.splitOn '.' ≠ [] := List.splitOn_ne_nil _ _
    obtain ⟨x, xs, hcons⟩ := List.exists_cons_of_ne_nil hsplit
    rw [matchesPattern, hcons]
    rfl
  · have hliterals : (split pattern '.').map Segment.parse = (split pattern '.').map .literal := by
      apply List.map_congr_left
      intro x hx
      rw [Segment.parse, if_neg fun he : x = "**" => hrest (he ▸ hx),
        if_neg fun he : x = "*" => hone (he ▸ hx)]
    rw [matchesPattern, haligned, ← split, ← split, hliterals, aligned_literals]
    constructor
    · intro hs
      rw [← join_split type '.', hs, join_split]
    · rintro rfl
      rfl

theorem command_events_match : matchesPattern "device.command.*" "device.command.created" = true :=
  (matchesPattern_iff_aligned (by decide) "device.command.created").1.mpr
    (.literal "device" (.literal "command" (.one "created" .nil)))

end EspClawPlatform.Bus
