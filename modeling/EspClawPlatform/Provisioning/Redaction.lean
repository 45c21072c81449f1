import EspClawPlatform.Provisioning.PlatformExec

namespace EspClawPlatform

inductive PathStep
  | key (name : String)
  | index (i : Nat)
  deriving DecidableEq

namespace Json

def child : Json → PathStep → Option Json
  | .obj members, .key name => property (.obj members) name
  | .arr items, .index i => items[i]?
  | _, _ => none

def follow (value : Json) : List PathStep → Option Json
  | [] => some value
  | step :: path => (value.child step).bind fun inner => inner.follow path

inductive Shape
  | leaf (value : Json)
  | arr (length : Nat)
  | obj (keys : List String)

def shape : Json → Shape
  | .arr items => .arr items.length
  | .obj members => .obj (members.map Prod.fst)
  | value => .leaf value

theorem follow_append (value : Json) (path rest : List PathStep) :
    value.follow (path ++ rest) = (value.follow path).bind fun inner => inner.follow rest := by
  induction path generalizing value with
  | nil => rfl
  | cons step path ih =>
      simp only [List.cons_append, follow, Option.bind_assoc, ih]

end Json

namespace Provisioning

def Open (path : List PathStep) : Prop := ∀ name, .key name ∈ path → ¬ isSecretKey name

theorem redactItems_eq (items : List Json) : redactItems items = items.map redactSecrets := by
  induction items with
  | nil => rfl
  | cons item items ih => rw [redactItems, List.map_cons, ih]

theorem property_redactMembers (members : List (String × Json)) (name : String) :
    Json.property (.obj (redactMembers members)) name =
      (Json.property (.obj members) name).map fun value =>
        if isSecretKey name then .str "[redacted]" else redactSecrets value := by
  induction members with
  | nil => rfl
  | cons member members ih =>
      obtain ⟨key, value⟩ := member
      simp only [Json.property] at ih ⊢
      rw [redactMembers, List.find?_cons, List.find?_cons]
      by_cases hkey : key = name
      · simp only [hkey, decide_true, Option.map_some]
      · simp only [hkey, decide_false, ih]

theorem shape_redactSecrets (value : Json) : (redactSecrets value).shape = value.shape := by
  cases value with
  | arr items => rw [redactSecrets, Json.shape, Json.shape, redactItems_eq, List.length_map]
  | obj members => rw [redactSecrets, Json.shape, Json.shape, keys_redactMembers]
  | null | bool | num | str => rfl

theorem child_redactSecrets (value : Json) {step : PathStep} (h : Open [step]) :
    (redactSecrets value).child step = (value.child step).map redactSecrets := by
  cases step with
  | key name =>
      cases value with
      | obj members =>
          have hname := h name List.mem_cons_self
          refine (property_redactMembers members name).trans ?_
          simp only [if_neg hname]
          rfl
      | null | bool | num | str | arr => rfl
  | index i =>
      cases value with
      | arr items => rw [redactSecrets, Json.child, Json.child, redactItems_eq, List.getElem?_map]
      | null | bool | num | str | obj => rfl

theorem follow_redactSecrets (value : Json) {path : List PathStep} (h : Open path) :
    (redactSecrets value).follow path = (value.follow path).map redactSecrets := by
  induction path generalizing value with
  | nil => rfl
  | cons step path ih =>
      have hstep : Open [step] := fun name hname => h name (List.mem_singleton.mp hname ▸ List.mem_cons_self)
      have hpath : Open path := fun name hname => h name (List.mem_cons_of_mem step hname)
      rw [Json.follow, child_redactSecrets value hstep, Json.follow]
      cases value.child step with
      | none => rfl
      | some inner => exact ih inner hpath

theorem child_secret (value : Json) {name : String} (h : isSecretKey name) :
    (redactSecrets value).child (.key name) = (value.child (.key name)).map fun _ => .str "[redacted]" := by
  cases value with
  | obj members =>
      refine (property_redactMembers members name).trans ?_
      simp only [if_pos h]
      rfl
  | null | bool | num | str | arr => rfl

mutual

/-- Two values of one shape, which differ only under keys that are secret. -/
inductive Alike : Json → Json → Prop
  | same (v : Json) : Alike v v
  | arr {xs ys : List Json} (h : AlikeItems xs ys) : Alike (.arr xs) (.arr ys)
  | obj {xs ys : List (String × Json)} (h : AlikeMembers xs ys) : Alike (.obj xs) (.obj ys)

inductive AlikeItems : List Json → List Json → Prop
  | nil : AlikeItems [] []
  | cons {v w : Json} {xs ys : List Json} (hv : Alike v w) (h : AlikeItems xs ys) :
      AlikeItems (v :: xs) (w :: ys)

inductive AlikeMembers : List (String × Json) → List (String × Json) → Prop
  | nil : AlikeMembers [] []
  | secret {key : String} {v w : Json} {xs ys : List (String × Json)} (hk : isSecretKey key)
      (h : AlikeMembers xs ys) :
      AlikeMembers ((key, v) :: xs) ((key, w) :: ys)
  | member {key : String} {v w : Json} {xs ys : List (String × Json)} (hv : Alike v w)
      (h : AlikeMembers xs ys) :
      AlikeMembers ((key, v) :: xs) ((key, w) :: ys)

end

mutual

theorem redactSecrets_alike {v w : Json} : Alike v w → redactSecrets v = redactSecrets w
  | .same _ => rfl
  | .arr h => by rw [redactSecrets, redactSecrets, redactItems_alike h]
  | .obj h => by rw [redactSecrets, redactSecrets, redactMembers_alike h]

theorem redactItems_alike {xs ys : List Json} : AlikeItems xs ys → redactItems xs = redactItems ys
  | .nil => rfl
  | .cons hv h => by rw [redactItems, redactItems, redactSecrets_alike hv, redactItems_alike h]

theorem redactMembers_alike {xs ys : List (String × Json)} :
    AlikeMembers xs ys → redactMembers xs = redactMembers ys
  | .nil => rfl
  | .secret hk h => by rw [redactMembers, redactMembers, if_pos hk, if_pos hk, redactMembers_alike h]
  | .member hv h => by rw [redactMembers, redactMembers, redactSecrets_alike hv, redactMembers_alike h]

end

mutual

theorem alike_redactSecrets (value : Json) : Alike (redactSecrets value) value := by
  cases value with
  | arr items => exact .arr (alike_redactItems items)
  | obj members => exact .obj (alike_redactMembers members)
  | null | bool | num | str => exact .same _

theorem alike_redactItems (items : List Json) : AlikeItems (redactItems items) items := by
  cases items with
  | nil => exact .nil
  | cons item items => exact .cons (alike_redactSecrets item) (alike_redactItems items)

theorem alike_redactMembers (members : List (String × Json)) : AlikeMembers (redactMembers members) members := by
  cases members with
  | nil => exact .nil
  | cons member members =>
      obtain ⟨key, value⟩ := member
      by_cases hk : isSecretKey key
      · exact .secret hk (alike_redactMembers members)
      · rw [redactMembers, if_neg hk]
        exact .member (alike_redactSecrets value) (alike_redactMembers members)

end

mutual

theorem alike_of_redactSecrets (v w : Json) (h : redactSecrets v = redactSecrets w) : Alike v w := by
  cases v with
  | arr xs =>
      cases w with
      | arr ys => exact .arr (alike_of_redactItems xs ys (Json.arr.inj h))
      | null | bool | num | str | obj => cases h
  | obj xs =>
      cases w with
      | obj ys => exact .obj (alike_of_redactMembers xs ys (Json.obj.inj h))
      | null | bool | num | str | arr => cases h
  | null | bool | num | str =>
      -- a leaf is its own redaction
      cases w <;> cases h
      exact .same _

theorem alike_of_redactItems (xs ys : List Json) (h : redactItems xs = redactItems ys) : AlikeItems xs ys := by
  cases xs with
  | nil =>
      cases ys with
      | nil => exact .nil
      | cons => cases h
  | cons v xs =>
      cases ys with
      | nil => cases h
      | cons w ys =>
          obtain ⟨hv, hrest⟩ := List.cons.inj h
          exact .cons (alike_of_redactSecrets v w hv) (alike_of_redactItems xs ys hrest)

theorem alike_of_redactMembers (xs ys : List (String × Json)) (h : redactMembers xs = redactMembers ys) :
    AlikeMembers xs ys := by
  cases xs with
  | nil =>
      cases ys with
      | nil => exact .nil
      | cons => cases h
  | cons member xs =>
      cases ys with
      | nil => cases h
      | cons member' ys =>
          obtain ⟨hmember, hrest⟩ := List.cons.inj h
          obtain ⟨key, v⟩ := member
          obtain ⟨key', w⟩ := member'
          obtain ⟨rfl, hv⟩ := Prod.mk.inj hmember
          by_cases hk : isSecretKey key
          · exact .secret hk (alike_of_redactMembers xs ys hrest)
          · rw [if_neg hk, if_neg hk] at hv
            exact .member (alike_of_redactSecrets v w hv) (alike_of_redactMembers xs ys hrest)

end

/-- What is seen along an open path stays as it was, what is under a secret key
goes as a whole, and nothing else makes a difference. -/
theorem redaction_is_exact (value : Json) :
    (∀ path, Open path →
      ((redactSecrets value).follow path).map Json.shape = (value.follow path).map Json.shape ∧
        ∀ name, isSecretKey name → (redactSecrets value).follow (path ++ [.key name]) =
          (value.follow (path ++ [.key name])).map fun _ => .str "[redacted]") ∧
    (∀ other, redactSecrets value = redactSecrets other ↔ Alike value other) ∧
    redactSecrets (redactSecrets value) = redactSecrets value := by
  refine ⟨fun path hpath => ⟨?_, fun name hname => ?_⟩,
    fun other => ⟨alike_of_redactSecrets value other, redactSecrets_alike⟩,
    redactSecrets_alike (alike_redactSecrets value)⟩
  · rw [follow_redactSecrets value hpath, Option.map_map]
    exact congrArg (Option.map · _) (funext shape_redactSecrets)
  · rw [Json.follow_append, Json.follow_append, follow_redactSecrets value hpath]
    cases value.follow path with
    | none => rfl
    | some inner =>
        have hchild := child_secret inner hname
        simp only [Option.map_some, Option.bind_some, Json.follow, hchild]
        cases inner.child (.key name) with
        | none => rfl
        | some => rfl

end Provisioning

end EspClawPlatform
