import EspClawPlatform.Lib.Table

namespace EspClawPlatform

/-- A JavaScript number. `JSON.parse` yields an infinity for a literal out of
range, and never a NaN. -/
inductive JsNumber
  | finite (value : Rat)
  | infinity (negative : Bool)
  | nan
  deriving DecidableEq

inductive Json
  | null
  | bool (value : Bool)
  | num (value : JsNumber)
  | str (value : String)
  | arr (items : List Json)
  | obj (members : List (String × Json))

namespace Json

mutual

def decEq : (a b : Json) → Decidable (a = b)
  | .null, .null => isTrue rfl
  | .bool a, .bool b => decidable_of_iff (a = b) (by simp)
  | .num a, .num b => decidable_of_iff (a = b) (by simp)
  | .str a, .str b => decidable_of_iff (a = b) (by simp)
  | .arr xs, .arr ys => have := decEqItems xs ys; decidable_of_iff (xs = ys) (by simp)
  | .obj xs, .obj ys => have := decEqMembers xs ys; decidable_of_iff (xs = ys) (by simp)
  | .null, .bool _ | .null, .num _ | .null, .str _ | .null, .arr _ | .null, .obj _
  | .bool _, .null | .bool _, .num _ | .bool _, .str _ | .bool _, .arr _ | .bool _, .obj _
  | .num _, .null | .num _, .bool _ | .num _, .str _ | .num _, .arr _ | .num _, .obj _
  | .str _, .null | .str _, .bool _ | .str _, .num _ | .str _, .arr _ | .str _, .obj _
  | .arr _, .null | .arr _, .bool _ | .arr _, .num _ | .arr _, .str _ | .arr _, .obj _
  | .obj _, .null | .obj _, .bool _ | .obj _, .num _ | .obj _, .str _ | .obj _, .arr _ =>
      isFalse nofun

def decEqItems : (xs ys : List Json) → Decidable (xs = ys)
  | [], [] => isTrue rfl
  | x :: xs, y :: ys =>
      have := decEq x y
      have := decEqItems xs ys
      decidable_of_iff (x = y ∧ xs = ys) (by simp)
  | [], _ :: _ | _ :: _, [] => isFalse nofun

def decEqMembers : (xs ys : List (String × Json)) → Decidable (xs = ys)
  | [], [] => isTrue rfl
  | (k, x) :: xs, (l, y) :: ys =>
      have := decEq x y
      have := decEqMembers xs ys
      decidable_of_iff (k = l ∧ x = y ∧ xs = ys) (by simp [and_assoc])
  | [], _ :: _ | _ :: _, [] => isFalse nofun

end

instance : DecidableEq Json := decEq

/-- The own property of an object; `none` is `undefined`. -/
def property : Json → String → Option Json
  | .obj members, name => (members.find? fun m => m.1 = name).map Prod.snd
  | _, _ => none

def isScalar : Json → Bool
  | .num (.finite _) | .bool _ => true
  | _ => false

mutual

/-- What `JSON.parse` reads back of the text that `JSON.stringify` writes. -/
def readBack : Json → Json
  | .num (.infinity _) | .num .nan => .null
  | .arr items => .arr (readBackItems items)
  | .obj members => .obj (readBackMembers members)
  | .null => .null
  | .bool value => .bool value
  | .num (.finite value) => .num (.finite value)
  | .str value => .str value

def readBackItems : List Json → List Json
  | [] => []
  | x :: xs => readBack x :: readBackItems xs

def readBackMembers : List (String × Json) → List (String × Json)
  | [] => []
  | (k, x) :: xs => (k, readBack x) :: readBackMembers xs

end

theorem readBack_scalar {v : Json} (h : v.isScalar = true) : v.readBack = v := by
  cases v with
  | bool => rfl
  | num n =>
      cases n with
      | finite => rfl
      | infinity => cases h
      | nan => cases h
  | null => cases h
  | str => cases h
  | arr => cases h
  | obj => cases h

end Json

/-- A `Record<string, unknown>`: own properties in insertion order. -/
abbrev Record := Table (String × Json)

end EspClawPlatform
