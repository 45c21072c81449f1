import Mathlib.Data.List.Sort
import EspClawPlatform.Json

namespace EspClawPlatform

/-- A text that a column of PostgreSQL can hold: U+0000 is in none. -/
def nulFree (text : String) : Bool := text.toList.all fun c => c ≠ Char.ofNat 0

/-- A `varchar (n)` takes a longer text only when all the rest of it is spaces. -/
def fitsVarchar (n : Nat) (text : String) : Bool := nulFree text && (text.toList.drop n).all (· = ' ')

def varchar (n : Nat) (text : String) : String := String.ofList (text.toList.take n)

section Varchar

variable {n : Nat} {text : String}

theorem length_varchar : (varchar n text).length ≤ n := by
  rw [varchar, String.length_ofList, List.length_take]
  exact Nat.min_le_left ..

theorem nulFree_varchar (h : nulFree text = true) : nulFree (varchar n text) = true := by
  rw [nulFree, List.all_eq_true] at h ⊢
  intro c hc
  rw [varchar, String.toList_ofList] at hc
  exact h c (List.mem_of_mem_take hc)

theorem varchar_of_length (h : text.length ≤ n) : varchar n text = text := by
  rw [varchar, List.take_of_length_le (by rwa [String.length_toList]), String.ofList_toList]

theorem fitsVarchar_of_length (hnul : nulFree text = true) (h : text.length ≤ n) : fitsVarchar n text = true := by
  rw [fitsVarchar, hnul, List.drop_of_length_le (by rwa [String.length_toList])]
  rfl

theorem nulFree_of_fits (h : fitsVarchar n text = true) : nulFree text = true := (Bool.and_eq_true_iff.mp h).1

end Varchar

namespace Json

mutual

/-- All names of members pass, and all values that have no parts, at every depth. -/
def every (name : String → Bool) (leaf : Json → Bool) : Json → Bool
  | .arr items => everyItem name leaf items
  | .obj members => everyMember name leaf members
  | v => leaf v

def everyItem (name : String → Bool) (leaf : Json → Bool) : List Json → Bool
  | [] => true
  | x :: xs => every name leaf x && everyItem name leaf xs

def everyMember (name : String → Bool) (leaf : Json → Bool) : List (String × Json) → Bool
  | [] => true
  | (k, x) :: xs => (name k && every name leaf x) && everyMember name leaf xs

end

def leafNulFree : Json → Bool
  | .str text => EspClawPlatform.nulFree text
  | _ => true

def leafInRange : Json → Bool
  | .num (.infinity _) | .num .nan => false
  | _ => true

def nulFree (v : Json) : Bool := v.every EspClawPlatform.nulFree leafNulFree

def inRange (v : Json) : Bool := v.every (fun _ => true) leafInRange

/-- The same value but for the order of members, at every depth. -/
inductive Reordered : Json → Json → Prop
  | refl (v : Json) : Reordered v v
  | trans {u v w : Json} (h : Reordered u v) (h' : Reordered v w) : Reordered u w
  | item {v w : Json} (xs ys : List Json) (h : Reordered v w) :
      Reordered (.arr (xs ++ v :: ys)) (.arr (xs ++ w :: ys))
  | member {v w : Json} (key : String) (xs ys : List (String × Json)) (h : Reordered v w) :
      Reordered (.obj (xs ++ (key, v) :: ys)) (.obj (xs ++ (key, w) :: ys))
  | members {xs ys : List (String × Json)} (h : xs.Perm ys) : Reordered (.obj xs) (.obj ys)

variable {name : String → Bool} {leaf : Json → Bool} {v w : Json}

theorem everyItem_eq_all (items : List Json) : everyItem name leaf items = items.all (every name leaf) := by
  induction items with
  | nil => rfl
  | cons x xs ih => rw [everyItem, List.all_cons, ih]

theorem everyMember_eq_all (members : List (String × Json)) :
    everyMember name leaf members = members.all fun m => name m.1 && every name leaf m.2 := by
  induction members with
  | nil => rfl
  | cons m members ih => rw [everyMember, List.all_cons, ih]

theorem every_obj {members : List (String × Json)} :
    every name leaf (.obj members) = true ↔
      ∀ m ∈ members, name m.1 = true ∧ every name leaf m.2 = true := by
  rw [every, everyMember_eq_all, List.all_eq_true]
  simp only [Bool.and_eq_true]

theorem Reordered.symm (h : Reordered v w) : Reordered w v := by
  induction h with
  | refl v => exact .refl v
  | trans _ _ ih ih' => exact ih'.trans ih
  | item xs ys _ ih => exact .item xs ys ih
  | member key xs ys _ ih => exact .member key xs ys ih
  | members h => exact .members h.symm

theorem Reordered.every_eq (h : Reordered v w) : every name leaf v = every name leaf w := by
  induction h with
  | refl v => rfl
  | trans _ _ ih ih' => exact ih.trans ih'
  | item xs ys _ ih =>
      simp only [every, everyItem_eq_all, List.all_append, List.all_cons, ih]
  | member key xs ys _ ih =>
      simp only [every, everyMember_eq_all, List.all_append, List.all_cons, ih]
  | members h => rw [every, every, everyMember_eq_all, everyMember_eq_all, h.all_eq]

theorem Reordered.eq_of_scalar (h : Reordered v w) (hw : w.isScalar = true) : v = w := by
  induction h with
  | refl v => rfl
  | trans _ _ ih ih' =>
      obtain rfl := ih' hw
      exact ih hw
  | item => cases hw
  | member => cases hw
  | members => cases hw

theorem nulFree_scalar (h : v.isScalar = true) : v.nulFree = true := by
  cases v with
  | num => rfl
  | bool => rfl
  | null => cases h
  | str => cases h
  | arr => cases h
  | obj => cases h

theorem reordered_items (f : Json → Json) (done : List Json) {items : List Json}
    (h : ∀ x ∈ items, Reordered (f x) x) : Reordered (.arr (done ++ items.map f)) (.arr (done ++ items)) := by
  induction items generalizing done with
  | nil => exact .refl _
  | cons x xs ih =>
      have hrest := ih (done ++ [x]) fun y hy => h y (List.mem_cons_of_mem x hy)
      rw [List.append_assoc, List.append_assoc] at hrest
      exact .trans (.item done (xs.map f) (h x List.mem_cons_self)) hrest

theorem reordered_members (f : Json → Json) (done : List (String × Json)) {members : List (String × Json)}
    (h : ∀ m ∈ members, Reordered (f m.2) m.2) :
    Reordered (.obj (done ++ members.map fun m => (m.1, f m.2))) (.obj (done ++ members)) := by
  induction members generalizing done with
  | nil => exact .refl _
  | cons m members ih =>
      have hrest := ih (done ++ [m]) fun x hx => h x (List.mem_cons_of_mem m hx)
      rw [List.append_assoc, List.append_assoc] at hrest
      exact .trans (.member m.1 done _ (h m List.mem_cons_self)) hrest

mutual

theorem inRange_readBack (v : Json) : v.readBack.inRange = true := by
  cases v with
  | num n => cases n <;> rfl
  | arr items => exact inRange_readBackItems items
  | obj members => exact inRange_readBackMembers members
  | _ => rfl

theorem inRange_readBackItems (items : List Json) :
    everyItem (fun _ => true) leafInRange (readBackItems items) = true := by
  cases items with
  | nil => rfl
  | cons x xs => exact Bool.and_eq_true_iff.mpr ⟨inRange_readBack x, inRange_readBackItems xs⟩

theorem inRange_readBackMembers (members : List (String × Json)) :
    everyMember (fun _ => true) leafInRange (readBackMembers members) = true := by
  cases members with
  | nil => rfl
  | cons m members =>
      exact Bool.and_eq_true_iff.mpr ⟨inRange_readBack m.2, inRange_readBackMembers members⟩

end

mutual

theorem readBack_inRange (v : Json) (h : v.inRange = true) : v.readBack = v := by
  cases v with
  | num n =>
      cases n with
      | finite => rfl
      | infinity => cases h
      | nan => cases h
  | arr items => exact congrArg arr (readBackItems_inRange items h)
  | obj members => exact congrArg obj (readBackMembers_inRange members h)
  | _ => rfl

theorem readBackItems_inRange (items : List Json)
    (h : everyItem (fun _ => true) leafInRange items = true) : readBackItems items = items := by
  cases items with
  | nil => rfl
  | cons x xs =>
      obtain ⟨hx, hxs⟩ := Bool.and_eq_true_iff.mp h
      rw [readBackItems, readBack_inRange x hx, readBackItems_inRange xs hxs]

theorem readBackMembers_inRange (members : List (String × Json))
    (h : everyMember (fun _ => true) leafInRange members = true) : readBackMembers members = members := by
  cases members with
  | nil => rfl
  | cons m members =>
      obtain ⟨hm, hms⟩ := Bool.and_eq_true_iff.mp h
      rw [readBackMembers, readBack_inRange m.2 hm, readBackMembers_inRange members hms]

end

def before (m n : String × Json) : Bool :=
  m.1.utf8ByteSize < n.1.utf8ByteSize || (m.1.utf8ByteSize = n.1.utf8ByteSize && m.1 ≤ n.1)

mutual

/-- The members by the length of their names, then by the names. -/
def arranged : Json → Json
  | .arr items => .arr (arrangedItems items)
  | .obj members => .obj ((arrangedMembers members).insertionSort (before · ·))
  | v => v

def arrangedItems : List Json → List Json
  | [] => []
  | x :: xs => arranged x :: arrangedItems xs

def arrangedMembers : List (String × Json) → List (String × Json)
  | [] => []
  | (k, x) :: xs => (k, arranged x) :: arrangedMembers xs

end

theorem arrangedItems_eq_map (items : List Json) : arrangedItems items = items.map arranged := by
  induction items with
  | nil => rfl
  | cons x xs ih => rw [arrangedItems, ih, List.map_cons]

theorem arrangedMembers_eq_map (members : List (String × Json)) :
    arrangedMembers members = members.map fun m => (m.1, m.2.arranged) := by
  induction members with
  | nil => rfl
  | cons m members ih => rw [arrangedMembers, ih, List.map_cons]

mutual

theorem reordered_arranged (v : Json) : Reordered v.arranged v := by
  cases v with
  | arr items =>
      rw [arranged, arrangedItems_eq_map]
      exact reordered_items arranged [] (reordered_arrangedItems items)
  | obj members =>
      rw [arranged, arrangedMembers_eq_map]
      exact .trans (.members (List.perm_insertionSort _ _))
        (reordered_members arranged [] (reordered_arrangedMembers members))
  | _ => exact .refl _

theorem reordered_arrangedItems (items : List Json) : ∀ x ∈ items, Reordered x.arranged x := by
  cases items with
  | nil => nofun
  | cons x xs => exact List.forall_mem_cons.mpr ⟨reordered_arranged x, reordered_arrangedItems xs⟩

theorem reordered_arrangedMembers (members : List (String × Json)) :
    ∀ m ∈ members, Reordered m.2.arranged m.2 := by
  cases members with
  | nil => nofun
  | cons m members =>
      exact List.forall_mem_cons.mpr ⟨reordered_arranged m.2, reordered_arrangedMembers members⟩

end

abbrev SameMember : Option Json → Option Json → Prop := Option.Rel Reordered

theorem SameMember.refl (x : Option Json) : SameMember x x := by
  cases x with
  | none => exact .none
  | some v => exact .some (.refl v)

theorem SameMember.symm {x y : Option Json} (h : SameMember x y) : SameMember y x := by
  cases h with
  | none => exact .none
  | some h => exact .some h.symm

theorem SameMember.trans {x y z : Option Json} (h : SameMember x y) (h' : SameMember y z) : SameMember x z := by
  cases h with
  | none => exact h'
  | some h =>
      cases h' with
      | some h' => exact .some (h.trans h')

theorem SameMember.some_iff {x y : Option Json} (h : SameMember x y) {v : Json} (hx : x = some v) :
    ∃ w, y = some w ∧ Reordered v w := by
  subst hx
  cases h with
  | some h => exact ⟨_, rfl, h⟩

theorem SameMember.eq_none {x : Option Json} (h : SameMember x none) : x = none := by
  cases h
  rfl

theorem SameMember.eq_of_scalar {x : Option Json} {v : Json} (h : SameMember x (some v))
    (hv : v.isScalar = true) : x = some v := by
  cases h with
  | some h => rw [h.eq_of_scalar hv]

end Json

def Record.json (r : Record) : Json := .obj r.rows

theorem Record.every_json {r : Record} {name : String → Bool} {leaf : Json → Bool} :
    r.json.every name leaf = true ↔ ∀ k v, r.get k = some v → name k = true ∧ v.every name leaf = true := by
  rw [Record.json, Json.every_obj]
  constructor
  · intro h k v hv
    exact h (k, v) (Table.get_eq_some.mp hv)
  · intro h m hm
    exact h m.1 m.2 (Table.get_eq_some.mpr hm)

/-- What is documented of a `jsonb` column: it refuses a text with U+0000, and
keeps of what `JSON.stringify` writes all but the order of members. -/
structure Jsonb (jsonb : Record → Option Record) : Prop where
  refuses : ∀ r : Record, jsonb r = none ↔ r.json.nulFree = false
  keeps : ∀ r stored : Record, jsonb r = some stored →
    ∀ k, Json.SameMember (stored.get k) ((r.get k).map Json.readBack)

theorem Jsonb.empty {jsonb : Record → Option Record} (h : Jsonb jsonb) : jsonb .empty = some .empty := by
  cases hstored : jsonb .empty with
  | none => cases (h.refuses .empty).mp hstored
  | some stored =>
      have hnone : ∀ k, stored.get k = none := fun k => by
        cases hk : stored.get k with
        | none => rfl
        | some v => cases hk ▸ h.keeps .empty stored hstored k
      refine congrArg some (Table.ext (List.eq_nil_iff_forall_not_mem.mpr fun m hm => ?_))
      have hget := Table.get_eq_some.mpr hm
      rw [hnone] at hget
      cases hget

theorem Jsonb.nulFree_of_some {jsonb : Record → Option Record} (h : Jsonb jsonb) {r stored : Record}
    (hr : jsonb r = some stored) : r.json.nulFree = true := by
  rw [← Bool.not_eq_false, ← h.refuses, hr]
  nofun

theorem Jsonb.some_of_nulFree {jsonb : Record → Option Record} (h : Jsonb jsonb) {r : Record}
    (hr : r.json.nulFree = true) : ∃ stored, jsonb r = some stored := by
  cases hstored : jsonb r with
  | none => cases ((h.refuses r).mp hstored).symm.trans hr
  | some stored => exact ⟨stored, rfl⟩

def jsonbColumn (r : Record) : Option Record :=
  if r.json.nulFree then
    let read : Record := r.mapValues fun v => v.readBack.arranged
    some ⟨read.rows.insertionSort (Json.before · ·),
      (((List.perm_insertionSort _ _).map _).nodup_iff).mpr read.nodup⟩
  else none

theorem jsonb_column : Jsonb jsonbColumn where
  refuses r := by
    rw [jsonbColumn]
    split
    · rename_i h
      simp [h]
    · rename_i h
      simp [h]
  keeps r stored h k := by
    rw [jsonbColumn] at h
    split at h
    · obtain rfl := Option.some.inj h
      rw [Table.get_of_perm (List.perm_insertionSort _ _) k, Table.get_mapValues]
      cases r.get k with
      | none => exact .none
      | some v => exact .some (Json.reordered_arranged v.readBack)
    · cases h

end EspClawPlatform
