import Mathlib.Data.Fintype.EquivFin
import Mathlib.Data.List.Infix
import Mathlib.Data.List.TakeWhile

namespace EspClawPlatform

/-- The characters `String.prototype.trim` removes. -/
def isWhiteSpace (c : Char) : Bool :=
  c.toNat ∈ [0x9, 0xA, 0xB, 0xC, 0xD, 0x20, 0xA0, 0x1680, 0x2028, 0x2029, 0x202F, 0x205F, 0x3000, 0xFEFF] ||
    0x2000 ≤ c.toNat && c.toNat ≤ 0x200A

def trim (s : String) : String :=
  String.ofList (((s.toList.dropWhile isWhiteSpace).reverse.dropWhile isWhiteSpace).reverse)

def split (s : String) (separator : Char) : List String := (s.toList.splitOn separator).map String.ofList

def join (parts : List String) (separator : Char) : String :=
  String.ofList ([separator].intercalate (parts.map String.toList))

def startsWith (s start : String) : Bool := start.toList.isPrefixOf s.toList

def includes (s part : String) : Bool := decide (part.toList <:+: s.toList)

def dropPrefix (s start : String) : Option String :=
  if startsWith s start then some (String.ofList (s.toList.drop start.toList.length)) else none

/-- How many UTF-16 code units a text has, its `length`. -/
def utf16Length (s : String) : Nat := s.length + s.toList.countP fun c => 0x10000 ≤ c.toNat

def utf16Units (c : Char) : List Nat :=
  if c.toNat < 0x10000 then [c.toNat]
  else [0xD800 + (c.toNat - 0x10000) / 0x400, 0xDC00 + (c.toNat - 0x10000) % 0x400]

def utf16 (s : String) : List Nat := s.toList.flatMap utf16Units

theorem length_utf16 (s : String) : (utf16 s).length = utf16Length s := by
  rw [utf16, utf16Length, ← String.length_toList]
  induction s.toList with
  | nil => rfl
  | cons c cs ih =>
      rw [List.flatMap_cons, List.length_append, ih, List.length_cons, List.countP_cons, utf16Units]
      split
      · rename_i h
        rw [if_neg (by simpa using h), List.length_singleton]
        omega
      · rename_i h
        rw [if_pos (by simpa using h)]
        simp only [List.length_cons, List.length_nil]
        omega

/-- What `Number` makes of a text of decimal digits. -/
def numberOf (s : String) : Option Nat :=
  if s ≠ "" && s.toList.all Char.isDigit then some (Nat.ofDigitChars 10 s.toList 0) else none

theorem numberOf_toString (n : Nat) : numberOf (toString n) = some n := by
  have hdigits : ∀ c ∈ Nat.toDigits 10 n, c.isDigit = true := fun c hc =>
    Nat.isDigit_of_mem_toDigits (by decide) (by decide) hc
  have hne : toString n ≠ "" := Nat.repr_ne_empty
  have htext : (toString n).toList = Nat.toDigits 10 n := Nat.toList_repr
  rw [numberOf, htext, Nat.ofDigitChars_ten_toDigits, if_pos]
  simpa [hne] using hdigits

section Split

variable {c : Char} {parts : List String} {s x : String}

theorem join_split (s : String) (c : Char) : join (split s c) c = s := by
  have hid : String.toList ∘ String.ofList = id := funext fun _ => String.toList_ofList
  rw [join, split, List.map_map, hid, List.map_id, List.intercalate_splitOn, String.ofList_toList]

theorem split_join (h : ∀ x ∈ parts, c ∉ x.toList) (hne : parts ≠ []) : split (join parts c) c = parts := by
  have hid : String.ofList ∘ String.toList = id := funext fun _ => String.ofList_toList
  have hmem : ∀ l ∈ parts.map String.toList, c ∉ l := by
    intro l hl
    obtain ⟨x, hx, rfl⟩ := List.mem_map.mp hl
    exact h x hx
  rw [split, join, String.toList_ofList, List.splitOn_intercalate c hmem (by simpa using hne),
    List.map_map, hid,
    List.map_id]

theorem not_mem_splitOn {l p : List Char} (h : p ∈ l.splitOn c) : c ∉ p := by
  induction l generalizing p with
  | nil =>
      rw [List.splitOn_nil, List.mem_singleton] at h
      exact h ▸ List.not_mem_nil
  | cons d l ih =>
      rw [List.splitOn_cons_eq_if_modifyHead] at h
      split at h
      · rcases List.mem_cons.mp h with rfl | h
        · exact List.not_mem_nil
        · exact ih h
      · rename_i hd
        cases hs : l.splitOn c with
        | nil => exact absurd hs (List.splitOn_ne_nil c l)
        | cons q qs =>
            rw [hs, List.modifyHead_cons] at h
            rcases List.mem_cons.mp h with rfl | h
            · have hq : c ∉ q := ih (hs ▸ List.mem_cons_self)
              rintro (_ | ⟨_, hc⟩)
              · exact hd (beq_self_eq_true c)
              · exact hq hc
            · exact ih (hs ▸ List.mem_cons_of_mem q h)

theorem not_mem_of_mem_split (h : x ∈ split s c) : c ∉ x.toList := by
  obtain ⟨l, hl, rfl⟩ := List.mem_map.mp h
  rw [String.toList_ofList]
  exact not_mem_splitOn hl

theorem join_concat (hne : parts ≠ []) (x : String) :
    join (parts ++ [x]) c = join parts c ++ String.singleton c ++ x := by
  rw [← String.toList_inj]
  simp only [join, String.toList_ofList, String.toList_append, String.toList_singleton]
  induction parts with
  | nil => exact absurd rfl hne
  | cons y parts ih =>
      cases parts with
      | nil => simp
      | cons z parts =>
          simp only [List.cons_append, List.map_cons, List.intercalate_cons_cons] at ih ⊢
          rw [ih (List.cons_ne_nil z parts)]
          simp

end Split

theorem isWhiteSpace_of_isDigit {c : Char} (h : c.isDigit = true) : isWhiteSpace c = false := by
  have hrange : 48 ≤ c.toNat ∧ c.toNat ≤ 57 := by simpa [Char.isDigit, UInt32.le_iff_toNat_le] using h
  rw [isWhiteSpace, Bool.or_eq_false_iff, Bool.and_eq_false_iff]
  simp only [List.mem_cons, List.not_mem_nil, or_false, decide_eq_false_iff_not]
  omega

section Includes

variable {x y z part : String}

/-- No end of `x` but the empty one agrees with `y` as far as both go. -/
def clashes (x y : String) : Bool :=
  x.toList.tails.all fun q => q = [] ∨ ¬ (q <+: y.toList ∨ y.toList <+: q)

theorem not_comparable_of_clashes (h : clashes x y = true) {q : List Char} (hq : q <:+ x.toList) (hne : q ≠ []) :
    ¬ q <+: y.toList ∧ ¬ y.toList <+: q := by
  have hall := List.all_eq_true.mp h q ((List.mem_tails _ _).mpr hq)
  simpa [hne] using hall

theorem includes_skip (h : clashes x part = true) (y : String) : includes (x ++ y) part = includes y part := by
  rw [includes, includes, String.toList_append, decide_eq_decide, List.infix_append_iff_ne_nil]
  constructor
  · rintro (hx | hy | ⟨p, q, hp, -, hpart, hpx, -⟩)
    · obtain ⟨l, hprefix, hsuffix⟩ := List.infix_iff_prefix_suffix.mp hx
      by_cases hl : l = []
      · subst hl
        rw [List.prefix_nil.mp hprefix]
        exact List.nil_infix
      · exact absurd hprefix (not_comparable_of_clashes h hsuffix hl).2
    · exact hy
    · exact absurd ⟨q, hpart.symm⟩ (not_comparable_of_clashes h hpx hp).1
  · exact fun hy => .inr (.inl hy)

/-- An occurrence of `part` does not run into a text that it clashes with. -/
theorem includes_apart (h : clashes part y = true) (x z : String) :
    includes (x ++ (y ++ z)) part = (includes x part || includes (y ++ z) part) := by
  rw [Bool.eq_iff_iff, Bool.or_eq_true, includes, includes, includes, decide_eq_true_iff, decide_eq_true_iff,
    decide_eq_true_iff, String.toList_append, List.infix_append_iff_ne_nil]
  constructor
  · rintro (hx | hyz | ⟨p, q, -, hq, hpart, -, hqy⟩)
    · exact .inl hx
    · exact .inr hyz
    · have hends : q <:+ part.toList := ⟨p, hpart.symm⟩
      rw [String.toList_append] at hqy
      rcases List.prefix_or_prefix_of_prefix hqy (List.prefix_append y.toList z.toList) with hle | hle
      · exact absurd hle (not_comparable_of_clashes h hends hq).1
      · exact absurd hle (not_comparable_of_clashes h hends hq).2
  · exact fun ho => ho.elim .inl fun hyz => .inr (.inl hyz)

theorem includes_append (x y z : String) : includes (x ++ (y ++ z)) y = true := by
  rw [includes, decide_eq_true_iff]
  simp only [String.toList_append]
  exact List.infix_append' x.toList y.toList z.toList

end Includes

section Trim

variable {s : String}

theorem trim_eq_self (h : ∀ c ∈ s.toList, isWhiteSpace c = false) : trim s = s := by
  have hdrop {l : List Char} (hl : ∀ c ∈ l, isWhiteSpace c = false) : l.dropWhile isWhiteSpace = l := by
    cases l with
    | nil => rfl
    | cons c l => rw [List.dropWhile_cons_of_neg (by simp [hl c List.mem_cons_self])]
  rw [trim, hdrop h, hdrop (fun c hc => h c (List.mem_reverse.mp hc)), List.reverse_reverse,
    String.ofList_toList]

theorem dropWhile_reverse_eq_nil {p : Char → Bool} {l : List Char} :
    (l.reverse.dropWhile p).reverse = [] ↔ ∀ c ∈ l, p c = true := by
  rw [List.reverse_eq_nil_iff, List.dropWhile_eq_nil_iff]
  simp only [List.mem_reverse]

theorem trim_eq_empty : trim s = "" ↔ ∀ c ∈ s.toList, isWhiteSpace c = true := by
  rw [trim, ← String.toList_eq_nil_iff, String.toList_ofList, dropWhile_reverse_eq_nil]
  constructor
  · intro h c hc
    by_contra hne
    have hrest : s.toList.dropWhile isWhiteSpace ≠ [] := by
      intro hnil
      exact hne (List.dropWhile_eq_nil_iff.mp hnil c hc)
    -- the first character that is left is no white space
    have hhead := List.head_dropWhile_not isWhiteSpace hrest
    exact absurd (h _ (List.head_mem hrest)) (by simp [hhead])
  · intro h c hc
    exact h c (List.dropWhile_sublist _ |>.subset hc)

theorem strip_append_replicate (l : List Char) (c : Char) (k : Nat) :
    ((l ++ List.replicate k c).reverse.dropWhile (· = c)).reverse = (l.reverse.dropWhile (· = c)).reverse := by
  rw [List.reverse_append, List.reverse_replicate, List.dropWhile_append, List.dropWhile_replicate]
  simp only [decide_true, if_true, List.isEmpty_nil]

end Trim

theorem exists_fresh (texts : List String) : ∃ text, text ∉ texts := by
  have hinj : Function.Injective fun n => String.ofList (List.replicate n 'x') := by
    intro m n h
    have hlength := congrArg (fun text : String => text.toList.length) h
    simpa using hlength
  have : Infinite String := Infinite.of_injective _ hinj
  obtain ⟨text, htext⟩ := Infinite.exists_notMem_finset texts.toFinset
  exact ⟨text, fun hmem => htext (List.mem_toFinset.mpr hmem)⟩

end EspClawPlatform
