import EspClawPlatform.Events

namespace EspClawPlatform.Context

inductive HeaderValue
  | one (value : String)
  | many (values : List String)
  deriving DecidableEq

def firstValue : Option HeaderValue → Option String
  | none => none
  | some (.one value) => some value
  | some (.many values) => values.head?

def isTokenChar (c : Char) : Bool := c.isAlphanum || c = '.' || c = '_' || c = '-'

def isCorrelationId (text : String) : Bool :=
  text.toList.all isTokenChar && 1 ≤ text.toList.length && text.toList.length ≤ 128

def isHexChar (c : Char) : Bool := c.isDigit || 'a' ≤ c && c ≤ 'f'

/-- `[0-9a-f]{n}` at the start of a text: what it matches, and the rest. -/
def takeHex (n : Nat) (cs : List Char) : Option (List Char × List Char) :=
  if (cs.take n).length = n ∧ (cs.take n).all isHexChar then some (cs.take n, cs.drop n) else none

def takeDash : List Char → Option (List Char)
  | [] => none
  | c :: cs => if c = '-' then some cs else none

/-- The two groups of `TRACEPARENT_PATTERN.exec`, if it matches. -/
def execTraceparent (text : String) : Option (String × String) := do
  let version ← takeHex 2 text.toList
  let trace ← (takeDash version.2).bind (takeHex 32)
  let parent ← (takeDash trace.2).bind (takeHex 16)
  let flags ← (takeDash parent.2).bind (takeHex 2)
  if flags.2 = [] then some (String.ofList trace.1, String.ofList parent.1) else none

/-- `fresh` is the UUID that the call may draw. A header that is there but empty
does not match either. -/
def contextFromHeaders (headers : Table (String × HeaderValue)) (fresh : String) : RequestContext :=
  let trace := execTraceparent ((firstValue (headers.get "traceparent")).getD "")
  { correlationId := ((firstValue (headers.get "x-correlation-id")).filter isCorrelationId).getD fresh
    traceId := trace.map Prod.fst
    spanId := trace.map Prod.snd }

def Hexadecimal (n : Nat) (text : String) : Prop := text.toList.length = n ∧ text.toList.all isHexChar = true

variable {headers : Table (String × HeaderValue)} {fresh : String}

theorem takeHex_eq_some {n : Nat} {cs xs rest : List Char} :
    takeHex n cs = some (xs, rest) ↔ cs = xs ++ rest ∧ xs.length = n ∧ xs.all isHexChar = true := by
  rw [takeHex]
  constructor
  · intro h
    split at h <;> cases h
    rename_i hx
    exact ⟨(List.take_append_drop n cs).symm, hx⟩
  · rintro ⟨rfl, rfl, hx⟩
    rw [List.take_left, List.drop_left, if_pos ⟨rfl, hx⟩]

theorem takeDash_eq_some {cs rest : List Char} : takeDash cs = some rest ↔ cs = '-' :: rest := by
  cases cs with
  | nil => simp [takeDash]
  | cons c cs =>
      rw [takeDash]
      by_cases hc : c = '-' <;> simp [hc]

/-- A `traceparent` header is taken exactly when it is four groups of digits. -/
theorem execTraceparent_eq_some {text trace parent : String} : execTraceparent text = some (trace, parent) ↔
    ∃ version flags, Hexadecimal 2 version ∧ Hexadecimal 32 trace ∧ Hexadecimal 16 parent ∧ Hexadecimal 2 flags ∧
      text = version ++ "-" ++ trace ++ "-" ++ parent ++ "-" ++ flags := by
  rw [execTraceparent]
  constructor
  · intro h
    obtain ⟨⟨version, rest₁⟩, h₁, h⟩ := Option.bind_eq_some_iff.mp h
    obtain ⟨⟨trace', rest₂⟩, h₂, h⟩ := Option.bind_eq_some_iff.mp h
    obtain ⟨⟨parent', rest₃⟩, h₃, h⟩ := Option.bind_eq_some_iff.mp h
    obtain ⟨⟨flags, rest₄⟩, h₄, h⟩ := Option.bind_eq_some_iff.mp h
    obtain ⟨cs₁, hd₁, h₂⟩ := Option.bind_eq_some_iff.mp h₂
    obtain ⟨cs₂, hd₂, h₃⟩ := Option.bind_eq_some_iff.mp h₃
    obtain ⟨cs₃, hd₃, h₄⟩ := Option.bind_eq_some_iff.mp h₄
    obtain ⟨htext, hversion⟩ := takeHex_eq_some.mp h₁
    obtain ⟨rfl, htrace⟩ := takeHex_eq_some.mp h₂
    obtain ⟨rfl, hparent⟩ := takeHex_eq_some.mp h₃
    obtain ⟨rfl, hflags⟩ := takeHex_eq_some.mp h₄
    rw [takeDash_eq_some] at hd₁ hd₂ hd₃
    split at h
    · rename_i hend
      cases h
      refine ⟨String.ofList version, String.ofList flags, ?_, ?_, ?_, ?_, ?_⟩
      · rwa [Hexadecimal, String.toList_ofList]
      · rwa [Hexadecimal, String.toList_ofList]
      · rwa [Hexadecimal, String.toList_ofList]
      · rwa [Hexadecimal, String.toList_ofList]
      · apply String.toList_injective
        simp only at hd₁ hd₂ hd₃ hend
        simp [htext, hd₁, hd₂, hd₃, hend]
    · cases h
  · rintro ⟨version, flags, hversion, htrace, hparent, hflags, rfl⟩
    have htext : (version ++ "-" ++ trace ++ "-" ++ parent ++ "-" ++ flags).toList = version.toList ++
        '-' :: (trace.toList ++ '-' :: (parent.toList ++ '-' :: (flags.toList ++ []))) := by simp
    have h₁ := takeHex_eq_some.mpr ⟨htext, hversion⟩
    have h₂ {rest : List Char} : takeHex 32 (trace.toList ++ rest) = _ := takeHex_eq_some.mpr ⟨rfl, htrace⟩
    have h₃ {rest : List Char} : takeHex 16 (parent.toList ++ rest) = _ := takeHex_eq_some.mpr ⟨rfl, hparent⟩
    have h₄ {rest : List Char} : takeHex 2 (flags.toList ++ rest) = _ := takeHex_eq_some.mpr ⟨rfl, hflags⟩
    have hdash (cs : List Char) : takeDash ('-' :: cs) = some cs := takeDash_eq_some.mpr rfl
    simp only [h₁, h₂, h₃, h₄, hdash, Option.bind_eq_bind, Option.bind_some, if_true, String.ofList_toList]

theorem isCorrelationId_context (hfresh : isCorrelationId fresh = true) :
    isCorrelationId (contextFromHeaders headers fresh).correlationId = true := by
  rw [contextFromHeaders]
  cases hraw : (firstValue (headers.get "x-correlation-id")).filter isCorrelationId with
  | none => exact hfresh
  | some raw => exact (Option.filter_eq_some_iff.mp hraw).2

theorem hexadecimal_trace {trace : String} (h : (contextFromHeaders headers fresh).traceId = some trace) :
    Hexadecimal 32 trace := by
  obtain ⟨⟨trace', parent⟩, hexec, rfl⟩ := Option.map_eq_some_iff.mp h
  obtain ⟨_, _, -, htrace, -⟩ := execTraceparent_eq_some.mp hexec
  exact htrace

theorem hexadecimal_span {parent : String} (h : (contextFromHeaders headers fresh).spanId = some parent) :
    Hexadecimal 16 parent := by
  obtain ⟨⟨trace, parent'⟩, hexec, rfl⟩ := Option.map_eq_some_iff.mp h
  obtain ⟨_, _, -, -, hparent, -⟩ := execTraceparent_eq_some.mp hexec
  exact hparent

end EspClawPlatform.Context
