import Mathlib.Data.List.Basic

namespace EspClawPlatform

def utf8Encode (cs : List Char) : List UInt8 := cs.flatMap String.utf8EncodeChar

def followsLead (lead second : UInt8) : Bool :=
  if lead = 0xE0 then 0xA0 ≤ second && second ≤ 0xBF
  else if lead = 0xED then 0x80 ≤ second && second ≤ 0x9F
  else if lead = 0xF0 then 0x90 ≤ second && second ≤ 0xBF
  else if lead = 0xF4 then 0x80 ≤ second && second ≤ 0x8F
  else 0x80 ≤ second && second ≤ 0xBF

/-- How much of a byte string that begins with no character stands for one
replacement character: the longest beginning of a character, at least one byte. -/
def malformedLength : List UInt8 → Nat
  | lead :: second :: rest =>
      if 0xE0 ≤ lead && lead ≤ 0xF4 && followsLead lead second then
        if 0xF0 ≤ lead && rest.head?.any (fun third => 0x80 ≤ third && third ≤ 0xBF) then 3 else 2
      else 1
  | _ => 1

def REPLACEMENT : Char := Char.ofNat 0xFFFD

/-- Characters of a byte string, of which at most the given number is read. -/
def utf8Decode : Nat → List UInt8 → List Char
  | 0, _ | _, [] => []
  | n + 1, b :: bs =>
      match (b :: bs).toByteArray.utf8DecodeChar? 0 with
      | some c => c :: utf8Decode n ((b :: bs).drop c.utf8Size)
      | none => REPLACEMENT :: utf8Decode n ((b :: bs).drop (malformedLength (b :: bs)))

theorem utf8Encode_cons (c : Char) (cs : List Char) :
    utf8Encode (c :: cs) = String.utf8EncodeChar c ++ utf8Encode cs :=
  List.flatMap_cons

theorem length_utf8Encode_le (cs : List Char) : cs.length ≤ (utf8Encode cs).length := by
  induction cs with
  | nil => exact Nat.le_refl _
  | cons c cs ih =>
      have hc := c.utf8Size_pos
      rw [utf8Encode_cons, List.length_append, String.length_utf8EncodeChar, List.length_cons]
      omega

theorem utf8Decode_encode {n : Nat} {cs : List Char} (h : cs.length ≤ n) :
    utf8Decode n (utf8Encode cs) = cs := by
  induction cs generalizing n with
  | nil => cases n <;> rfl
  | cons c cs ih =>
      cases n with
      | zero => cases h
      | succ n =>
          have hlen := String.length_utf8EncodeChar c
          have hpos := c.utf8Size_pos
          have hfirst : (utf8Encode (c :: cs)).toByteArray.utf8DecodeChar? 0 = some c := by
            rw [utf8Encode_cons, List.toByteArray_append]
            exact ByteArray.utf8DecodeChar?_utf8EncodeChar_append
          have hrest : (utf8Encode (c :: cs)).drop c.utf8Size = utf8Encode cs := by
            rw [utf8Encode_cons, ← hlen, List.drop_left]
          cases hbytes : utf8Encode (c :: cs) with
          | nil =>
              have hnil := congrArg List.length hbytes
              rw [utf8Encode_cons, List.length_append, hlen, List.length_nil] at hnil
              omega
          | cons b bs =>
              rw [hbytes] at hfirst hrest
              rw [utf8Decode, hfirst]
              exact congrArg (c :: ·) (by rw [hrest]; exact ih (Nat.le_of_succ_le_succ h))

end EspClawPlatform
