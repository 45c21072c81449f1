import EspClawPlatform.Lib.Text
import Mathlib.Data.BitVec
import Mathlib.Tactic.Common

namespace EspClawPlatform

def ipv4 (a b c d : Nat) : BitVec 32 := BitVec.ofNat 32 (a * 2 ^ 24 + b * 2 ^ 16 + c * 2 ^ 8 + d)

def octets (v : BitVec 32) : List Nat :=
  [v.toNat / 2 ^ 24, v.toNat / 2 ^ 16 % 2 ^ 8, v.toNat / 2 ^ 8 % 2 ^ 8, v.toNat % 2 ^ 8]

def dotted (v : BitVec 32) : String := join ((octets v).map toString) '.'

/-- The addresses that begin with the first `length` bits of `net`. -/
structure Block where
  net : BitVec 32
  length : Nat
  deriving DecidableEq

instance : Membership (BitVec 32) Block where
  mem b v := v.toNat / 2 ^ (32 - b.length) = b.net.toNat / 2 ^ (32 - b.length)

instance (v : BitVec 32) (b : Block) : Decidable (v ∈ b) :=
  inferInstanceAs (Decidable (v.toNat / 2 ^ (32 - b.length) = b.net.toNat / 2 ^ (32 - b.length)))

variable {v w : BitVec 32}

theorem mem_block {net : BitVec 32} {length : Nat} :
    v ∈ Block.mk net length ↔ v.toNat / 2 ^ (32 - length) = net.toNat / 2 ^ (32 - length) := Iff.rfl

theorem lt_of_mem_octets {n : Nat} (h : n ∈ octets v) : n < 2 ^ 8 := by
  have hv := v.isLt
  simp only [octets, List.mem_cons, List.not_mem_nil, or_false] at h
  omega

theorem octets_injective (h : octets v = octets w) : v = w := by
  simp only [octets, List.cons.injEq, and_true] at h
  apply BitVec.eq_of_toNat_eq
  omega

theorem split_dotted (v : BitVec 32) : split (dotted v) '.' = (octets v).map toString := by
  refine split_join ?_ (by simp [octets])
  intro x hx hdot
  obtain ⟨n, -, rfl⟩ := List.mem_map.mp hx
  have hdigit := Nat.isDigit_of_mem_toDigits (by decide) (by decide) (Nat.toList_repr ▸ hdot)
  cases hdigit

theorem dotted_injective (h : dotted v = dotted w) : v = w := by
  have hsplit := congrArg (split · '.') h
  simp only [split_dotted] at hsplit
  apply octets_injective
  have hinj : Function.Injective (toString : Nat → String) := fun m n hmn => by
    have hnum := congrArg numberOf hmn
    rw [numberOf_toString, numberOf_toString] at hnum
    exact Option.some.inj hnum
  exact List.map_injective_iff.mpr hinj hsplit

theorem length_toString_le {n : Nat} (h : n < 2 ^ 8) : (toString n).toList.length ≤ 3 := by
  have htext : (toString n).toList = Nat.toDigits 10 n := Nat.toList_repr
  rw [htext, Nat.length_toDigits_le_iff (by decide) (by decide)]
  omega

end EspClawPlatform
