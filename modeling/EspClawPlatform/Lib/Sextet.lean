import Mathlib.Data.List.Basic

namespace EspClawPlatform

/-- A byte string cut into groups of six bits, the last one filled up with zeros. -/
def sextets : List UInt8 → List Nat
  | [] => []
  | [a] => [a.toNat / 4, a.toNat % 4 * 16]
  | [a, b] => [a.toNat / 4, a.toNat % 4 * 16 + b.toNat / 16, b.toNat % 16 * 4]
  | a :: b :: c :: rest =>
      a.toNat / 4 :: (a.toNat % 4 * 16 + b.toNat / 16) :: (b.toNat % 16 * 4 + c.toNat / 64) :: c.toNat % 64 ::
        sextets rest

/-- The whole bytes in a list of groups of six bits; what is left over is dropped. -/
def unsextets : List Nat → List UInt8
  | w :: x :: y :: z :: rest =>
      UInt8.ofNat (w * 4 + x / 16) :: UInt8.ofNat (x % 16 * 16 + y / 4) :: UInt8.ofNat (y % 4 * 64 + z) ::
        unsextets rest
  | [w, x, y] => [UInt8.ofNat (w * 4 + x / 16), UInt8.ofNat (x % 16 * 16 + y / 4)]
  | [w, x] => [UInt8.ofNat (w * 4 + x / 16)]
  | [_] | [] => []

theorem ofNat_eq_of_eq {n : Nat} {b : UInt8} (h : n = b.toNat) : UInt8.ofNat n = b := by
  rw [h, UInt8.ofNat_toNat]

theorem unsextets_sextets (bytes : List UInt8) : unsextets (sextets bytes) = bytes := by
  induction bytes using sextets.induct with
  | case1 => rfl
  | case2 a =>
      have ha := a.toNat_lt
      rw [sextets, unsextets, ofNat_eq_of_eq (b := a) (by omega)]
  | case3 a b =>
      have ha := a.toNat_lt
      have hb := b.toNat_lt
      rw [sextets, unsextets, ofNat_eq_of_eq (b := a) (by omega), ofNat_eq_of_eq (b := b) (by omega)]
  | case4 a b c rest ih =>
      have ha := a.toNat_lt
      have hb := b.toNat_lt
      have hc := c.toNat_lt
      rw [sextets, unsextets, ofNat_eq_of_eq (b := a) (by omega), ofNat_eq_of_eq (b := b) (by omega),
        ofNat_eq_of_eq (b := c) (by omega), ih]

theorem sextets_lt (bytes : List UInt8) : ∀ n ∈ sextets bytes, n < 64 := by
  induction bytes using sextets.induct with
  | case1 => simp [sextets]
  | case2 a =>
      have ha := a.toNat_lt
      simp only [sextets, List.forall_mem_cons, List.not_mem_nil, false_imp_iff, implies_true, and_true]
      omega
  | case3 a b =>
      have ha := a.toNat_lt
      have hb := b.toNat_lt
      simp only [sextets, List.forall_mem_cons, List.not_mem_nil, false_imp_iff, implies_true, and_true]
      omega
  | case4 a b c rest ih =>
      have ha := a.toNat_lt
      have hb := b.toNat_lt
      have hc := c.toNat_lt
      simp only [sextets, List.forall_mem_cons]
      exact ⟨by omega, by omega, by omega, by omega, ih⟩

theorem sextets_append {xs : List UInt8} (h : xs.length % 3 = 0) (ys : List UInt8) :
    sextets (xs ++ ys) = sextets xs ++ sextets ys := by
  induction xs using sextets.induct with
  | case1 => rfl
  | case2 a => simp at h
  | case3 a b => simp at h
  | case4 a b c rest ih =>
      simp only [List.length_cons] at h
      simp only [List.cons_append, sextets, ih (by omega)]

theorem unsextets_append {xs : List Nat} (h : xs.length % 4 = 0) (ys : List Nat) :
    unsextets (xs ++ ys) = unsextets xs ++ unsextets ys := by
  induction xs using unsextets.induct with
  | case1 w x y z rest ih =>
      simp only [List.length_cons] at h
      simp only [List.cons_append, unsextets, ih (by omega)]
  | case2 | case3 | case4 => simp at h
  | case5 => rfl

theorem length_sextets (bytes : List UInt8) : (sextets bytes).length = (bytes.length * 4 + 2) / 3 := by
  induction bytes using sextets.induct with
  | case1 | case2 | case3 => simp [sextets]
  | case4 a b c rest ih =>
      simp only [sextets, List.length_cons, ih]
      omega

theorem length_unsextets (groups : List Nat) : (unsextets groups).length = groups.length * 3 / 4 := by
  induction groups using unsextets.induct with
  | case1 w x y z rest ih =>
      simp only [unsextets, List.length_cons, ih]
      omega
  | case2 | case3 | case4 | case5 => simp [unsextets]

end EspClawPlatform
