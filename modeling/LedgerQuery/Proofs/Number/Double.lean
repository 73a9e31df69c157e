import LedgerQuery.Proofs.Number.Order
import Mathlib.Algebra.Order.Field.Power
import Mathlib.Tactic.Positivity
import Mathlib.Tactic.Ring

namespace LedgerQuery

open Float.Model UnpackedFloat

theorem fields_finite {mantissa : BitVec 52} {exponent : BitVec 11} {sign s : Sign} {m : Nat} {e : Int} {hm : 0 < m}
    {positive : ¬mantissa = 0#52 → 0 < mantissa.toNat} {normal : 0 < (1#1 ++ mantissa).toNat}
    (hx : (if exponent = -1#11 then if mantissa = 0#52 then infinity sign else notANumber
      else if exponent = 0#11 then
        if h : mantissa = 0#52 then zero sign
        else finite sign mantissa.toNat (exponent.toNat - 1075 + 1) (positive h)
      else finite sign (1#1 ++ mantissa).toNat (exponent.toNat - 1075) normal) = finite s m e hm) :
    -1074 ≤ e ∧ m < 2 ^ 53 ∧ (e = -1074 ∨ 2 ^ 52 ≤ m) ∧ e ≤ 971 := by
  have hmant := mantissa.isLt
  by_cases hspecial : exponent = -1#11
  · rw [if_pos hspecial] at hx
    by_cases hzero : mantissa = 0#52
    · rw [if_pos hzero] at hx
      cases hx
    · rw [if_neg hzero] at hx
      cases hx
  · rw [if_neg hspecial] at hx
    by_cases hexp : exponent = 0#11
    · rw [if_pos hexp] at hx
      by_cases hzero : mantissa = 0#52
      · rw [dif_pos hzero] at hx
        cases hx
      · rw [dif_neg hzero] at hx
        injection hx with hs hm he
        rw [hexp] at he
        subst hm
        simp at he
        omega
    · rw [if_neg hexp] at hx
      injection hx with hs hm he
      rw [BitVec.toNat_append, ← Nat.shiftLeft_add_eq_or_of_lt hmant, Nat.shiftLeft_eq] at hm
      have hpos : exponent.toNat ≠ 0 := fun hzero => hexp (BitVec.eq_of_toNat_eq hzero)
      have htop : exponent.toNat ≠ 2047 := fun hfull => hspecial (BitVec.eq_of_toNat_eq hfull)
      have hbits := exponent.isLt
      simp at hm
      omega

theorem unpack_finite {x : Float.Model} {s : Sign} {m : Nat} {e : Int} {hm : 0 < m}
    (hx : x.unpack = .finite s m e hm) : -1074 ≤ e ∧ m < 2 ^ 53 ∧ (e = -1074 ∨ 2 ^ 52 ≤ m) ∧ e ≤ 971 :=
  fields_finite hx

theorem dyadic_eq (m e : Int) : dyadic m e = (m : Rat) * 2 ^ e := by
  by_cases he : 0 ≤ e
  · obtain ⟨n, rfl⟩ := Int.eq_ofNat_of_zero_le he
    simp [dyadic]
  · obtain ⟨n, hn⟩ := Int.eq_ofNat_of_zero_le (a := -e) (by omega)
    obtain rfl : e = -n := by omega
    rw [dyadic, if_neg he, Rat.mkRat_eq_div]
    simp [div_eq_mul_inv]

theorem scaled_lt_of_exponent_lt {m n : Nat} {d e : Int} (hm : m < 2 ^ 53) (hn : 2 ^ 52 ≤ n) (hde : d < e) :
    (m : Rat) * 2 ^ d < n * 2 ^ e := by
  have hscale : (2 : Rat) * 2 ^ d ≤ 2 ^ e := by
    rw [mul_comm, ← zpow_add_one₀ two_ne_zero]
    exact zpow_le_zpow_right₀ one_le_two (by omega)
  have hpos : (0 : Rat) < 2 ^ d := by positivity
  calc (m : Rat) * 2 ^ d < 2 ^ 53 * 2 ^ d := by
        apply mul_lt_mul_of_pos_right _ hpos
        exact_mod_cast hm
    _ = 2 ^ 52 * (2 * 2 ^ d) := by ring
    _ ≤ n * 2 ^ e := by
        apply mul_le_mul _ hscale (by positivity) (by positivity)
        exact_mod_cast hn

theorem compare_scaled {m n : Nat} {d e : Int} (hm : m < 2 ^ 53) (hn : n < 2 ^ 53)
    (hd : -1074 ≤ d) (he : -1074 ≤ e) (hm' : d = -1074 ∨ 2 ^ 52 ≤ m) (hn' : e = -1074 ∨ 2 ^ 52 ≤ n) :
    compare ((m : Rat) * 2 ^ d) (n * 2 ^ e) = (compare d e).then (compare m n) := by
  rcases lt_trichotomy d e with hlt | rfl | hgt
  · have hless := scaled_lt_of_exponent_lt hm (by omega : 2 ^ 52 ≤ n) hlt
    rw [compare_lt_iff_lt.mpr hless, compare_lt_iff_lt.mpr hlt]
    rfl
  · have hpos : (0 : Rat) < 2 ^ d := by positivity
    rw [compare_eq_iff_eq.mpr (rfl : d = d)]
    rcases lt_trichotomy m n with hlt | rfl | hgt
    · have hless : (m : Rat) * 2 ^ d < n * 2 ^ d := mul_lt_mul_of_pos_right (by exact_mod_cast hlt) hpos
      rw [compare_lt_iff_lt.mpr hless, compare_lt_iff_lt.mpr hlt]
      rfl
    · rw [compare_eq_iff_eq.mpr rfl, compare_eq_iff_eq.mpr rfl]
      rfl
    · have hmore : (n : Rat) * 2 ^ d < m * 2 ^ d := mul_lt_mul_of_pos_right (by exact_mod_cast hgt) hpos
      rw [compare_gt_iff_gt.mpr hmore, compare_gt_iff_gt.mpr hgt]
      rfl
  · have hmore := scaled_lt_of_exponent_lt hn (by omega : 2 ^ 52 ≤ m) hgt
    rw [compare_gt_iff_gt.mpr hmore, compare_gt_iff_gt.mpr hgt]
    rfl

theorem Value.compare?_finite (p q : Rat) : (Value.finite p).compare? (.finite q) = some (compare p q) := by
  rw [LinearOrder.compare_eq_compareOfLessAndEq]
  rfl

theorem Parts.value_positive (m : Nat) (e : Int) : (Parts.finite false m e).value = .finite (m * 2 ^ e) := by
  simp [Parts.value, dyadic_eq]

theorem Parts.value_negative (m : Nat) (e : Int) : (Parts.finite true m e).value = .finite (-(m * 2 ^ e)) := by
  simp [Parts.value, dyadic_eq]

theorem Parts.value_zero (negative : Bool) : (Parts.finite negative 0 0).value = .finite 0 := by
  cases negative <;> rfl

theorem compare_neg_neg (p q : Rat) : compare (-p) (-q) = (compare p q).swap := by
  rcases lt_trichotomy p q with hlt | rfl | hgt
  · rw [compare_lt_iff_lt.mpr hlt, compare_gt_iff_gt.mpr (neg_lt_neg hlt)]
    rfl
  · rw [compare_eq_iff_eq.mpr rfl, compare_eq_iff_eq.mpr rfl]
    rfl
  · rw [compare_gt_iff_gt.mpr hgt, compare_lt_iff_lt.mpr (neg_lt_neg hgt)]
    rfl

theorem Number.compare?_float (x y : Float) :
    (Number.float x).compare? (.float y) = x.toModel.unpack.compare y.toModel.unpack := by
  simp only [Number.compare?, Number.value, Parts.ofFloat]
  cases hx : x.toModel.unpack with
  | notANumber => rfl
  | infinity s =>
      cases y.toModel.unpack with
      | notANumber => cases s <;> rfl
      | infinity t => cases s <;> cases t <;> rfl
      | zero t => cases s <;> rfl
      | finite t n e hn => cases s <;> rfl
  | zero s =>
      cases hy : y.toModel.unpack with
      | notANumber => rfl
      | infinity t => cases t <;> rfl
      | zero t =>
          rw [Parts.value_zero, Parts.value_zero, Value.compare?_finite]
          rfl
      | finite t n e hn =>
          have hpos : (0 : Rat) < n * 2 ^ e := by positivity
          cases t with
          | positive =>
              rw [Parts.value_zero, Parts.value_positive, Value.compare?_finite, compare_lt_iff_lt.mpr hpos]
              rfl
          | negative =>
              rw [Parts.value_zero, Parts.value_negative, Value.compare?_finite]
              rw [compare_gt_iff_gt.mpr (neg_lt_zero.mpr hpos)]
              rfl
  | finite s m d hm =>
      have hpos : (0 : Rat) < m * 2 ^ d := by positivity
      cases hy : y.toModel.unpack with
      | notANumber => cases s <;> rfl
      | infinity t => cases s <;> cases t <;> rfl
      | zero t =>
          cases s with
          | positive =>
              rw [Parts.value_zero, Parts.value_positive, Value.compare?_finite, compare_gt_iff_gt.mpr hpos]
              rfl
          | negative =>
              rw [Parts.value_zero, Parts.value_negative, Value.compare?_finite]
              rw [compare_lt_iff_lt.mpr (neg_lt_zero.mpr hpos)]
              rfl
      | finite t n e hn =>
          have hpos' : (0 : Rat) < n * 2 ^ e := by positivity
          obtain ⟨hd, hm₁, hm₂, -⟩ := unpack_finite hx
          obtain ⟨he, hn₁, hn₂, -⟩ := unpack_finite hy
          have hscaled := compare_scaled hm₁ hn₁ hd he hm₂ hn₂
          cases s with
          | positive =>
              cases t with
              | positive =>
                  rw [Parts.value_positive, Parts.value_positive, Value.compare?_finite, hscaled]
                  rfl
              | negative =>
                  rw [Parts.value_positive, Parts.value_negative, Value.compare?_finite]
                  rw [compare_gt_iff_gt.mpr ((neg_lt_zero.mpr hpos').trans hpos)]
                  rfl
          | negative =>
              cases t with
              | positive =>
                  rw [Parts.value_positive, Parts.value_negative, Value.compare?_finite]
                  rw [compare_lt_iff_lt.mpr ((neg_lt_zero.mpr hpos).trans hpos')]
                  rfl
              | negative =>
                  rw [Parts.value_negative, Parts.value_negative, Value.compare?_finite]
                  rw [compare_neg_neg, hscaled]
                  rfl

theorem Number.float_le_float {x y : Float} : Number.float x ≤ .float y ↔ x ≤ y := by
  have hle : x ≤ y ↔ (x.toModel.unpack.compare y.toModel.unpack).any (·.isLE) = true := by
    change decide (x.toModel ≤ y.toModel) = true ↔ _
    rw [decide_eq_true_eq]
    rfl
  have hcompare : Number.float x ≤ .float y ↔
      (Number.float x).compare? (.float y) = some .lt ∨ (Number.float x).compare? (.float y) = some .eq := Iff.rfl
  rw [hle, hcompare, Number.compare?_float]
  rcases x.toModel.unpack.compare y.toModel.unpack with _ | _ | _ | _ <;> simp

theorem Number.value_zero : (Number.float 0).value = (Number.int 0).value := by decide +kernel

theorem Number.value_one : (Number.float 1).value = (Number.int 1).value := by decide +kernel

theorem Number.zero_le_float {x : Float} : Number.int 0 ≤ .float x ↔ 0 ≤ x := by
  rw [← float_le_float, le_iff, le_iff, value_zero]

theorem Number.one_le_float {x : Float} : Number.int 1 ≤ .float x ↔ 1 ≤ x := by
  rw [← float_le_float, le_iff, le_iff, value_one]

theorem Number.float_le_one {x : Float} : Number.float x ≤ .int 1 ↔ x ≤ 1 := by
  rw [← float_le_float, le_iff, le_iff, value_one]

end LedgerQuery
