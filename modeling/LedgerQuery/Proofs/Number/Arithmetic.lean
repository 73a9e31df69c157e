import LedgerQuery.Proofs.Number.Rounding

namespace LedgerQuery

open Float.Model UnpackedFloat

namespace Value

def add : Value → Value → Value
  | .finite p, .finite q => .finite (p + q)
  | .posInf, .finite _ | .finite _, .posInf | .posInf, .posInf => .posInf
  | .negInf, .finite _ | .finite _, .negInf | .negInf, .negInf => .negInf
  | _, _ => .nan

def scaled (q : Rat) (infinity : Value) : Value :=
  if q = 0 then .nan else if 0 < q then infinity else infinity.neg

def mul : Value → Value → Value
  | .finite p, .finite q => .finite (p * q)
  | .nan, _ | _, .nan => .nan
  | .finite p, b => scaled p b
  | a, .finite q => scaled q a
  | .posInf, b => b
  | .negInf, b => b.neg

/-- What exact values become in double arithmetic: a finite one is rounded, the others stay. -/
def RoundsTo : Value → Value → Prop
  | .finite v, w => Rounds IsDouble v w
  | a, w => w = a

@[simp]
theorem nan_add (b : Value) : nan.add b = nan := by cases b <;> rfl

@[simp]
theorem add_nan (a : Value) : a.add nan = nan := by cases a <;> rfl

@[simp]
theorem nan_mul (b : Value) : nan.mul b = nan := by cases b <;> rfl

@[simp]
theorem mul_nan (a : Value) : a.mul nan = nan := by cases a <;> rfl

theorem scaled_of_nonneg {q : Rat} (hq : 0 ≤ q) : scaled q .posInf = if q = 0 then .nan else .posInf := by
  rw [scaled]
  by_cases hzero : q = 0
  · rw [if_pos hzero, if_pos hzero]
  · rw [if_neg hzero, if_neg hzero, if_pos (lt_of_le_of_ne hq (Ne.symm hzero))]

theorem posInf_mul_of_nonneg {q : Rat} (hq : 0 ≤ q) : posInf.mul (finite q) = if q = 0 then nan else posInf :=
  scaled_of_nonneg hq

theorem mul_posInf_of_nonneg {q : Rat} (hq : 0 ≤ q) : (finite q).mul posInf = if q = 0 then nan else posInf :=
  scaled_of_nonneg hq

@[simp]
theorem nan_roundsTo {w : Value} : RoundsTo nan w ↔ w = nan := Iff.rfl

@[simp]
theorem posInf_roundsTo {w : Value} : RoundsTo posInf w ↔ w = posInf := Iff.rfl

@[simp]
theorem negInf_roundsTo {w : Value} : RoundsTo negInf w ↔ w = negInf := Iff.rfl

end Value

theorem Number.value_float (x : Float) : (Number.float x).value = unpackedValue x.toModel.unpack := by
  simp only [Number.value, Parts.ofFloat]
  cases x.toModel.unpack with
  | notANumber => rfl
  | infinity s => cases s <;> rfl
  | zero s => cases s <;> rfl
  | finite s m e hm =>
      cases s with
      | positive => exact Parts.value_positive m e
      | negative => simpa [unpackedValue, Sign.apply] using Parts.value_negative m e

theorem canonical_unpack (x : Float.Model) : Canonical x.unpack := by
  cases hx : x.unpack with
  | finite s m e hm =>
      obtain ⟨he, hm', hnormal, -⟩ := unpack_finite hx
      exact ⟨hm', he, hnormal⟩
  | _ => trivial

@[simp]
theorem unpackedValue_zero (s : Sign) : unpackedValue (.zero s) = .finite 0 := rfl

@[simp]
theorem unpackedValue_finite (s : Sign) (m : Nat) (e : Int) (hm : 0 < m) :
    unpackedValue (.finite s m e hm) = .finite ((s.apply m : Int) * 2 ^ e) := rfl

@[simp]
theorem unpackedValue_nan : unpackedValue .notANumber = .nan := rfl

@[simp]
theorem unpackedValue_posInf : unpackedValue (.infinity .positive) = .posInf := rfl

@[simp]
theorem unpackedValue_negInf : unpackedValue (.infinity .negative) = .negInf := rfl

@[simp]
theorem unpackedValue_pack_nan : unpackedValue (Float.Model.pack .notANumber).unpack = .nan := rfl

@[simp]
theorem unpackedValue_pack_infinity (s : Sign) :
    unpackedValue (Float.Model.pack (.infinity s)).unpack = unpackedValue (.infinity s) := by
  cases s <;> rfl

theorem Sign.apply_neg (s : Sign) (n : Int) : (-s).apply n = -s.apply n := by
  cases s with
  | positive => rfl
  | negative => exact (neg_neg n).symm

theorem Sign.mul_comm (s t : Sign) : s * t = t * s := by cases s <;> cases t <;> rfl

theorem Sign.apply_mul (s t : Sign) (m n : Int) : (s * t).apply (m * n) = s.apply m * t.apply n := by
  cases s with
  | positive =>
      cases t with
      | positive => rfl
      | negative => exact (mul_neg m n).symm
  | negative =>
      cases t with
      | positive => exact (neg_mul m n).symm
      | negative => exact (neg_mul_neg m n).symm

theorem unpackedValue_neg (u : UnpackedFloat) : unpackedValue u.neg = (unpackedValue u).neg := by
  cases u with
  | notANumber => rfl
  | infinity s => cases s <;> rfl
  | zero s => rfl
  | finite s m e hm => simp [unpackedValue, UnpackedFloat.neg, Value.neg, Sign.apply_neg]

theorem Canonical.neg {u : UnpackedFloat} (h : Canonical u) : Canonical u.neg := by
  cases u with
  | finite s m e hm => exact h
  | _ => trivial

theorem unpacked_sub_eq (a b : UnpackedFloat) :
    UnpackedFloat.sub Format.binary64 a b = UnpackedFloat.add Format.binary64 a b.neg := by
  cases a with
  | finite s m d hm =>
      cases b with
      | finite t n e hn =>
          simp only [UnpackedFloat.sub, UnpackedFloat.add, UnpackedFloat.neg, Sign.apply_neg, Int.sub_eq_add_neg]
      | _ => rfl
  | _ => cases b <;> rfl

section

variable {a b : UnpackedFloat}

theorem Canonical.rounded {v : Rat} (h : Canonical a) (value : unpackedValue a = .finite v) : Rounded v a := by
  refine ⟨h, ?_⟩
  rw [value]
  exact rounds_self Fits v

theorem add_rounded {s t : Sign} {m n : Nat} {d e : Int} {hm : 0 < m} {hn : 0 < n} :
    Rounded ((s.apply m : Int) * 2 ^ d + (t.apply n : Int) * 2 ^ e)
      (UnpackedFloat.add Format.binary64 (.finite s m d hm) (.finite t n e hn)) := by
  have hadd : UnpackedFloat.add Format.binary64 (.finite s m d hm) (.finite t n e hn) =
      UnpackedFloat.normalize Format.binary64
        (s.apply (m * 2 ^ (d - min d e).toNat : Nat) + t.apply (n * 2 ^ (e - min d e).toNat : Nat))
        (min d e) .positive := by
    simp only [UnpackedFloat.add, decreaseExponent_eq (min_le_left d e), decreaseExponent_eq (min_le_right d e)]
  rw [hadd, ← decreaseExponent_value s m (min_le_left d e), ← decreaseExponent_value t n (min_le_right d e),
    ← add_mul, ← Int.cast_add]
  exact normalize_rounded _ _ _

theorem zero_rounded (s : Sign) : Rounded 0 (.zero s) := Canonical.rounded trivial rfl

theorem add_roundsTo (ha : Canonical a) (hb : Canonical b) :
    ((unpackedValue a).add (unpackedValue b)).RoundsTo
      (unpackedValue (Float.Model.pack (UnpackedFloat.add Format.binary64 a b)).unpack) := by
  cases a with
  | notANumber => simp [UnpackedFloat.add]
  | infinity s =>
      cases b with
      | infinity t => cases s <;> cases t <;> exact rfl
      | _ => cases s <;> simp [Value.add, UnpackedFloat.add]
  | zero s =>
      cases b with
      | notANumber => simp [UnpackedFloat.add]
      | infinity t => cases t <;> simp [Value.add, UnpackedFloat.add]
      | zero t =>
          simp only [unpackedValue_zero, Value.add, Value.RoundsTo, UnpackedFloat.add, add_zero]
          split
          · exact (zero_rounded s).pack
          · exact (zero_rounded .positive).pack
      | finite t n e hn => exact (hb.rounded (by simp [unpackedValue])).pack
  | finite s m d hm =>
      cases b with
      | notANumber => simp [UnpackedFloat.add]
      | infinity t => cases t <;> simp [Value.add, UnpackedFloat.add]
      | zero t => exact (ha.rounded (by simp [unpackedValue])).pack
      | finite t n e hn => exact add_rounded.pack

theorem mul_exponent_le {s t : Sign} {m n : Nat} {d e : Int} {hm : 0 < m} {hn : 0 < n}
    (ha : Canonical (.finite s m d hm)) (hb : Canonical (.finite t n e hn)) :
    d + e ≤ Format.binary64.targetExponent (totalExponent (m * n) (d + e)) := by
  obtain ⟨-, hd, hm'⟩ := ha
  obtain ⟨-, he, hn'⟩ := hb
  rw [targetExponent_eq]
  by_cases hdigits : 2 ^ 52 ≤ m * n
  · have hlog := (Nat.le_log2 (Nat.mul_pos hm hn).ne').mpr hdigits
    omega
  · -- Neither factor has all its digits, so both have the least exponent.
    have hm52 : ¬2 ^ 52 ≤ m := fun h => hdigits (h.trans (Nat.le_mul_of_pos_right m hn))
    have hn52 : ¬2 ^ 52 ≤ n := fun h => hdigits (h.trans (Nat.le_mul_of_pos_left n hm))
    omega

theorem mul_rounded {s t : Sign} {m n : Nat} {d e : Int} {hm : 0 < m} {hn : 0 < n}
    (ha : Canonical (.finite s m d hm)) (hb : Canonical (.finite t n e hn)) :
    Rounded (((s.apply m : Int) * 2 ^ d) * ((t.apply n : Int) * 2 ^ e))
      (UnpackedFloat.mul Format.binary64 (.finite s m d hm) (.finite t n e hn)) := by
  have hrounded := roundWithAccuracy_rounded (s * t) (Nat.mul_pos hm hn) (mul_exponent_le ha hb)
  have hvalue : (((s * t).apply (m * n : Nat) : Int) : Rat) * 2 ^ (d + e) =
      ((s.apply m : Int) * 2 ^ d) * ((t.apply n : Int) * 2 ^ e) := by
    rw [Nat.cast_mul, Sign.apply_mul, zpow_add₀ two_ne_zero]
    push_cast
    ring
  rwa [hvalue] at hrounded

theorem infinity_roundsTo (s : Sign) :
    (unpackedValue (.infinity s)).RoundsTo (unpackedValue (Float.Model.pack (.infinity s)).unpack) := by
  cases s <;> exact rfl

theorem scaled_infinity (s t : Sign) {m : Nat} {e : Int} (hm : 0 < m) :
    Value.scaled ((s.apply m : Int) * 2 ^ e) (unpackedValue (.infinity t)) = unpackedValue (.infinity (s * t)) := by
  have hpos : (0 : Rat) < m * 2 ^ e := by positivity
  cases s with
  | positive =>
      simp only [Sign.apply, Int.cast_natCast, Value.scaled, if_neg hpos.ne', if_pos hpos]
      cases t <;> rfl
  | negative =>
      have hneg : -(m * 2 ^ e) < (0 : Rat) := neg_lt_zero.mpr hpos
      simp only [Sign.apply, Int.cast_neg, Int.cast_natCast, neg_mul, Value.scaled, if_neg hneg.ne,
        if_neg (not_lt.mpr hneg.le)]
      cases t <;> rfl

theorem mul_roundsTo (ha : Canonical a) (hb : Canonical b) :
    ((unpackedValue a).mul (unpackedValue b)).RoundsTo
      (unpackedValue (Float.Model.pack (UnpackedFloat.mul Format.binary64 a b)).unpack) := by
  cases a with
  | notANumber => simp [UnpackedFloat.mul]
  | infinity s =>
      cases b with
      | infinity t => cases s <;> cases t <;> exact rfl
      | notANumber => simp [UnpackedFloat.mul]
      | zero t => cases s <;> simp [Value.mul, Value.scaled, UnpackedFloat.mul]
      | finite t n e hn =>
          have hmul : (unpackedValue (.infinity s)).mul (unpackedValue (.finite t n e hn)) =
              Value.scaled ((t.apply n : Int) * 2 ^ e) (unpackedValue (.infinity s)) := by cases s <;> rfl
          rw [hmul, scaled_infinity t s hn, Sign.mul_comm]
          exact infinity_roundsTo (s * t)
  | zero s =>
      cases b with
      | notANumber => simp [UnpackedFloat.mul]
      | infinity t => cases t <;> simp [Value.mul, Value.scaled, UnpackedFloat.mul]
      | zero t =>
          rw [unpackedValue_zero, unpackedValue_zero, Value.mul, zero_mul]
          exact (zero_rounded (s * t)).pack
      | finite t n e hn =>
          rw [unpackedValue_zero, unpackedValue_finite, Value.mul, zero_mul]
          exact (zero_rounded (s * t)).pack
  | finite s m d hm =>
      cases b with
      | notANumber => simp [UnpackedFloat.mul]
      | infinity t =>
          have hmul : (unpackedValue (.finite s m d hm)).mul (unpackedValue (.infinity t)) =
              Value.scaled ((s.apply m : Int) * 2 ^ d) (unpackedValue (.infinity t)) := by cases t <;> rfl
          rw [hmul, scaled_infinity s t hm]
          exact infinity_roundsTo (s * t)
      | zero t =>
          rw [unpackedValue_zero, unpackedValue_finite, Value.mul, mul_zero]
          exact (zero_rounded (s * t)).pack
      | finite t n e hn => exact (mul_rounded ha hb).pack

end

namespace Number

variable (x y : Float)

theorem float_add : ((Number.float x).value.add (Number.float y).value).RoundsTo (Number.float (x + y)).value := by
  rw [value_float, value_float, value_float]
  exact add_roundsTo (canonical_unpack x.toModel) (canonical_unpack y.toModel)

theorem float_sub :
    ((Number.float x).value.add (Number.float y).value.neg).RoundsTo (Number.float (x - y)).value := by
  have hsub : (x - y).toModel =
      Float.Model.pack (UnpackedFloat.add Format.binary64 x.toModel.unpack y.toModel.unpack.neg) :=
    congrArg Float.Model.pack (unpacked_sub_eq _ _)
  rw [value_float, value_float, value_float, hsub, ← unpackedValue_neg]
  exact add_roundsTo (canonical_unpack x.toModel) (canonical_unpack y.toModel).neg

theorem float_mul : ((Number.float x).value.mul (Number.float y).value).RoundsTo (Number.float (x * y)).value := by
  rw [value_float, value_float, value_float]
  exact mul_roundsTo (canonical_unpack x.toModel) (canonical_unpack y.toModel)

variable {x y} {p q : Rat}

theorem isDouble_of_value (hx : (Number.float x).value = .finite p) : IsDouble p := by
  rw [value_float] at hx
  cases hunpack : x.toModel.unpack with
  | notANumber =>
      rw [hunpack] at hx
      cases hx
  | infinity s =>
      rw [hunpack] at hx
      cases s <;> cases hx
  | zero s =>
      rw [hunpack] at hx
      cases hx
      exact isDouble_zero
  | finite s m e hm =>
      obtain ⟨he, hm', -, he'⟩ := unpack_finite hunpack
      rw [hunpack] at hx
      cases hx
      have hdigits : |s.apply m| < 2 ^ 53 := by
        cases s <;> simp only [Sign.apply, abs_neg, Nat.abs_cast] <;> exact_mod_cast hm'
      refine ⟨⟨s.apply m, e, rfl, hdigits, he⟩, ?_⟩
      have hdigits' : |((s.apply m : Int) : Rat)| < 2 ^ 53 := by exact_mod_cast hdigits
      have hscale : (2 : Rat) ^ e ≤ 2 ^ ((971 : Nat) : Int) := zpow_le_zpow_right₀ one_le_two (by omega)
      rw [zpow_natCast] at hscale
      rw [abs_mul, abs_of_pos (by positivity : (0 : Rat) < 2 ^ e)]
      calc |((s.apply m : Int) : Rat)| * 2 ^ e < 2 ^ 53 * 2 ^ e := mul_lt_mul_of_pos_right hdigits' (by positivity)
        _ ≤ 2 ^ 53 * 2 ^ 971 := mul_le_mul_of_nonneg_left hscale (by positivity)
        _ = 2 ^ 1024 := by rw [← pow_add]

theorem float_add_finite (hx : (Number.float x).value = .finite p) (hy : (Number.float y).value = .finite q) :
    Rounds IsDouble (p + q) (Number.float (x + y)).value := by
  have hadd := float_add x y
  rwa [hx, hy] at hadd

theorem float_sub_finite (hx : (Number.float x).value = .finite p) (hy : (Number.float y).value = .finite q) :
    Rounds IsDouble (p - q) (Number.float (x - y)).value := by
  have hsub := float_sub x y
  rw [hx, hy] at hsub
  rwa [sub_eq_add_neg]

theorem float_mul_finite (hx : (Number.float x).value = .finite p) (hy : (Number.float y).value = .finite q) :
    Rounds IsDouble (p * q) (Number.float (x * y)).value := by
  have hmul := float_mul x y
  rwa [hx, hy] at hmul

end Number

end LedgerQuery
