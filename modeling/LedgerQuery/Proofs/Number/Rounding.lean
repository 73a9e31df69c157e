import LedgerQuery.Proofs.Number.Double
import Mathlib

namespace LedgerQuery

open Float.Model UnpackedFloat

/-- A number with 53 binary digits, the last of them not below the last that a double can have. -/
def Fits (q : Rat) : Prop := ∃ n d : Int, q = n * 2 ^ d ∧ |n| < 2 ^ 53 ∧ -1074 ≤ d

def IsDouble (q : Rat) : Prop := Fits q ∧ |q| < 2 ^ 1024

/-- What an exact value is rounded to, if just the numbers of some kind can be had. -/
structure Rounds (P : Rat → Prop) (v : Rat) (w : Value) : Prop where
  below : ∀ q, P q → q ≤ v → (Value.finite q).AtMost w
  above : ∀ q, P q → v ≤ q → w.AtMost (.finite q)

def Value.neg : Value → Value
  | .nan => .nan
  | .negInf => .posInf
  | .finite q => .finite (-q)
  | .posInf => .negInf

section

variable {q : Rat}

theorem Fits.neg (h : Fits q) : Fits (-q) := by
  obtain ⟨n, d, rfl, hn, hd⟩ := h
  exact ⟨-n, d, by push_cast; ring, by rwa [abs_neg], hd⟩

theorem isDouble_zero : IsDouble 0 := ⟨⟨0, 0, by simp, by simp, by omega⟩, by simp⟩

theorem Value.neg_atMost_neg {a b : Value} : a.neg.AtMost b.neg ↔ b.AtMost a := by
  cases a <;> cases b <;> simp [Value.neg]

theorem Rounds.neg {P : Rat → Prop} (hP : ∀ q, P q → P (-q)) {v : Rat} {w : Value} (h : Rounds P v w) :
    Rounds P (-v) w.neg where
  below q hq hle := by
    rw [← neg_neg q]
    exact Value.neg_atMost_neg.mpr (h.above (-q) (hP q hq) (le_neg_of_le_neg hle))
  above q hq hle := by
    rw [← neg_neg q]
    exact Value.neg_atMost_neg.mpr (h.below (-q) (hP q hq) (neg_le_of_neg_le hle))

theorem rounds_self (P : Rat → Prop) (v : Rat) : Rounds P v (.finite v) where
  below _ _ hle := Value.atMost_finite.mpr hle
  above _ _ hle := Value.atMost_finite.mpr hle

end

/-- What is left of a mantissa after so many shifts. A residual bit is set only if bits have been lost. -/
structure Shifted (m k : Nat) (em : ExtendedMantissa) : Prop where
  mantissa : em.mantissa = m / 2 ^ k
  lost : em.roundBit = true ∨ em.stickyBit = true → ¬2 ^ k ∣ m

section

variable {m k : Nat} {em : ExtendedMantissa}

theorem Shifted.shiftRightOne (h : Shifted m k em) : Shifted m (k + 1) em.shiftRightOne where
  mantissa := by rw [ExtendedMantissa.shiftRightOne, h.mantissa, Nat.div_div_eq_div_mul, pow_succ]
  lost hbits hdvd := by
    have hfactor : 2 ^ k ∣ 2 ^ (k + 1) := pow_dvd_pow 2 (Nat.le_succ k)
    simp only [ExtendedMantissa.shiftRightOne, bne_iff_ne, Bool.or_eq_true, h.mantissa] at hbits
    obtain hodd | hlost := hbits
    · obtain ⟨t, rfl⟩ := hdvd
      rw [pow_succ, mul_assoc, Nat.mul_div_cancel_left _ (Nat.two_pow_pos k), Nat.mul_mod_right] at hodd
      exact hodd rfl
    · exact h.lost hlost (hfactor.trans hdvd)

theorem shifted_shiftRight (m k : Nat) : Shifted m k ((⟨m, false, false⟩ : ExtendedMantissa) >>> k) := by
  induction k with
  | zero => exact ⟨by rw [pow_zero, Nat.div_one]; rfl, fun hbits => by cases hbits <;> contradiction⟩
  | succ k ih => exact ih.shiftRightOne

theorem roundedMantissa_cases (em : ExtendedMantissa) : em.roundedMantissa = em.mantissa ∨
    em.roundedMantissa = em.mantissa + 1 ∧ (em.roundBit = true ∨ em.stickyBit = true) := by
  obtain ⟨m, round, sticky⟩ := em
  cases round with
  | false =>
      cases sticky with
      | false => exact .inl rfl
      | true => exact .inl rfl
  | true =>
      cases sticky with
      | false =>
          change m + m % 2 = m ∨ m + m % 2 = m + 1 ∧ _
          obtain hmod | hmod := Nat.mod_two_eq_zero_or_one m
          · exact .inl (by rw [hmod, Nat.add_zero])
          · exact .inr ⟨by rw [hmod], .inl rfl⟩
      | true => exact .inr ⟨rfl, .inl rfl⟩

theorem Shifted.mantissa_eq (h : Shifted m k em) : (em.mantissa : Int) = m / 2 ^ k := by
  rw [h.mantissa]
  push_cast
  rfl

theorem Shifted.le_rounded (h : Shifted m k em) {n : Int} (hn : n * 2 ^ k ≤ m) : n ≤ em.roundedMantissa := by
  have hfloor : n ≤ em.mantissa := by
    rw [h.mantissa_eq]
    exact (Int.le_ediv_iff_mul_le (by positivity)).mpr hn
  obtain hround | ⟨hround, -⟩ := roundedMantissa_cases em <;> omega

theorem Shifted.rounded_le (h : Shifted m k em) {n : Int} (hn : m ≤ n * 2 ^ k) : em.roundedMantissa ≤ n := by
  obtain hround | ⟨hround, hbits⟩ := roundedMantissa_cases em
  · rw [hround, h.mantissa_eq]
    exact Int.ediv_le_of_le_mul (by positivity) hn
  · have hne : (m : Int) ≠ n * 2 ^ k := by
      intro heq
      have hdvd : ((2 ^ k : Nat) : Int) ∣ m := ⟨n, by rw [heq]; push_cast; ring⟩
      exact h.lost hbits (Int.natCast_dvd_natCast.mp hdvd)
    have hless : (em.mantissa : Int) < n := by
      rw [h.mantissa_eq]
      exact Int.ediv_lt_of_lt_mul (by positivity) (lt_of_le_of_ne hn hne)
    omega

end

theorem targetExponent_eq (m : Nat) (e : Int) :
    Format.binary64.targetExponent (totalExponent m e) = max (m.log2 + 1 + e - 53) (-1074) := rfl

/-- An unpacked float with the digits of a double, whose exponent may be too great for one. -/
def Canonical : UnpackedFloat → Prop
  | .finite _ m e _ => m < 2 ^ 53 ∧ -1074 ≤ e ∧ (e = -1074 ∨ 2 ^ 52 ≤ m)
  | _ => True

def unpackedValue : UnpackedFloat → Value
  | .notANumber => .nan
  | .infinity .negative => .negInf
  | .infinity .positive => .posInf
  | .zero _ => .finite 0
  | .finite s m e _ => .finite ((s.apply m : Int) * 2 ^ e)

section

variable {m r : Nat} {e T : Int}

theorem scale_lt {n d : Int} (hn : |n| < 2 ^ 53) (hd : d < T) : (n : Rat) * 2 ^ d < 2 ^ 52 * 2 ^ T := by
  have hdigits : n.natAbs < 2 ^ 53 := by
    rw [Int.abs_eq_natAbs] at hn
    exact_mod_cast hn
  have hmagnitude : (n : Rat) ≤ n.natAbs := by
    rw [Nat.cast_natAbs]
    exact_mod_cast le_abs_self n
  have hless := scaled_lt_of_exponent_lt hdigits (le_refl (2 ^ 52)) hd
  push_cast at hless
  exact (mul_le_mul_of_nonneg_right hmagnitude (by positivity)).trans_lt hless

/-- A number with 53 digits is rounded to a whole one at the exponent of its last digit. A representable number is
whole there as well, or else it is below all that has so many digits. -/
theorem rounds_whole {k : Nat} (he : e + k = T) (hT : T = -1074 ∨ 2 ^ 52 * 2 ^ k ≤ m)
    (low : ∀ n : Int, n * 2 ^ k ≤ m → n ≤ r) (high : ∀ n : Int, m ≤ n * 2 ^ k → r ≤ n) :
    Rounds Fits (m * 2 ^ e) (.finite (r * 2 ^ T)) := by
  have hpos : (0 : Rat) < 2 ^ e := by positivity
  have hscale : (2 : Rat) ^ T = 2 ^ k * 2 ^ e := by
    rw [← he, zpow_add₀ two_ne_zero, zpow_natCast, mul_comm]
  -- A number that is whole at the last digit, as so many units of it.
  have hwhole (n d : Int) (hd : T ≤ d) : (n : Rat) * 2 ^ d = (n * 2 ^ (d - T).toNat : Int) * 2 ^ T := by
    push_cast
    rw [mul_assoc, ← zpow_natCast, Int.toNat_of_nonneg (by omega), ← zpow_add₀ two_ne_zero]
    congr 2
    omega
  have hnormal (d : Int) (hd : -1074 ≤ d) (hlt : d < T) : 2 ^ 52 * 2 ^ k ≤ m := hT.resolve_left (by omega)
  constructor
  · rintro q ⟨n, d, rfl, hn, hd⟩ hle
    rw [Value.atMost_finite]
    obtain hTd | hdT := le_or_gt T d
    · rw [hwhole n d hTd] at hle ⊢
      have hunits : (n * 2 ^ (d - T).toNat) * 2 ^ k ≤ (m : Int) := by
        rw [hscale, ← mul_assoc] at hle
        exact_mod_cast le_of_mul_le_mul_right hle hpos
      have hr : ((n * 2 ^ (d - T).toNat : Int) : Rat) ≤ r := by exact_mod_cast low _ hunits
      exact mul_le_mul_of_nonneg_right hr (by positivity)
    · have hunits : ((2 ^ 52 : Nat) : Int) * 2 ^ k ≤ m := by exact_mod_cast hnormal d hd hdT
      have hr : (2 : Rat) ^ 52 ≤ r := by exact_mod_cast low _ hunits
      exact (scale_lt hn hdT).le.trans (mul_le_mul_of_nonneg_right hr (by positivity))
  · rintro q ⟨n, d, rfl, hn, hd⟩ hle
    rw [Value.atMost_finite]
    obtain hTd | hdT := le_or_gt T d
    · rw [hwhole n d hTd] at hle ⊢
      have hunits : (m : Int) ≤ (n * 2 ^ (d - T).toNat) * 2 ^ k := by
        rw [hscale, ← mul_assoc] at hle
        exact_mod_cast le_of_mul_le_mul_right hle hpos
      have hr : (r : Rat) ≤ ((n * 2 ^ (d - T).toNat : Int) : Rat) := by exact_mod_cast high _ hunits
      exact mul_le_mul_of_nonneg_right hr (by positivity)
    · have hm : ((2 ^ 52 * 2 ^ k : Nat) : Rat) ≤ m := by exact_mod_cast hnormal d hd hdT
      push_cast at hm
      have hmore : (2 : Rat) ^ 52 * 2 ^ T ≤ m * 2 ^ e := by
        rw [hscale, ← mul_assoc]
        exact mul_le_mul_of_nonneg_right hm hpos.le
      exact absurd (hmore.trans hle) (not_le.mpr (scale_lt hn hdT))

theorem shiftToTargetExponent_rounded (hr : r ≤ 2 ^ 53) (hT : -1074 ≤ T) (hnormal : T = -1074 ∨ 2 ^ 52 ≤ r) :
    ∃ (n : Nat) (d : Int), shiftToTargetExponent Format.binary64 r T .exact = (⟨n, false, false⟩, d) ∧
      n < 2 ^ 53 ∧ -1074 ≤ d ∧ (d = -1074 ∨ 2 ^ 52 ≤ n) ∧ (n : Rat) * 2 ^ d = r * 2 ^ T := by
  obtain rfl | hlt := hr.eq_or_lt
  · have hlog : Nat.log2 (2 ^ 53) = 53 := Nat.log2_two_pow
    have htarget : Format.binary64.targetExponent (totalExponent (2 ^ 53) T) = T + 1 := by
      rw [targetExponent_eq, hlog]
      omega
    refine ⟨2 ^ 52, T + 1, ?_, by norm_num, by omega, .inr le_rfl, ?_⟩
    · rw [shiftToTargetExponent, htarget, shiftToExponent, show (T + 1 - T).toNat = 1 by omega]
      rfl
    · rw [zpow_add_one₀ two_ne_zero]
      push_cast
      ring
  · have htarget : Format.binary64.targetExponent (totalExponent r T) ≤ T := by
      rw [targetExponent_eq]
      have hlog : r.log2 ≤ 52 := by
        by_cases hzero : r = 0
        · simp [hzero]
        · exact Nat.le_of_lt_succ ((Nat.log2_lt hzero).mpr hlt)
      omega
    refine ⟨r, T, ?_, hlt, hT, hnormal, rfl⟩
    have hshift : (Format.binary64.targetExponent (totalExponent r T) - T).toNat = 0 := by omega
    rw [shiftToTargetExponent, shiftToExponent, hshift]
    simp only [Nat.cast_zero, add_zero]
    rfl

theorem roundWithAccuracy_of_shifts {s : Sign} {em : ExtendedMantissa} {n : Nat} {e' d : Int}
    (first : shiftToTargetExponent Format.binary64 m e .exact = (em, e'))
    (second : shiftToTargetExponent Format.binary64 em.roundedMantissa e' .exact = (⟨n, false, false⟩, d)) :
    roundWithAccuracy Format.binary64 s m e .exact =
      if h : n = 0 then .zero s else .finite s n d (Nat.pos_of_ne_zero h) := by
  simp only [roundWithAccuracy, first, second]

theorem Rounds.signed {n : Nat} {d : Int} (h : Rounds Fits (m * 2 ^ e) (.finite (n * 2 ^ d))) (s : Sign) :
    Rounds Fits ((s.apply m : Int) * 2 ^ e) (.finite ((s.apply n : Int) * 2 ^ d)) := by
  cases s with
  | positive => exact h
  | negative => simpa [Sign.apply, Value.neg] using h.neg fun _ hq => hq.neg

structure Rounded (v : Rat) (u : UnpackedFloat) : Prop where
  canonical : Canonical u
  rounds : Rounds Fits v (unpackedValue u)

theorem roundWithAccuracy_rounded (s : Sign) (hm : 0 < m)
    (he : e ≤ Format.binary64.targetExponent (totalExponent m e)) :
    Rounded ((s.apply m : Int) * 2 ^ e) (roundWithAccuracy Format.binary64 s m e .exact) := by
  obtain ⟨T, htarget⟩ : ∃ T, Format.binary64.targetExponent (totalExponent m e) = T := ⟨_, rfl⟩
  obtain ⟨k, hk⟩ : ∃ k : Nat, (T - e).toNat = k := ⟨_, rfl⟩
  have hT := htarget
  rw [targetExponent_eq] at hT
  rw [htarget] at he
  have hkT : e + k = T := by omega
  have hnormal : T = -1074 ∨ 2 ^ 52 * 2 ^ k ≤ m := by
    refine or_iff_not_imp_left.mpr fun hne => ?_
    have hlog : 52 + k = m.log2 := by omega
    rw [← pow_add, hlog]
    exact Nat.log2_self_le hm.ne'
  have hbound : (m : Int) ≤ (2 ^ 53 : Nat) * 2 ^ k := by
    have hdigits : m < 2 ^ (53 + k) :=
      Nat.lt_log2_self.trans_le (Nat.pow_le_pow_right Nat.two_pos (by omega))
    rw [pow_add] at hdigits
    exact_mod_cast hdigits.le
  have hshifted := shifted_shiftRight m k
  have hfirst : shiftToTargetExponent Format.binary64 m e .exact =
      ((⟨m, false, false⟩ : ExtendedMantissa) >>> k, T) := by
    rw [shiftToTargetExponent, htarget, shiftToExponent, hk, hkT]
    rfl
  obtain ⟨em, hem⟩ : ∃ em, (⟨m, false, false⟩ : ExtendedMantissa) >>> k = em := ⟨_, rfl⟩
  rw [hem] at hshifted hfirst
  have hr : em.roundedMantissa ≤ 2 ^ 53 := by exact_mod_cast hshifted.rounded_le hbound
  have hr' : T = -1074 ∨ 2 ^ 52 ≤ em.roundedMantissa := by
    refine hnormal.imp_right fun hdigits => ?_
    have hunits : ((2 ^ 52 : Nat) : Int) * 2 ^ k ≤ m := by exact_mod_cast hdigits
    exact_mod_cast hshifted.le_rounded hunits
  obtain ⟨n, d, hsecond, hn, hd, hnd, hvalue⟩ := shiftToTargetExponent_rounded hr (by omega) hr'
  have hrounds := rounds_whole hkT hnormal (fun _ => hshifted.le_rounded) fun _ => hshifted.rounded_le
  rw [← hvalue] at hrounds
  rw [roundWithAccuracy_of_shifts hfirst hsecond]
  split
  next hzero =>
    refine ⟨trivial, ?_⟩
    have hsigned := hrounds.signed s
    cases s <;> simpa [hzero, Sign.apply, unpackedValue] using hsigned
  next hpos => exact ⟨⟨hn, hd, hnd⟩, hrounds.signed s⟩

theorem decreaseExponent_eq (h : T ≤ e) : decreaseExponent m e T = (m * 2 ^ (e - T).toNat, T) := by
  rw [decreaseExponent, Nat.shiftLeft_eq]
  congr 1
  omega

theorem decreaseExponent_value (s : Sign) (m : Nat) (h : T ≤ e) :
    ((s.apply (m * 2 ^ (e - T).toNat : Nat) : Int) : Rat) * 2 ^ T = (s.apply m : Int) * 2 ^ e := by
  have hvalue : ((m * 2 ^ (e - T).toNat : Nat) : Rat) * 2 ^ T = m * 2 ^ e := by
    push_cast
    rw [mul_assoc, ← zpow_natCast, Int.toNat_of_nonneg (by omega), ← zpow_add₀ two_ne_zero, sub_add_cancel]
  cases s <;> simpa [Sign.apply] using hvalue

theorem totalExponent_decreased (hm : 0 < m) (h : T ≤ e) :
    totalExponent (m * 2 ^ (e - T).toNat) T = totalExponent m e := by
  have hlog : (m * 2 ^ (e - T).toNat).log2 = m.log2 + (e - T).toNat := by
    rw [Nat.log2_eq_iff (by positivity), pow_add, add_right_comm, pow_add]
    exact ⟨Nat.mul_le_mul_right _ (Nat.log2_self_le hm.ne'),
      Nat.mul_lt_mul_of_pos_right Nat.lt_log2_self (by positivity)⟩
  rw [totalExponent, totalExponent, hlog]
  omega

theorem round_rounded (s : Sign) (hm : 0 < m) (e : Int) :
    Rounded ((s.apply m : Int) * 2 ^ e) (UnpackedFloat.round Format.binary64 s m e) := by
  obtain ⟨T, htarget⟩ : ∃ T, Format.binary64.targetExponent (totalExponent m e) = T := ⟨_, rfl⟩
  obtain hTe | heT := le_or_gt T e
  · have hround : UnpackedFloat.round Format.binary64 s m e =
        roundWithAccuracy Format.binary64 s (m * 2 ^ (e - T).toNat) T .exact := by
      rw [UnpackedFloat.round, htarget, decreaseExponent_eq hTe]
    have hmore : 0 < m * 2 ^ (e - T).toNat := by positivity
    have hrounded := roundWithAccuracy_rounded s hmore (by rw [totalExponent_decreased hm hTe, htarget])
    rwa [hround, ← decreaseExponent_value s m hTe]
  · have hround : UnpackedFloat.round Format.binary64 s m e = roundWithAccuracy Format.binary64 s m e .exact := by
      rw [UnpackedFloat.round, htarget, decreaseExponent, show (e - T).toNat = 0 by omega, Nat.shiftLeft_zero,
        Nat.cast_zero, sub_zero]
    rw [hround]
    exact roundWithAccuracy_rounded s hm (by omega)

theorem normalize_rounded (n e : Int) (s : Sign) :
    Rounded (n * 2 ^ e) (UnpackedFloat.normalize Format.binary64 n e s) := by
  rw [UnpackedFloat.normalize]
  split
  next hneg =>
    have hn : n < 0 := compare_lt_iff_lt.mp hneg
    have hrounded := round_rounded .negative (m := (-n).toNat) (by omega) e
    have hcast : Sign.negative.apply (-n).toNat = n := by
      simp only [Sign.apply]
      omega
    rwa [hcast] at hrounded
  next hzero =>
    obtain rfl : n = 0 := compare_eq_iff_eq.mp hzero
    refine ⟨trivial, ?_⟩
    rw [Int.cast_zero, zero_mul]
    exact rounds_self Fits 0
  next hpos =>
    have hn : 0 < n := compare_gt_iff_gt.mp hpos
    have hrounded := round_rounded .positive (m := n.toNat) (by omega) e
    have hcast : Sign.positive.apply n.toNat = n := by
      simp only [Sign.apply]
      omega
    rwa [hcast] at hrounded

end

section

variable {s : Sign} {m : Nat} {e : Int} {hm : 0 < m}

theorem unpack_normal {exponent : BitVec 11} (hspecial : exponent ≠ -1#11) (hzero : exponent ≠ 0#11)
    (mantissa : BitVec 52) :
    UnpackedFloat.unpack Format.binary64 (packComponents Format.binary64 s exponent mantissa) =
      .finite s (2 ^ 52 + mantissa.toNat) (exponent.toNat - 1075) (Nat.add_pos_left (Nat.two_pow_pos 52) _) := by
  have hdigits : (1#1 ++ mantissa).toNat = 2 ^ 52 + mantissa.toNat := by
    rw [BitVec.toNat_append, ← Nat.shiftLeft_add_eq_or_of_lt mantissa.isLt]
    rfl
  simp only [UnpackedFloat.unpack, unpackMantissa_packComponents, unpackExponent_packComponents,
    unpackSign_packComponents, Sign.ofBitVec_toBitVec, if_neg hspecial, if_neg hzero, hdigits]
  rfl

theorem unpack_subnormal {mantissa : BitVec 52} (hpos : 0 < mantissa.toNat) :
    UnpackedFloat.unpack Format.binary64 (packComponents Format.binary64 s 0#11 mantissa) =
      .finite s mantissa.toNat (-1074) hpos := by
  have hne : mantissa ≠ 0#52 := by
    rintro rfl
    exact absurd hpos (by decide)
  have hspecial : (0#11 : BitVec 11) ≠ -1#11 := by decide
  simp only [UnpackedFloat.unpack, unpackMantissa_packComponents, unpackExponent_packComponents,
    unpackSign_packComponents, Sign.ofBitVec_toBitVec, if_neg hspecial, if_true, dif_neg hne]
  rfl

theorem unpack_infinity (s : Sign) :
    UnpackedFloat.unpack Format.binary64 (packedInfinity Format.binary64 s) = .infinity s := by
  simp only [UnpackedFloat.unpack, packedInfinity, unpackMantissa_packComponents, unpackExponent_packComponents,
    unpackSign_packComponents, Sign.ofBitVec_toBitVec, if_true]
  rfl

theorem pack_finite : UnpackedFloat.pack Format.binary64 (.finite s m e hm) =
    if 2 ^ 11 ≤ (e + 1075).toNat + 1 then packedInfinity Format.binary64 s
    else if m.log2 + 1 = 53 then
      packComponents Format.binary64 s (BitVec.ofNat 11 (e + 1075).toNat) (BitVec.ofNat 52 m)
    else packComponents Format.binary64 s 0#11 (BitVec.ofNat 52 m) := by
  have hbiased : e + Format.binary64.exponentBias + Format.binary64.mantissaBitsWithoutImplicit = e + 1075 := by
    rw [add_assoc]
    rfl
  rw [UnpackedFloat.pack]
  simp only [hbiased]
  rfl

theorem unpack_pack (canonical : Canonical (.finite s m e hm)) (he : e ≤ 971) :
    UnpackedFloat.unpack Format.binary64 (UnpackedFloat.pack Format.binary64 (.finite s m e hm)) =
      .finite s m e hm := by
  obtain ⟨hm53, he', hnormal⟩ := canonical
  rw [pack_finite, if_neg (by omega)]
  by_cases hm52 : 2 ^ 52 ≤ m
  · have hlog : m.log2 + 1 = 53 := by
      have := (Nat.log2_lt hm.ne').mpr hm53
      have := (Nat.le_log2 hm.ne').mpr hm52
      omega
    have hexponent : (BitVec.ofNat 11 (e + 1075).toNat).toNat = (e + 1075).toNat := by
      rw [BitVec.toNat_ofNat, Nat.mod_eq_of_lt (by omega)]
    have hspecial : BitVec.ofNat 11 (e + 1075).toNat ≠ -1#11 := by
      intro heq
      have hbits : (e + 1075).toNat = 2047 := hexponent.symm.trans (congrArg BitVec.toNat heq)
      omega
    have hzero : BitVec.ofNat 11 (e + 1075).toNat ≠ 0#11 := by
      intro heq
      have hbits : (e + 1075).toNat = 0 := hexponent.symm.trans (congrArg BitVec.toNat heq)
      omega
    rw [if_pos hlog, unpack_normal hspecial hzero]
    congr 1
    · rw [BitVec.toNat_ofNat]
      omega
    · rw [hexponent]
      omega
  · have hlog : m.log2 + 1 ≠ 53 := by
      have := (Nat.log2_lt hm.ne').mpr (not_le.mp hm52)
      omega
    have hmantissa : (BitVec.ofNat 52 m).toNat = m := by
      rw [BitVec.toNat_ofNat, Nat.mod_eq_of_lt (by omega)]
    rw [if_neg hlog, unpack_subnormal (by rwa [hmantissa])]
    congr 1
    omega

end

theorem Rounds.imp {P Q : Rat → Prop} (hPQ : ∀ q, Q q → P q) {v : Rat} {w : Value} (h : Rounds P v w) :
    Rounds Q v w where
  below q hq := h.below q (hPQ q hq)
  above q hq := h.above q (hPQ q hq)

theorem scale_ge {m : Nat} {e : Int} (hm : 2 ^ 52 ≤ m) (he : 971 < e) : (2 : Rat) ^ 1024 ≤ m * 2 ^ e := by
  have hm' : (2 : Rat) ^ 52 ≤ m := by exact_mod_cast hm
  have he' : (2 : Rat) ^ ((972 : Nat) : Int) ≤ 2 ^ e := zpow_le_zpow_right₀ one_le_two (by omega)
  rw [zpow_natCast] at he'
  calc (2 : Rat) ^ 1024 = 2 ^ 52 * 2 ^ 972 := by rw [← pow_add]
    _ ≤ (m : Rat) * 2 ^ e := mul_le_mul hm' he' (by positivity) (by positivity)

/-- A rounded float becomes a double, an infinity if its exponent is too great: then it is beyond all doubles. -/
theorem Rounded.pack {v : Rat} {u : UnpackedFloat} (h : Rounded v u) :
    Rounds IsDouble v (unpackedValue (Float.Model.pack u).unpack) := by
  change Rounds IsDouble v
    (unpackedValue (UnpackedFloat.unpack Format.binary64 (UnpackedFloat.pack Format.binary64 u)))
  have hdouble : Rounds IsDouble v (unpackedValue u) := h.rounds.imp fun _ hq => hq.1
  cases u with
  | notANumber => exact hdouble
  | infinity s => cases s <;> exact hdouble
  | zero s => cases s <;> exact hdouble
  | finite s m e hm =>
      by_cases he : e ≤ 971
      · rwa [unpack_pack h.canonical he]
      · obtain ⟨-, he', hnormal⟩ := h.canonical
        have hgreat := scale_ge (hnormal.resolve_left (by omega)) (not_le.mp he)
        rw [pack_finite, if_pos (by omega), unpack_infinity]
        cases s with
        | positive =>
            refine ⟨fun q _ _ => Value.atMost_posInf.mpr nofun, fun q hq hle => ?_⟩
            have habove := Value.atMost_finite.mp (h.rounds.above q hq.1 hle)
            simp only [Sign.apply, Int.cast_natCast] at habove
            exact absurd (hgreat.trans habove) (not_le.mpr (abs_lt.mp hq.2).2)
        | negative =>
            refine ⟨fun q hq hle => ?_, fun q _ _ => Value.negInf_atMost.mpr nofun⟩
            have hbelow := Value.atMost_finite.mp (h.rounds.below q hq.1 hle)
            simp only [Sign.apply, Int.cast_neg, Int.cast_natCast, neg_mul] at hbelow
            exact absurd (hgreat.trans (le_neg_of_le_neg hbelow)) (not_le.mpr (neg_lt.mp (abs_lt.mp hq.2).1))

end LedgerQuery
