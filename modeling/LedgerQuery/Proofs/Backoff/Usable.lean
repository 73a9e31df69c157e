import LedgerQuery.Proofs.Backoff.Interval
import LedgerQuery.Proofs.Number.Arithmetic
import LedgerQuery.Proofs.Settings.Agreement

namespace LedgerQuery

open Fetch

theorem Value.eq_of_finite_atMost {a : Rat} {w : Value} (h : (Value.finite a).AtMost w) :
    w = .posInf ∨ ∃ q, w = .finite q ∧ a ≤ q := by
  cases w with
  | nan => exact absurd h (Value.not_atMost_nan _)
  | negInf => exact absurd h (by simp)
  | posInf => exact .inl rfl
  | finite q => exact .inr ⟨q, rfl, Value.atMost_finite.mp h⟩

theorem Rounds.between {v a b : Rat} {w : Value} (h : Rounds IsDouble v w) (ha : IsDouble a) (hav : a ≤ v)
    (hb : IsDouble b) (hvb : v ≤ b) : ∃ q, w = .finite q ∧ a ≤ q ∧ q ≤ b := by
  have hbelow := h.below a ha hav
  have habove := h.above b hb hvb
  obtain rfl | ⟨q, rfl, haq⟩ := Value.eq_of_finite_atMost hbelow
  · simp at habove
  · exact ⟨q, rfl, haq, Value.atMost_finite.mp habove⟩

theorem IsDouble.twice {q : Rat} (h : IsDouble q) (hq : 0 ≤ q) (hless : q < 2 ^ 1023) : IsDouble (2 * q) := by
  obtain ⟨⟨n, d, rfl, hn, hd⟩, -⟩ := h
  refine ⟨⟨n, d + 1, ?_, hn, by omega⟩, ?_⟩
  · rw [zpow_add_one₀ two_ne_zero]
    ring
  · rw [abs_of_nonneg (by positivity)]
    calc 2 * ((n : Rat) * 2 ^ d) < 2 * 2 ^ 1023 := mul_lt_mul_of_pos_left hless two_pos
      _ = 2 ^ 1024 := by rw [← pow_succ']

namespace Number

def IsFinite (a : Number) : Prop := ∃ q, a.value = .finite q

theorem not_isFinite_of_posInf {a : Number} (h : a.value = .posInf) : ¬a.IsFinite := by
  rintro ⟨q, hq⟩
  cases h.symm.trans hq

theorem zero_le_iff {a : Number} : Number.int 0 ≤ a ↔ (Value.finite 0).AtMost a.value := by
  rw [le_iff, value_int, Int.cast_zero]

theorem one_le_iff {a : Number} : Number.int 1 ≤ a ↔ (Value.finite 1).AtMost a.value := by
  rw [le_iff, value_int, Int.cast_one]

theorem value_toFloat {x : Number} (hzero : Number.int 0 ≤ x) (hone : x ≤ .int 1) :
    ∃ ξ, x.value = .finite ξ ∧ (Number.float x.toFloat).value = .finite ξ ∧ 0 ≤ ξ ∧ ξ ≤ 1 := by
  cases x with
  | int n =>
      rw [int_le_int] at hzero hone
      obtain rfl | rfl : n = 0 ∨ n = 1 := by omega
      · exact ⟨0, rfl, by decide +kernel, le_rfl, zero_le_one⟩
      · exact ⟨1, rfl, by decide +kernel, zero_le_one, le_rfl⟩
  | float x =>
      rw [le_iff, value_int, Int.cast_one] at hone
      obtain hinf | ⟨ξ, hξ, hle⟩ := Value.eq_of_finite_atMost (zero_le_iff.mp hzero)
      · simp [hinf] at hone
      · rw [hξ, Value.atMost_finite] at hone
        exact ⟨ξ, hξ, hξ, hle, hone⟩

end Number

def jittered (c f x : Float) : Float := c - f * c + (c + f * c - (c - f * c)) * x

section

variable {c f x : Float} {p φ ξ : Rat}

theorem band_low (hc : (Number.float c).value = .finite p) (hp : 0 ≤ p) (hf : (Number.float f).value = .finite φ)
    (hφ : 0 ≤ φ ∧ φ ≤ 1) : ∃ δ low, (Number.float (f * c)).value = .finite δ ∧ 0 ≤ δ ∧ δ ≤ p ∧
      (Number.float (c - f * c)).value = .finite low ∧ 0 ≤ low ∧ low ≤ p := by
  have hdouble := Number.isDouble_of_value hc
  obtain ⟨δ, hδ, hzero, hle⟩ := (Number.float_mul_finite hf hc).between isDouble_zero (mul_nonneg hφ.1 hp) hdouble
    (mul_le_of_le_one_left hp hφ.2)
  obtain ⟨low, hlow, hzero', hle'⟩ := (Number.float_sub_finite hc hδ).between isDouble_zero (sub_nonneg.mpr hle)
    hdouble (sub_le_self p hzero)
  exact ⟨δ, low, hδ, hzero, hle, hlow, hzero', hle'⟩

theorem band_high (hc : (Number.float c).value = .finite p) (hp : 0 ≤ p) (hf : (Number.float f).value = .finite φ)
    (hφ : 0 ≤ φ ∧ φ ≤ 1) : (Number.float (c + f * c)).value = .posInf ∨
      ∃ high, (Number.float (c + f * c)).value = .finite high ∧ p ≤ high := by
  obtain ⟨δ, low, hδ, hδ₀, -⟩ := band_low hc hp hf hφ
  exact Value.eq_of_finite_atMost
    ((Number.float_add_finite hc hδ).below p (Number.isDouble_of_value hc) (le_add_of_nonneg_right hδ₀))

/-- Above a band that has no finite end, every part of its width but none at all is infinite. -/
theorem jittered_of_overflow {low : Rat} (hhigh : (Number.float (c + f * c)).value = .posInf)
    (hlow : (Number.float (c - f * c)).value = .finite low) (hx : (Number.float x).value = .finite ξ) (hξ : 0 ≤ ξ) :
    (Number.float (jittered c f x)).value = if ξ = 0 then .nan else .posInf := by
  have hwidth : (Number.float (c + f * c - (c - f * c))).value = .posInf := by
    have hsub := Number.float_sub (c + f * c) (c - f * c)
    rwa [hhigh, hlow] at hsub
  have hpart := Number.float_mul (c + f * c - (c - f * c)) x
  rw [hwidth, hx, Value.posInf_mul_of_nonneg hξ] at hpart
  have hsum := Number.float_add (c - f * c) ((c + f * c - (c - f * c)) * x)
  rw [hlow] at hsum
  by_cases hzero : ξ = 0
  · rw [if_pos hzero] at hpart ⊢
    rw [Value.nan_roundsTo.mp hpart, Value.add_nan] at hsum
    exact hsum
  · rw [if_neg hzero] at hpart ⊢
    rw [Value.posInf_roundsTo.mp hpart] at hsum
    exact hsum

theorem jittered_nonneg (hc : (Number.float c).value = .finite p) (hp : 0 ≤ p)
    (hf : (Number.float f).value = .finite φ) (hφ : 0 ≤ φ ∧ φ ≤ 1) (hx : (Number.float x).value = .finite ξ)
    (hξ : 0 ≤ ξ ∧ ξ ≤ 1) (tame : (Number.float (c + f * c)).IsFinite ∨ 0 < ξ) :
    (Value.finite 0).AtMost (Number.float (jittered c f x)).value := by
  obtain ⟨-, low, -, -, -, hlow, hlow₀, hlowp⟩ := band_low hc hp hf hφ
  obtain hinf | ⟨high, hhigh, hle⟩ := band_high hc hp hf hφ
  · have hpos : 0 < ξ := tame.resolve_left (Number.not_isFinite_of_posInf hinf)
    rw [jittered_of_overflow hinf hlow hx hξ.1, if_neg hpos.ne']
    exact Value.atMost_posInf.mpr nofun
  · obtain ⟨width, hwidth, hwidth₀, -⟩ := (Number.float_sub_finite hhigh hlow).between isDouble_zero
      (sub_nonneg.mpr (hlowp.trans hle)) (Number.isDouble_of_value hhigh) (sub_le_self high hlow₀)
    obtain ⟨part, hpart, hpart₀, -⟩ := (Number.float_mul_finite hwidth hx).between isDouble_zero
      (mul_nonneg hwidth₀ hξ.1) (Number.isDouble_of_value hwidth) (mul_le_of_le_one_right hwidth₀ hξ.2)
    exact (Number.float_add_finite hlow hpart).below 0 isDouble_zero (add_nonneg hlow₀ hpart₀)

theorem jittered_of_not_finite (hc : (Number.float c).value = .posInf ∨ (Number.float c).value = .nan)
    (hf : (Number.float f).value = .finite φ) (hφ : 0 ≤ φ) : (Number.float (jittered c f x)).value = .nan := by
  have hmul := Number.float_mul f c
  have hsub := Number.float_sub c (f * c)
  have hsum := Number.float_add (c - f * c) ((c + f * c - (c - f * c)) * x)
  have hlow : (Number.float (c - f * c)).value = .nan := by
    obtain hinf | hnan := hc
    · -- What is taken from infinity is infinite itself, or `nan` if the factor is zero.
      rw [hf, hinf, Value.mul_posInf_of_nonneg hφ] at hmul
      by_cases hzero : φ = 0
      · rw [if_pos hzero] at hmul
        rw [Value.nan_roundsTo.mp hmul, hinf] at hsub
        exact hsub
      · rw [if_neg hzero] at hmul
        rw [Value.posInf_roundsTo.mp hmul, hinf] at hsub
        exact hsub
    · rw [hnan, Value.nan_add] at hsub
      exact hsub
  rw [hlow, Value.nan_add] at hsum
  exact hsum

/-- Not below zero, though perhaps not comparable with it. -/
def NotNegative (x : Float) : Prop :=
  (Number.float x).value = .nan ∨ (Value.finite 0).AtMost (Number.float x).value

theorem notNegative_of_posInf (hx : (Number.float x).value = .posInf) : NotNegative x := by
  rw [NotNegative, hx]
  exact .inr (Value.atMost_posInf.mpr nofun)

theorem NotNegative.mul (hx : NotNegative x) (hc : (Value.finite 1).AtMost (Number.float c).value) :
    NotNegative (x * c) := by
  have hmul := Number.float_mul x c
  obtain hnan | hx := hx
  · rw [hnan, Value.nan_mul] at hmul
    exact .inl hmul
  obtain hx | ⟨ξ, hξ, hξ₀⟩ := Value.eq_of_finite_atMost hx
  · obtain hc | ⟨q, hq, hq₁⟩ := Value.eq_of_finite_atMost hc
    · rw [hx, hc] at hmul
      exact notNegative_of_posInf hmul
    · have hpos : 0 < q := zero_lt_one.trans_le hq₁
      rw [hx, hq, Value.posInf_mul_of_nonneg hpos.le, if_neg hpos.ne'] at hmul
      exact notNegative_of_posInf hmul
  · obtain hc | ⟨q, hq, hq₁⟩ := Value.eq_of_finite_atMost hc
    · rw [hξ, hc, Value.mul_posInf_of_nonneg hξ₀] at hmul
      by_cases hzero : ξ = 0
      · rw [if_pos hzero] at hmul
        exact .inl hmul
      · rw [if_neg hzero] at hmul
        exact notNegative_of_posInf hmul
    · exact .inr ((Number.float_mul_finite hξ hq).below 0 isDouble_zero (mul_nonneg hξ₀ (zero_le_one.trans hq₁)))

theorem least_finite {M : Rat} (hx : (Value.finite p).AtMost (Number.float x).value)
    (hc : (Number.float c).value = .finite M) (hpM : p ≤ M) :
    ∃ q, (Number.float (if Number.float c < .float x then c else x)).value = .finite q ∧ p ≤ q ∧ q ≤ M := by
  by_cases hless : Number.float c < .float x
  · rw [if_pos hless]
    exact ⟨M, hc, hpM, le_rfl⟩
  · rw [if_neg hless]
    obtain hinf | ⟨q, hq, hpq⟩ := Value.eq_of_finite_atMost hx
    · have hbelow : (Number.float c).value.compare? (Number.float x).value = some .lt := by
        rw [hc, hinf]
        rfl
      exact absurd hbelow hless
    · rw [Number.lt_iff_of_value hc hq, not_lt] at hless
      exact ⟨q, hq, hpq, hless⟩

end

namespace RetrySettings

/-- Settings whose intervals stay finite, and the bands around them too: no interval is as large as half the range of
doubles, and the multiplier either is finite or never meets an interval of zero. -/
structure Moderate (s : RetrySettings) : Prop where
  maxInterval : Number.float s.maxInterval < .int (2 ^ 1023)
  growth : (Number.float s.multiplier).IsFinite ∨
    Number.int 0 < .float s.initialInterval ∧ Number.int 0 < .float s.maxInterval

end RetrySettings

namespace Backoff

/-- An interval and a draw with which the band around the interval makes sense. -/
@[mk_iff]
structure Tame (b : Backoff Number) (x : Number) : Prop where
  interval : b.interval.IsFinite
  band : (b.interval + b.limits.randomizationFactor * b.interval).IsFinite ∨ Number.int 0 < x

structure Doubled (s : RetrySettings) (P : Float → Prop) (b : Backoff Number) : Prop where
  multiplier : b.limits.multiplier = .float s.multiplier
  randomizationFactor : b.limits.randomizationFactor = .float s.randomizationFactor
  maxInterval : b.limits.maxInterval = .float s.maxInterval
  interval : ∃ c, b.interval = .float c ∧ P c

theorem least_float (x y : Float) :
    least (Number.float x) (.float y) = .float (if Number.float y < .float x then y else x) := by
  rw [least]
  split <;> rfl

section

variable {s : RetrySettings} {P : Float → Prop} {b : Backoff Number} {bounds : Bounds}

theorem begin_doubled (start : Number)
    (first : P (if Number.float s.maxInterval < .float s.initialInterval then s.maxInterval else s.initialInterval)) :
    (begin (bounds.limits s) start).Doubled s P :=
  ⟨rfl, rfl, rfl, _, least_float _ _, first⟩

theorem Doubled.issued (h : b.Doubled s P) (step : ∀ c, P c →
      P (if Number.float s.maxInterval < .float (c * s.multiplier) then s.maxInterval else c * s.multiplier)) :
    b.issued.Doubled s P := by
  obtain ⟨hmultiplier, hfactor, hmax, c, hc, hP⟩ := h
  refine ⟨hmultiplier, hfactor, hmax, _, ?_, step c hP⟩
  rw [Backoff.issued, hc, hmultiplier, hmax]
  exact least_float _ _

theorem Doubled.delay_eq (h : b.Doubled s P) (x : Number) : ∃ c, b.interval = .float c ∧ P c ∧
    b.delay x = .float (jittered c s.randomizationFactor x.toFloat) := by
  obtain ⟨-, hfactor, -, c, hc, hP⟩ := h
  refine ⟨c, hc, hP, ?_⟩
  rw [delay, hfactor, hc]
  cases x <;> rfl

theorem Asked.doubled {σ : Type} {draw now : StateM σ Number} {start : Number} {answers : List (Option Number)}
    (first : P (if Number.float s.maxInterval < .float s.initialInterval then s.maxInterval else s.initialInterval))
    (step : ∀ c, P c →
      P (if Number.float s.maxInterval < .float (c * s.multiplier) then s.maxInterval else c * s.multiplier))
    (asked : Asked draw now (begin (bounds.limits s) start) answers b) : b.Doubled s P := by
  induction asked with
  | nil => exact begin_doubled start first
  | next before question ih =>
      obtain ⟨-, rfl⟩ | ⟨-, rfl⟩ := next_cases question
      · exact ih
      · exact ih.issued step

theorem Asked.notNegative {σ : Type} {draw now : StateM σ Number} {start : Number} {answers : List (Option Number)}
    (hs : s.Bounded) (asked : Asked draw now (begin (bounds.limits s) start) answers b) :
    b.Doubled s NotNegative := by
  have hmax : NotNegative s.maxInterval := .inr (Number.zero_le_iff.mp (Number.zero_le_float.mpr hs.maxInterval))
  have hfirst : NotNegative s.initialInterval :=
    .inr (Number.zero_le_iff.mp (Number.zero_le_float.mpr hs.initialInterval))
  have hmultiplier : (Value.finite 1).AtMost (Number.float s.multiplier).value :=
    Number.one_le_iff.mp (Number.one_le_float.mpr hs.multiplier)
  refine asked.doubled ?_ fun c hc => ?_
  · split
    · exact hmax
    · exact hfirst
  · split
    · exact hmax
    · exact hc.mul hmultiplier

theorem factor_finite (hs : s.Bounded) :
    ∃ φ, (Number.float s.randomizationFactor).value = .finite φ ∧ 0 ≤ φ ∧ φ ≤ 1 := by
  obtain ⟨φ, hφ, -, hwithin⟩ := Number.value_toFloat (Number.zero_le_float.mpr hs.randomizationFactor.1)
    (Number.float_le_one.mpr hs.randomizationFactor.2)
  exact ⟨φ, hφ, hwithin⟩

theorem Doubled.usable (hs : s.Bounded) (h : b.Doubled s NotNegative) {x : Number} (hzero : Number.int 0 ≤ x)
    (hone : x ≤ .int 1) : (b.Tame x → Number.int 0 ≤ b.delay x) ∧ (¬b.Tame x → (b.delay x).value = .nan) := by
  obtain ⟨c, hc, hnonneg, hdelay⟩ := h.delay_eq x
  obtain ⟨φ, hφ, hφ₀, hφ₁⟩ := factor_finite hs
  obtain ⟨ξ, hx, hξ, hξ₀, hξ₁⟩ := Number.value_toFloat hzero hone
  have hband : b.interval + b.limits.randomizationFactor * b.interval = .float (c + s.randomizationFactor * c) := by
    rw [hc, h.randomizationFactor]
    rfl
  have hpositive : Number.int 0 < x ↔ 0 < ξ := Number.lt_iff_of_value (Number.value_int 0) hx
  have htame : b.Tame x ↔ (Number.float c).IsFinite ∧
      ((Number.float (c + s.randomizationFactor * c)).IsFinite ∨ 0 < ξ) := by
    rw [tame_iff, hband, hc, hpositive]
  rw [hdelay, htame, Number.zero_le_iff]
  -- Where it is not tame: `nan` or infinite as it stands, or finite with a band beyond all doubles and a draw of zero.
  constructor
  · rintro ⟨⟨p, hp⟩, hwide⟩
    rw [NotNegative, hp] at hnonneg
    have hp₀ : 0 ≤ p := Value.atMost_finite.mp (hnonneg.resolve_left nofun)
    exact jittered_nonneg hp hp₀ hφ ⟨hφ₀, hφ₁⟩ hξ ⟨hξ₀, hξ₁⟩ hwide
  · intro hwild
    obtain hnan | hnonneg := hnonneg
    · exact jittered_of_not_finite (.inr hnan) hφ hφ₀
    obtain hinf | ⟨p, hp, hp₀⟩ := Value.eq_of_finite_atMost hnonneg
    · exact jittered_of_not_finite (.inl hinf) hφ hφ₀
    · obtain ⟨-, low, -, -, -, hlow, -⟩ := band_low hp hp₀ hφ ⟨hφ₀, hφ₁⟩
      obtain hinf | ⟨high, hhigh, -⟩ := band_high hp hp₀ hφ ⟨hφ₀, hφ₁⟩
      · have hξ_zero : ξ = 0 := le_antisymm (not_lt.mp fun hpos => hwild ⟨⟨p, hp⟩, .inr hpos⟩) hξ₀
        rw [jittered_of_overflow hinf hlow hξ hξ₀, if_pos hξ_zero]
      · exact absurd ⟨⟨p, hp⟩, .inl ⟨high, hhigh⟩⟩ hwild

/-- An interval that is finite and stays so, as long as it is not zero where the multiplier is infinite. -/
def Steady (s : RetrySettings) (M : Rat) (c : Float) : Prop :=
  ∃ p, (Number.float c).value = .finite p ∧ 0 ≤ p ∧ p ≤ M ∧ ((Number.float s.multiplier).IsFinite ∨ 0 < p)

variable {M : Rat}

theorem steady_least (hM : (Number.float s.maxInterval).value = .finite M) {x : Float} {p : Rat}
    (hx : (Value.finite p).AtMost (Number.float x).value) (hp : 0 ≤ p) (hpM : p ≤ M)
    (growth : (Number.float s.multiplier).IsFinite ∨ 0 < p) :
    Steady s M (if Number.float s.maxInterval < .float x then s.maxInterval else x) := by
  obtain ⟨q, hq, hpq, hqM⟩ := least_finite hx hM hpM
  exact ⟨q, hq, hp.trans hpq, hqM, growth.imp_right fun hpos => hpos.trans_le hpq⟩

theorem steady_first (hs : s.Bounded) (moderate : s.Moderate) (hM : (Number.float s.maxInterval).value = .finite M)
    (hM₀ : 0 ≤ M) :
    Steady s M
      (if Number.float s.maxInterval < .float s.initialInterval then s.maxInterval else s.initialInterval) := by
  have hinitial : (Value.finite 0).AtMost (Number.float s.initialInterval).value :=
    Number.zero_le_iff.mp (Number.zero_le_float.mpr hs.initialInterval)
  obtain hfinite | ⟨hpos, hpos'⟩ := moderate.growth
  · exact steady_least hM hinitial le_rfl hM₀ (.inl hfinite)
  · have hMpos : 0 < M := (Number.lt_iff_of_value (Number.value_int 0) hM).mp hpos'
    obtain hinf | ⟨ι, hι, -⟩ := Value.eq_of_finite_atMost hinitial
    · refine steady_least hM ?_ hM₀ le_rfl (.inr hMpos)
      rw [hinf]
      exact Value.atMost_posInf.mpr nofun
    · have hιpos : 0 < ι := (Number.lt_iff_of_value (Number.value_int 0) hι).mp hpos
      have hleast : 0 < min ι M := lt_min hιpos hMpos
      refine steady_least hM ?_ hleast.le (min_le_right ι M) (.inr hleast)
      rw [hι]
      exact Value.atMost_finite.mpr (min_le_left ι M)

theorem Steady.step (hs : s.Bounded) (hM : (Number.float s.maxInterval).value = .finite M) {c : Float}
    (h : Steady s M c) :
    Steady s M
      (if Number.float s.maxInterval < .float (c * s.multiplier) then s.maxInterval else c * s.multiplier) := by
  obtain ⟨p, hp, hp₀, hpM, growth⟩ := h
  have hone : (Value.finite 1).AtMost (Number.float s.multiplier).value :=
    Number.one_le_iff.mp (Number.one_le_float.mpr hs.multiplier)
  refine steady_least hM ?_ hp₀ hpM growth
  obtain hinf | ⟨μ, hμ, hμ₁⟩ := Value.eq_of_finite_atMost hone
  · have hpos : 0 < p := growth.resolve_left (Number.not_isFinite_of_posInf hinf)
    have hmul := Number.float_mul c s.multiplier
    rw [hp, hinf, Value.mul_posInf_of_nonneg hp₀, if_neg hpos.ne'] at hmul
    rw [Value.posInf_roundsTo.mp hmul]
    exact Value.atMost_posInf.mpr nofun
  · exact (Number.float_mul_finite hp hμ).below p (Number.isDouble_of_value hp) (le_mul_of_one_le_right hp₀ hμ₁)

theorem Steady.tame (hs : s.Bounded) (hM : M < 2 ^ 1023) (h : b.Doubled s (Steady s M)) (x : Number) : b.Tame x := by
  obtain ⟨-, hfactor, -, c, hc, p, hp, hp₀, hpM, -⟩ := h
  obtain ⟨φ, hφ, hwithin⟩ := factor_finite hs
  obtain ⟨δ, low, hδ, hδ₀, hδp, -⟩ := band_low hp hp₀ hφ hwithin
  have hdouble := Number.isDouble_of_value hp
  obtain ⟨high, hhigh, -⟩ := (Number.float_add_finite hp hδ).between hdouble (le_add_of_nonneg_right hδ₀)
    (hdouble.twice hp₀ (hpM.trans_lt hM)) (by rw [two_mul]; exact add_le_add_right hδp p)
  refine ⟨⟨p, by rw [hc, hp]⟩, .inl ⟨high, ?_⟩⟩
  rw [hc, hfactor]
  exact hhigh

theorem maxInterval_finite (hs : s.Bounded) (hless : Number.float s.maxInterval < .int (2 ^ 1023)) :
    ∃ M, (Number.float s.maxInterval).value = .finite M ∧ 0 ≤ M ∧ M < 2 ^ 1023 := by
  have hmax := Number.zero_le_iff.mp (Number.zero_le_float.mpr hs.maxInterval)
  obtain hinf | ⟨M, hM, hM₀⟩ := Value.eq_of_finite_atMost hmax
  · have hbelow : (Number.float s.maxInterval).value.compare? (Number.int (2 ^ 1023)).value = some .lt := hless
    rw [hinf] at hbelow
    exact absurd hbelow (Value.posInf_compare?_ne_lt _)
  · rw [Number.lt_iff_of_value hM (Number.value_int _)] at hless
    rw [Int.cast_pow, Int.cast_ofNat] at hless
    exact ⟨M, hM, hM₀, hless⟩

section

variable {σ : Type} {draw now : StateM σ Number} {start : Number} {answers : List (Option Number)}

theorem Asked.delays_nonneg (hs : s.Bounded) (moderate : s.Moderate)
    (draws : ∀ r, Number.int 0 ≤ (draw r).1 ∧ (draw r).1 ≤ .int 1)
    (asked : Asked draw now (begin (bounds.limits s) start) answers b) :
    ∀ d ∈ answers.reduceOption, Number.int 0 ≤ d := by
  obtain ⟨M, hM, hM₀, hMless⟩ := maxInterval_finite hs moderate.maxInterval
  induction asked with
  | nil => simp
  | @next answers b b' answer r r' before question ih =>
      have hsteady := before.doubled (steady_first hs moderate hM hM₀) fun _ => Steady.step hs hM
      obtain ⟨rfl, rfl⟩ | ⟨rfl, rfl⟩ := next_cases question
      · simpa [List.reduceOption_append] using ih
      · have htame := Steady.tame hs hMless hsteady (draw r).1
        have hdelay := ((before.notNegative hs).usable hs (draws r).1 (draws r).2).1 htame
        rw [List.reduceOption_append, List.reduceOption_singleton]
        intro d hd
        obtain hd | hd := List.mem_append.mp hd
        · exact ih d hd
        · obtain rfl : d = _ := by simpa using hd
          exact hdelay

end

end

/-- A policy for settings that decode, asked whenever and with any draws between zero and one: it issues a delay that
is not negative where the interval and the band around it are tame, and `nan` where they are not. Moderate settings
never lead there. -/
theorem delays_usable {τ : Type} [Source τ] {x : τ} {s : RetrySettings} (decoded : RetrySettings.shape.read x = .ok s)
    (bounds : Bounds) {σ : Type} {draw now : StateM σ Number}
    (draws : ∀ r, Number.int 0 ≤ (draw r).1 ∧ (draw r).1 ≤ .int 1) (start : Number) {answers : List (Option Number)}
    {b : Backoff Number} (asked : Asked draw now (begin (bounds.limits s) start) answers b) :
    (∀ r d b' r', b.next draw now r = ((some d, b'), r') →
      (b.Tame (draw r).1 → Number.int 0 ≤ d) ∧ (¬b.Tame (draw r).1 → d.value = .nan)) ∧
    (s.Moderate → ∀ d ∈ answers.reduceOption, Number.int 0 ≤ d) := by
  have hs := RetrySettings.bounded_of_read decoded
  refine ⟨fun r d b' r' question => ?_, fun moderate => asked.delays_nonneg hs moderate draws⟩
  obtain ⟨hnone, -⟩ | ⟨hdelay, -⟩ := next_cases question
  · cases hnone
  · cases hdelay
    exact (asked.notNegative hs).usable hs (draws r).1 (draws r).2

def halfway : StateM Number Number := pure (.float 0.5)

theorem default_delays_usable : ∃ (s : RetrySettings) (b b' : Backoff Number),
    RetrySettings.shape.read (RetrySettings.shape.json s) = .ok s ∧ s.Moderate ∧
      Asked halfway get (begin (Bounds.limits ⟨none, none⟩ s) (.int 0)) [some (.float 0.5)] b ∧
        Number.int 0 ≤ .float 0.5 ∧ b.next halfway get (.int 1) = ((some (.float 0.75), b'), .int 1) ∧
          Number.int 0 ≤ .float 0.75 := by
  let s := RetrySettings.default
  let b := begin (Bounds.limits ⟨none, none⟩ s) (.int 0)
  have decoded := (RetrySettings.rereads s s).mpr ⟨rfl, RetrySettings.default_bounded⟩
  have moderate : s.Moderate := ⟨by decide +kernel, .inl ⟨3 / 2, by decide +kernel⟩⟩
  have hfirst : b.delay (.float 0.5) = .float 0.5 := by decide +kernel
  have hsecond : b.issued.delay (.float 0.5) = .float 0.75 := by decide +kernel
  have first : b.next halfway get (.int 0) = ((some (b.delay (.float 0.5)), b.issued), .int 0) :=
    next_of_fits (by decide +kernel) rfl rfl rfl (by decide +kernel)
  have second : b.issued.next halfway get (.int 1) =
      ((some (b.issued.delay (.float 0.5)), b.issued.issued), .int 1) :=
    next_of_fits (by decide +kernel) rfl rfl rfl (by decide +kernel)
  rw [hfirst] at first
  rw [hsecond] at second
  have asked : Asked halfway get b [some (.float 0.5)] b.issued := Asked.nil.next first
  have hhalf : Number.int 0 ≤ .float 0.5 ∧ Number.float 0.5 ≤ .int 1 := by decide +kernel
  have draws : ∀ r, Number.int 0 ≤ (halfway r).1 ∧ (halfway r).1 ≤ .int 1 := fun _ => hhalf
  obtain ⟨hnext, hissued⟩ := delays_usable decoded ⟨none, none⟩ draws (.int 0) asked
  have htame : b.issued.Tame (.float 0.5) :=
    ⟨⟨3 / 4, by decide +kernel⟩, .inl ⟨9 / 8, by decide +kernel⟩⟩
  exact ⟨s, b.issued, b.issued.issued, decoded, moderate, asked, hissued moderate _ (by simp), second,
    (hnext _ _ _ _ second).1 htame⟩

/-- Intervals without end decode, and the delay that is drawn from the first is no number; though the time has long
run out, it is issued. -/
theorem infinite_interval_issues_nan :
    let s : RetrySettings := { RetrySettings.default with initialInterval := 1.0 / 0.0, maxInterval := 1.0 / 0.0 }
    RetrySettings.shape.read (RetrySettings.shape.json s) = .ok s ∧
      ∃ d b, (begin (Bounds.limits ⟨none, none⟩ s) (.int 0)).next halfway get (.int 1000) = ((some d, b), .int 1000) ∧
        ¬Number.int 0 ≤ d := by
  intro s
  have bounded : s.Bounded :=
    { RetrySettings.default_bounded with
      initialInterval := by decide +kernel
      maxInterval := by decide +kernel }
  let b := begin (Bounds.limits ⟨none, none⟩ s) (.int 0)
  have issues : b.next halfway get (.int 1000) = ((some (b.delay (.float 0.5)), b.issued), .int 1000) :=
    next_of_fits (by decide +kernel) rfl rfl rfl (by decide +kernel)
  exact ⟨(RetrySettings.rereads s s).mpr ⟨rfl, bounded⟩, _, _, issues, by decide +kernel⟩

end Backoff

end LedgerQuery
