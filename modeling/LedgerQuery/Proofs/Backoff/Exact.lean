import LedgerQuery.Backoff.Policy
import LedgerQuery.Proofs.Backoff.Limits
import LedgerQuery.Proofs.Number.Order
import Mathlib.Tactic.Linarith

namespace LedgerQuery

namespace Number

theorem lt_iff_of_value {a b : Number} {p q : Rat} (ha : a.value = .finite p) (hb : b.value = .finite q) :
    a < b ↔ p < q := by
  rw [← Value.compare?_eq_lt_finite, ← ha, ← hb]
  rfl

theorem le_iff_of_value {a b : Number} {p q : Rat} (ha : a.value = .finite p) (hb : b.value = .finite q) :
    a ≤ b ↔ p ≤ q := by
  rw [le_iff, ha, hb, Value.atMost_finite]

end Number

/-- The limits with each time replaced by the rational it stands for. -/
structure Limits.Denotes (l : Limits Number) (q : Limits Rat) : Prop where
  maxElapsed : l.maxElapsed.map Number.value = q.maxElapsed.map .finite
  maxRetries : q.maxRetries = l.maxRetries
  initialInterval : l.initialInterval.value = .finite q.initialInterval
  multiplier : l.multiplier.value = .finite q.multiplier
  randomizationFactor : l.randomizationFactor.value = .finite q.randomizationFactor
  maxInterval : l.maxInterval.value = .finite q.maxInterval

theorem Limits.Denotes.sensible {l : Limits Number} {q : Limits Rat} (h : l.Denotes q) (hl : l.Sensible) :
    q.Sensible := by
  have hzero : (Nat.cast 0 : Number).value = .finite 0 := rfl
  have hone : (Nat.cast 1 : Number).value = .finite 1 := rfl
  refine ⟨?_, ?_, ?_, ?_, ?_, ?_⟩
  · intro E hE
    obtain ⟨x, hx, hvalue⟩ : ∃ x, l.maxElapsed = some x ∧ x.value = .finite E := by
      have hmap := h.maxElapsed
      rw [hE] at hmap
      exact Option.map_eq_some_iff.mp hmap
    rw [Nat.cast_zero, ← Number.lt_iff_of_value hvalue hzero]
    exact hl.maxElapsed x hx
  · rw [h.maxRetries]
    exact hl.maxRetries
  · rw [Nat.cast_zero, ← Number.lt_iff_of_value h.initialInterval hzero]
    exact hl.initialInterval
  · rw [Nat.cast_zero, ← Number.lt_iff_of_value h.maxInterval hzero]
    exact hl.maxInterval
  · rw [Nat.cast_one, ← Number.lt_iff_of_value h.multiplier hone]
    exact hl.multiplier
  · rw [Nat.cast_zero, Nat.cast_one, ← Number.le_iff_of_value hzero h.randomizationFactor,
      ← Number.le_iff_of_value h.randomizationFactor hone]
    exact hl.randomizationFactor

namespace Backoff

structure Regular (b : Backoff Rat) : Prop where
  sensible : b.limits.Sensible
  interval : 0 ≤ b.interval

theorem least_nonneg {x y : Rat} (hx : 0 ≤ x) (hy : 0 ≤ y) : 0 ≤ least x y := by
  rw [least]
  split
  · exact hy
  · exact hx

theorem begin_regular {l : Limits Rat} (sensible : l.Sensible) (start : Rat) : (begin l start).Regular where
  sensible := sensible
  interval := least_nonneg (by simpa using sensible.initialInterval) (by simpa using sensible.maxInterval)

variable {b : Backoff Rat}

theorem Regular.issued (regular : b.Regular) : b.issued.Regular where
  sensible := regular.sensible
  interval := by
    have hmultiplier : 1 ≤ b.limits.multiplier := by simpa using regular.sensible.multiplier
    have hgrown : 0 ≤ b.interval * b.limits.multiplier :=
      mul_nonneg regular.interval (zero_le_one.trans hmultiplier)
    exact least_nonneg hgrown (by simpa using regular.sensible.maxInterval)

theorem Regular.delay_nonneg (regular : b.Regular) {x : Rat} (hx : 0 ≤ x) : 0 ≤ b.delay x := by
  have hfactor := regular.sensible.randomizationFactor
  rw [Nat.cast_zero, Nat.cast_one] at hfactor
  have hdelta : 0 ≤ b.limits.randomizationFactor * b.interval := mul_nonneg hfactor.1 regular.interval
  have hlow : b.limits.randomizationFactor * b.interval ≤ b.interval :=
    mul_le_of_le_one_left regular.interval hfactor.2
  have hspan : 0 ≤ (b.interval + b.limits.randomizationFactor * b.interval -
      (b.interval - b.limits.randomizationFactor * b.interval)) * x := mul_nonneg (by linarith) hx
  rw [delay]
  linarith

end Backoff

end LedgerQuery
