import LedgerQuery.Number.Basic
import Mathlib.Algebra.Order.Ring.Rat

namespace LedgerQuery

namespace Value

/-- The order that `compare?` decides. -/
def AtMost (a b : Value) : Prop := a.compare? b = some .lt ∨ a.compare? b = some .eq

@[simp]
theorem not_nan_atMost (b : Value) : ¬AtMost .nan b := by simp [AtMost, compare?]

@[simp]
theorem not_atMost_nan (a : Value) : ¬AtMost a .nan := by cases a <;> simp [AtMost, compare?]

@[simp]
theorem negInf_atMost {b : Value} : AtMost .negInf b ↔ b ≠ .nan := by
  cases b <;> simp [AtMost, compare?]

@[simp]
theorem atMost_negInf {a : Value} : AtMost a .negInf ↔ a = .negInf := by
  cases a <;> simp [AtMost, compare?]

@[simp]
theorem atMost_posInf {a : Value} : AtMost a .posInf ↔ a ≠ .nan := by
  cases a <;> simp [AtMost, compare?]

@[simp]
theorem posInf_atMost {b : Value} : AtMost .posInf b ↔ b = .posInf := by
  cases b <;> simp [AtMost, compare?]

@[simp]
theorem atMost_finite {p q : Rat} : AtMost (.finite p) (.finite q) ↔ p ≤ q := by
  by_cases hlt : p < q
  · simp [AtMost, compare?, hlt, hlt.le]
  · by_cases heq : p = q
    · simp [AtMost, compare?, heq]
    · have hgt : ¬p ≤ q := fun hle => hlt (lt_of_le_of_ne hle heq)
      simp [AtMost, compare?, hlt, heq, hgt]

theorem compare?_eq_lt_finite {p q : Rat} : (finite p).compare? (finite q) = some .lt ↔ p < q := by
  by_cases hlt : p < q
  · simp [compare?, hlt]
  · by_cases heq : p = q <;> simp [compare?, hlt, heq]

theorem posInf_compare?_ne_lt (b : Value) : posInf.compare? b ≠ some .lt := by cases b <;> simp [compare?]

theorem AtMost.trans {a b c : Value} (hab : AtMost a b) (hbc : AtMost b c) : AtMost a c := by
  cases b with
  | nan => simp at hab
  | negInf =>
      rw [atMost_negInf] at hab
      rwa [hab]
  | posInf =>
      rw [posInf_atMost] at hbc
      rwa [hbc]
  | finite q =>
      cases a <;> cases c <;> simp at hab hbc ⊢
      exact hab.trans hbc

theorem AtMost.not_above {a b : Value} (h : AtMost a b) : b.compare? a ≠ some .lt := by
  cases a with
  | nan => simp at h
  | negInf => cases b <;> simp [compare?]
  | posInf =>
      rw [posInf_atMost] at h
      simp [h, compare?]
  | finite p =>
      cases b with
      | nan => simp at h
      | negInf => simp at h
      | posInf => simp [compare?]
      | finite q =>
          have hle : ¬q < p := not_lt_of_ge (atMost_finite.mp h)
          simp only [compare?, if_neg hle]
          by_cases heq : q = p <;> simp [heq]

theorem AtMost.below {a b c : Value} (hab : AtMost a b) (hbc : b.compare? c = some .lt) :
    a.compare? c = some .lt := by
  cases b with
  | nan => simp at hab
  | negInf =>
      rw [atMost_negInf] at hab
      rwa [hab]
  | posInf => exact absurd hbc (posInf_compare?_ne_lt c)
  | finite q =>
      cases c with
      | nan | negInf => simp [compare?] at hbc
      | posInf => cases a <;> simp [compare?] at hab ⊢
      | finite r =>
          rw [compare?_eq_lt_finite] at hbc
          cases a with
          | nan | posInf => simp at hab
          | negInf => rfl
          | finite p => exact compare?_eq_lt_finite.mpr ((atMost_finite.mp hab).trans_lt hbc)

end Value

namespace Number

theorem le_iff {a b : Number} : a ≤ b ↔ a.value.AtMost b.value := Iff.rfl

theorem le_trans {a b c : Number} (hab : a ≤ b) (hbc : b ≤ c) : a ≤ c := Value.AtMost.trans hab hbc

theorem not_lt_of_le {a b : Number} (h : a ≤ b) : ¬b < a := Value.AtMost.not_above h

theorem lt_of_le_of_lt {a b c : Number} (hab : a ≤ b) (hbc : b < c) : a < c := Value.AtMost.below hab hbc

theorem int_le_int {m n : Int} : Number.int m ≤ .int n ↔ m ≤ n := by
  rw [le_iff, value_int, value_int, Value.atMost_finite, Rat.intCast_le_intCast]

end Number

end LedgerQuery
