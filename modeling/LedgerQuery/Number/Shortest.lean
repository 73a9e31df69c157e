import LedgerQuery.Number.Basic

namespace LedgerQuery

structure Decimal where
  digits : Nat
  exponent : Int
deriving DecidableEq

namespace Shortest

/-- The positive double `m · 2 ^ q`, with the scales that make comparison with a decimal whole. -/
structure Target where
  m : Nat
  q : Int

def Target.quarters (t : Target) : Nat := 4 * t.m

def fullBits : Nat := 4503599627370496

def Target.low (t : Target) : Nat :=
  if t.m = fullBits ∧ t.q ≠ -1074 then t.quarters - 1 else t.quarters - 2

def Target.high (t : Target) : Nat := t.quarters + 2

/-- A count of quarters and a point `c · 10 ^ p`, brought to one denominator. -/
def Target.scaleQuarters (t : Target) (p : Int) (n : Nat) : Nat :=
  n * Nat.pow 2 (t.q - 2).toNat * Nat.pow 10 (-p).toNat

def Target.scalePoint (t : Target) (p : Int) (c : Nat) : Nat :=
  c * Nat.pow 10 p.toNat * Nat.pow 2 (2 - t.q).toNat

/-- Whether the point rounds to the double; the ends of the interval do so for an even `m`. -/
def Target.reads (t : Target) (p : Int) (c : Nat) : Bool :=
  let x := t.scalePoint p c
  let low := t.scaleQuarters p t.low
  let high := t.scaleQuarters p t.high
  if t.m % 2 = 0 then low ≤ x && x ≤ high else low < x && x < high

def Target.floorAt (t : Target) (p : Int) : Nat :=
  t.scaleQuarters p t.quarters / t.scalePoint p 1

def Target.onGrid (t : Target) (p : Int) : Option Decimal :=
  let c := t.floorAt p
  let x := t.scaleQuarters p t.quarters
  match t.reads p c, t.reads p (c + 1) with
  | true, true =>
    let below := x - t.scalePoint p c
    let above := t.scalePoint p (c + 1) - x
    if below < above ∨ (below = above ∧ c % 2 = 0) then some ⟨c, p⟩ else some ⟨c + 1, p⟩
  | true, false => some ⟨c, p⟩
  | false, true => some ⟨c + 1, p⟩
  | false, false => none

def Target.leading (t : Target) : Int :=
  let guess := ((t.m.log2 + t.q) * 30103).fdiv 100000
  if 0 < t.floorAt (guess + 1) then guess + 1
  else if 0 < t.floorAt guess then guess
  else guess - 1

def Target.search (t : Target) : Nat → Int → Decimal
  | 0, p => ⟨t.floorAt p, p⟩
  | n + 1, p => (t.onGrid p).getD (t.search n (p - 1))

/-- Seventeen digits always suffice. -/
def Target.decimal (t : Target) : Decimal := t.search 17 t.leading

end Shortest

end LedgerQuery
