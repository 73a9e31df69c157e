namespace LedgerQuery

inductive Number
  | int (n : Int)
  | float (x : Float)
deriving DecidableEq, Inhabited

/-- The content of a double, a finite one as `± m · 2 ^ q`. -/
inductive Parts
  | nan
  | infinite (negative : Bool)
  | finite (negative : Bool) (m : Nat) (q : Int)

def Parts.ofFloat (x : Float) : Parts :=
  match x.toModel.unpack with
  | .notANumber => .nan
  | .infinity s => .infinite (s matches .negative)
  | .zero s => .finite (s matches .negative) 0 0
  | .finite s m q _ => .finite (s matches .negative) m q

/-- What a number stands for: a rational, one of the infinities, or nothing. -/
inductive Value
  | nan
  | negInf
  | finite (q : Rat)
  | posInf
deriving DecidableEq

def dyadic (m : Int) (q : Int) : Rat :=
  if 0 ≤ q then (m * (Nat.pow 2 q.toNat : Int) : Int) else mkRat m (Nat.pow 2 (-q).toNat)

def fitsWord (n : Int) : Bool := -9223372036854775808 ≤ n ∧ n ≤ 9223372036854775807

def Parts.value : Parts → Value
  | .nan => .nan
  | .infinite true => .negInf
  | .infinite false => .posInf
  | .finite negative m q => .finite (dyadic (if negative then -(m : Int) else m) q)

/-- The order of the values; nothing is comparable with `nan`, not even itself. -/
def Value.compare? : Value → Value → Option Ordering
  | .nan, _ => none
  | _, .nan => none
  | .finite a, .finite b => some (if a < b then .lt else if a = b then .eq else .gt)
  | .negInf, .negInf => some .eq
  | .negInf, _ => some .lt
  | _, .negInf => some .gt
  | .posInf, .posInf => some .eq
  | .posInf, _ => some .gt
  | _, .posInf => some .lt

theorem Value.compare?_eq_some_eq {a b : Value} :
    a.compare? b = some .eq ↔ a = b ∧ a ≠ .nan := by
  cases a <;> cases b <;> simp [Value.compare?]
  · grind

namespace Number

def value : Number → Value
  | .int n => .finite n
  | .float x => (Parts.ofFloat x).value

def compare? (a b : Number) : Option Ordering := a.value.compare? b.value

/-- Equality by value, which `nan` has with no number. -/
def same (a b : Number) : Bool := a.compare? b == some .eq

theorem same_iff {a b : Number} : a.same b = true ↔ a.value = b.value ∧ a.value ≠ .nan := by
  simp [same, compare?, Value.compare?_eq_some_eq]

instance : LT Number := ⟨fun a b => a.compare? b = some .lt⟩

instance : LE Number := ⟨fun a b => a.compare? b = some .lt ∨ a.compare? b = some .eq⟩

instance : DecidableLT Number := fun a b => inferInstanceAs (Decidable (a.compare? b = some .lt))

instance : DecidableLE Number := fun a b =>
  inferInstanceAs (Decidable (a.compare? b = some .lt ∨ a.compare? b = some .eq))

def toFloat : Number → Float
  | .int n => .ofInt n
  | .float x => x

def combine (exact : Int → Int → Int) (rounded : Float → Float → Float) : Number → Number → Number
  | .int m, .int n => .int (exact m n)
  | a, b => .float (rounded a.toFloat b.toFloat)

instance : Add Number := ⟨combine (· + ·) (· + ·)⟩

instance : Sub Number := ⟨combine (· - ·) (· - ·)⟩

instance : Mul Number := ⟨combine (· * ·) (· * ·)⟩

instance : NatCast Number := ⟨fun n => .int n⟩

theorem natCast_def (n : Nat) : (n : Number) = .int n := rfl

theorem value_int (n : Int) : (Number.int n).value = .finite n := rfl

end Number

end LedgerQuery
