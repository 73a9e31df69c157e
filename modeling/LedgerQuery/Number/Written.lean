import LedgerQuery.Number.Shortest

namespace LedgerQuery

structure FloatFormat where
  leastFixed : Int
  greatestFixed : Int
  exponentDigits : Nat

/-- Numbers are written with a point from 0.0001 up to sixteen whole digits, and else with an exponent
of two digits or more. -/
def Number.format : FloatFormat := ⟨-4, 15, 2⟩

def digitsOf (n : Nat) : List Char := Nat.toDigits 10 n

def padLeft (n : Nat) (cs : List Char) : List Char := List.replicate (n - cs.length) '0' ++ cs

def dropTrailingZeros (cs : List Char) : List Char := (cs.reverse.dropWhile (· = '0')).reverse

def withPoint (ds : List Char) (point : Int) : List Char :=
  if point ≤ 0 then '0' :: '.' :: List.replicate (-point).toNat '0' ++ ds
  else
    let whole := ds.take point.toNat
    let rest := ds.drop point.toNat
    whole ++ List.replicate (point.toNat - whole.length) '0' ++ '.' :: (if rest = [] then ['0'] else rest)

def FloatFormat.exponent (f : FloatFormat) (e : Int) : List Char :=
  'e' :: (if e < 0 then '-' else '+') :: padLeft f.exponentDigits (digitsOf e.natAbs)

def FloatFormat.scientific (f : FloatFormat) (ds : List Char) (e : Int) : List Char :=
  match ds with
  | [] => []
  | [d] => d :: f.exponent e
  | d :: rest => d :: '.' :: rest ++ f.exponent e

def FloatFormat.positive (f : FloatFormat) (d : Decimal) : List Char :=
  let all := digitsOf d.digits
  let e := d.exponent + all.length - 1
  let ds := dropTrailingZeros all
  if f.leastFixed ≤ e ∧ e ≤ f.greatestFixed then withPoint ds (e + 1) else f.scientific ds e

def FloatFormat.write (f : FloatFormat) (x : Float) : String :=
  let sign (negative : Bool) : String := if negative then "-" else ""
  match Parts.ofFloat x with
  | .nan => "nan"
  | .infinite negative => sign negative ++ "inf"
  | .finite negative m q =>
    sign negative ++
      if m = 0 then "0.0" else String.ofList (f.positive (Shortest.Target.decimal ⟨m, q⟩))

def Number.text : Number → String
  | .int n => toString n
  | .float x => Number.format.write x

def roundHalfEven (n d : Nat) : Nat :=
  let c := n / d
  let twice := 2 * (n % d)
  if twice < d ∨ (twice = d ∧ c % 2 = 0) then c else c + 1

def Float.twoPlaces (x : Float) : String :=
  let sign (negative : Bool) : String := if negative then "-" else ""
  match Parts.ofFloat x with
  | .nan => "nan"
  | .infinite negative => sign negative ++ "inf"
  | .finite negative m q =>
    let hundredths := roundHalfEven (m * 100 * Nat.pow 2 q.toNat) (Nat.pow 2 (-q).toNat)
    sign negative ++ String.ofList (digitsOf (hundredths / 100)) ++ "." ++
      String.ofList (padLeft 2 (digitsOf (hundredths % 100)))

def Number.twoPlaces (n : Number) : String := Float.twoPlaces n.toFloat

end LedgerQuery
