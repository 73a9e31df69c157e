import LedgerQuery.Number.Basic
import LedgerQuery.Text.Blank

namespace LedgerQuery

def digitsValue (base : Nat) (cs : List Char) : Nat :=
  cs.foldl (fun n c =>
    base * n + (if c.isDigit then c.toNat - 48 else c.toLower.toNat - 87)) 0

def isHexDigit (c : Char) : Bool :=
  c.isDigit || ('a' ≤ c && c ≤ 'f') || ('A' ≤ c && c ≤ 'F')

def readSign : List Char → Bool × List Char
  | '-' :: cs => (true, cs)
  | '+' :: cs => (false, cs)
  | cs => (false, cs)

/-- The text without its underscores, if each stands between two digits. -/
def dropUnderscores : List Char → Option (List Char)
  | [] => some []
  | ['_'] => none
  | [c] => some [c]
  | c :: '_' :: d :: cs =>
    if c.isDigit && d.isDigit then (c :: ·) <$> dropUnderscores (d :: cs) else none
  | c :: cs => if c = '_' then none else (c :: ·) <$> dropUnderscores cs

def signed (negative : Bool) (n : Nat) : Int := if negative then -n else n

/-- The digits that a whole number in a text may have at most. -/
def maxDigits : Nat := 4300

def readNat? (cs : List Char) : Option Nat :=
  if cs ≠ [] ∧ cs.all Char.isDigit then some (digitsValue 10 cs) else none

/-- A whole number: white space around it, a sign, single underscores between digits, and a fraction
of zeros are all allowed. -/
def readInt? (s : String) : Option Int := do
  let (negative, body) := readSign (Text.strip Text.isWhiteSpace s.toList)
  let whole := body.takeWhile (· ≠ '.')
  let n ← readNat? (← dropUnderscores whole)
  match body.drop whole.length with
  | [] => some (signed negative n)
  | _ :: zeros => if zeros ≠ [] ∧ zeros.all (· = '0') then some (signed negative n) else none

/-- The double nearest to `digits · 10 ^ exponent`. -/
def nearest (negative : Bool) (digits : Nat) (exponent : Int) : Float :=
  let x := Float.ofScientific digits (exponent < 0) exponent.natAbs
  if negative then -x else x

def readExponent? : List Char → Option Int
  | [] => some 0
  | c :: cs =>
    if c = 'e' ∨ c = 'E' then
      let (negative, ds) := readSign cs
      (signed negative) <$> readNat? ds
    else none

def readDecimal? (negative : Bool) (cs : List Char) : Option Float := do
  let whole := cs.takeWhile Char.isDigit
  let afterWhole := cs.drop whole.length
  let (fraction, tail) := match afterWhole with
    | '.' :: ds => let f := ds.takeWhile Char.isDigit; (f, ds.drop f.length)
    | _ => ([], afterWhole)
  guard (whole ≠ [] ∨ fraction ≠ [])
  let e ← readExponent? tail
  some (nearest negative (digitsValue 10 (whole ++ fraction)) (e - fraction.length))

def infinity : Float := 1.0 / 0.0

def notANumber : Float := 0.0 / 0.0

/-- A double: blanks around it, a sign, a decimal with underscores between digits, or in any case of
letters the words `inf`, `infinity` and `nan`. -/
def readFloatAmong? (blank : Char → Bool) (cs : List Char) : Option Float :=
  let (negative, body) := readSign (Text.strip blank cs)
  let word := String.ofList (body.map Char.toLower)
  if word = "inf" ∨ word = "infinity" then some (if negative then -infinity else infinity)
  else if word = "nan" then some notANumber
  else dropUnderscores body >>= readDecimal? negative

def readFloat? (s : String) : Option Float := readFloatAmong? Text.isWhiteSpace s.toList

end LedgerQuery
