import LedgerQuery.Document.Moment
import LedgerQuery.Number.Reading

namespace LedgerQuery.Yaml.Timestamp

abbrev Step (α : Type) := List Char → Option (α × List Char)

def digits (least most : Nat) : Step Nat := fun cs =>
  let ds := (cs.take most).takeWhile Char.isDigit
  if least ≤ ds.length then some (digitsValue 10 ds, cs.drop ds.length) else none

def sign (c : Char) : List Char → Option (List Char)
  | d :: cs => if d = c then some cs else none
  | [] => none

def isGap (c : Char) : Bool := c = ' ' ∨ c = '\t'

def gap : List Char → Option (List Char)
  | 'T' :: cs | 't' :: cs => some cs
  | cs => if cs.head?.any isGap then some (cs.dropWhile isGap) else none

def date : Step Date := fun cs => do
  let (year, cs) ← digits 4 4 cs
  let (month, cs) ← digits 1 2 (← sign '-' cs)
  let (day, cs) ← digits 1 2 (← sign '-' cs)
  return (⟨year, month, day⟩, cs)

def fraction : List Char → Nat × List Char
  | '.' :: cs =>
    let ds := cs.takeWhile Char.isDigit
    let six := ds.take 6
    (digitsValue 10 six * Nat.pow 10 (6 - six.length), cs.drop ds.length)
  | cs => (0, cs)

def offset? (cs : List Char) : Option (Option Int) :=
  match cs, cs.dropWhile isGap with
  | [], _ => some none
  | _, ['Z'] => some (some 0)
  | _, c :: cs =>
    if c = '+' ∨ c = '-' then do
      let (hours, cs) ← digits 1 2 cs
      let (minutes, cs) ← match cs with
        | ':' :: cs => digits 2 2 cs
        | cs => some (0, cs)
      if cs = [] then return some (signed (c = '-') (60 * hours + minutes)) else none
    else none
  | _, [] => none

def time? (cs : List Char) : Option TimeOfDay := do
  let (hour, cs) ← digits 1 2 cs
  let (minute, cs) ← digits 2 2 (← sign ':' cs)
  let (second, cs) ← digits 2 2 (← sign ':' cs)
  let (microsecond, cs) := fraction cs
  return ⟨hour, minute, second, microsecond, ← offset? cs⟩

def read? (cs : List Char) : Option Moment := do
  let (d, rest) ← date cs
  match rest with
  | [] => return ⟨d, none⟩
  | rest => return ⟨d, some (← time? (← gap rest))⟩

/-- Whether a plain text is a moment by its form; a date by itself has all its digits then. -/
def hasForm (cs : List Char) : Bool :=
  match read? cs with
  | some ⟨_, none⟩ => cs.length = 10
  | m => m.isSome

end LedgerQuery.Yaml.Timestamp
