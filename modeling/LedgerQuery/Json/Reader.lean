import LedgerQuery.Json.Basic
import LedgerQuery.Number.Reading

namespace LedgerQuery.Json.Reader

abbrev Step (α : Type) := List Char → Option (α × List Char)

def isSpace (c : Char) : Bool := c = ' ' ∨ c = '\t' ∨ c = '\n' ∨ c = '\r'

def skip (cs : List Char) : List Char := cs.dropWhile isSpace

def word : List Char → List Char → Option (List Char)
  | [], cs => some cs
  | w :: ws, c :: cs => if w = c then word ws cs else none
  | _ :: _, [] => none

def unit : Step Nat
  | a :: b :: c :: d :: rest =>
    if [a, b, c, d].all isHexDigit then some (digitsValue 16 [a, b, c, d], rest) else none
  | _ => none

/-- The character of a code point. A lone surrogate has none, and texts hold characters only, so the replacement
character stands for it, and texts that differ in lone surrogates alone are read as one. -/
def charOf (n : Nat) : Char := if n.isValidChar then Char.ofNat n else '\uFFFD'

/-- The character of one escaped unit, or of two that form a surrogate pair. -/
def escapedUnit (cs : List Char) : Option (Char × List Char) := do
  let (n, rest) ← unit cs
  if 0xD800 ≤ n ∧ n < 0xDC00 then
    match rest with
    | '\x5c' :: 'u' :: more =>
      match unit more with
      | some (m, rest') =>
        if 0xDC00 ≤ m ∧ m < 0xE000 then
          some (charOf (0x10000 + (n - 0xD800) * 0x400 + (m - 0xDC00)), rest')
        else some (charOf n, rest)
      | none => some (charOf n, rest)
    | _ => some (charOf n, rest)
  else some (charOf n, rest)

def shortEscape? : Char → Option Char
  | '\x22' => some '\x22'
  | '\x5c' => some '\x5c'
  | '/' => some '/'
  | 'b' => some '\x08'
  | 'f' => some '\x0c'
  | 'n' => some '\n'
  | 'r' => some '\r'
  | 't' => some '\t'
  | _ => none

def stringTail : Nat → List Char → Step String
  | 0, _, _ => none
  | _ + 1, _, [] => none
  | n + 1, acc, c :: cs =>
    if c = '\x22' then some (String.ofList acc.reverse, cs)
    else if c.toNat < 0x20 then none
    else if c = '\x5c' then
      match cs with
      | [] => none
      | 'u' :: rest =>
        match escapedUnit rest with
        | some (d, rest') => stringTail n (d :: acc) rest'
        | none => none
      | e :: rest =>
        match shortEscape? e with
        | some d => stringTail n (d :: acc) rest
        | none => none
    else stringTail n (c :: acc) cs

def quotedString : Step String
  | '\x22' :: cs => stringTail (cs.length + 1) [] cs
  | _ => none

def wholePart : Step (List Char)
  | '0' :: cs => some (['0'], cs)
  | cs =>
    match cs.takeWhile Char.isDigit with
    | [] => none
    | ds => some (ds, cs.drop ds.length)

def fractionPart : List Char → List Char × List Char
  | '.' :: cs =>
    match cs.takeWhile Char.isDigit with
    | [] => ([], '.' :: cs)
    | ds => (ds, cs.drop ds.length)
  | cs => ([], cs)

def exponentPart (cs : List Char) : Option Int × List Char :=
  match cs with
  | c :: rest =>
    if c = 'e' ∨ c = 'E' then
      let (negative, body) := readSign rest
      match body.takeWhile Char.isDigit with
      | [] => (none, cs)
      | ds => (some (signed negative (digitsValue 10 ds)), body.drop ds.length)
    else (none, cs)
  | [] => (none, [])

def unsigned (negative : Bool) (cs : List Char) : Option (Number × List Char) := do
  let (whole, afterWhole) ← wholePart cs
  let (fraction, afterFraction) := fractionPart afterWhole
  let (e, rest) := exponentPart afterFraction
  match fraction, e with
  | [], none =>
    if whole.length ≤ maxDigits then some (.int (signed negative (digitsValue 10 whole)), rest) else none
  | ds, e =>
    some (.float (nearest negative (digitsValue 10 (whole ++ ds)) (e.getD 0 - ds.length)), rest)

def number : Step Number
  | '-' :: cs =>
    match word ['I', 'n', 'f', 'i', 'n', 'i', 't', 'y'] cs with
    | some rest => some (.float (-infinity), rest)
    | none => unsigned true cs
  | cs => unsigned false cs

def literals : List (String × Json) :=
  [("null", .null), ("true", .bool true), ("false", .bool false),
    ("NaN", .number (.float notANumber)), ("Infinity", .number (.float infinity))]

def literal (cs : List Char) : Option (Json × List Char) :=
  literals.findSome? fun (w, v) => (word w.toList cs).map fun rest => (v, rest)

mutual

def value : Nat → Step Json
  | 0, _ => none
  | n + 1, cs =>
    match skip cs with
    | '\x22' :: rest => (quotedString ('\x22' :: rest)).map fun (s, rest') => (.string s, rest')
    | '[' :: rest =>
      match skip rest with
      | ']' :: rest' => some (.array [], rest')
      | _ => (elements n [] rest).map fun (xs, rest') => (.array xs, rest')
    | '{' :: rest =>
      match skip rest with
      | '}' :: rest' => some (.object [], rest')
      | _ => (members n [] rest).map fun (ms, rest') => (.object ms, rest')
    | cs =>
      match literal cs with
      | some r => some r
      | none => (number cs).map fun (x, rest) => (.number x, rest)

def elements : Nat → List Json → Step (List Json)
  | 0, _, _ => none
  | n + 1, acc, cs =>
    match value n cs with
    | none => none
    | some (x, rest) =>
      match skip rest with
      | ',' :: rest' => elements n (x :: acc) rest'
      | ']' :: rest' => some ((x :: acc).reverse, rest')
      | _ => none

def members : Nat → List (String × Json) → Step (List (String × Json))
  | 0, _, _ => none
  | n + 1, acc, cs =>
    match quotedString (skip cs) with
    | none => none
    | some (key, rest) =>
      match skip rest with
      | ':' :: rest' =>
        match value n rest' with
        | none => none
        | some (x, rest'') =>
          match skip rest'' with
          | ',' :: more => members n (insert key x acc) more
          | '}' :: more => some (insert key x acc, more)
          | _ => none
      | _ => none

end

end Reader

/-- The value that a text stands for; `NaN` and the infinities are numbers, and of two members of one name the later
gives the value, in the place of the earlier. The text may be nested to any depth: the stack is taken to suffice. -/
def read? (text : String) : Option Json :=
  let cs := text.toList
  match Reader.value (2 * cs.length + 2) cs with
  | some (v, rest) => if Reader.skip rest = [] then some v else none
  | none => none

end LedgerQuery.Json
