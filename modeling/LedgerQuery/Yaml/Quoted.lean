import LedgerQuery.Number.Reading
import LedgerQuery.Yaml.Token

namespace LedgerQuery.Yaml.Quoted

def shortEscape? : Char → Option Char
  | '0' => some '\x00'
  | 'a' => some '\x07'
  | 'b' => some '\x08'
  | 't' | '\t' => some '\t'
  | 'n' => some '\n'
  | 'v' => some '\x0b'
  | 'f' => some '\x0c'
  | 'r' => some '\r'
  | 'e' => some '\x1b'
  | ' ' => some ' '
  | '\x22' => some '\x22'
  | '\x5c' => some '\x5c'
  | '/' => some '/'
  | 'N' => some '\x85'
  | '_' => some '\xa0'
  | 'L' => some '\u2028'
  | 'P' => some '\u2029'
  | _ => none

def escapeLength? : Char → Option Nat
  | 'x' => some 2
  | 'u' => some 4
  | 'U' => some 8
  | _ => none

structure Reading where
  chars : List Char
  sound : Bool

def Reading.push (r : Reading) (cs : List Char) : Reading := { r with chars := cs.reverse ++ r.chars }

def numericEscape (r : Reading) (n : Nat) (c : Cursor) : Except Error (Reading × Cursor) :=
  let ds := c.rest.take n
  if ds.length = n ∧ ds.all isHexDigit then
    let code := digitsValue 16 ds
    if code.isValidChar then .ok (r.push [Char.ofNat code], c.drop n)
    else if code < 0x110000 then .ok (⟨'\uFFFD' :: r.chars, false⟩, c.drop n)
    else .error (.scalar (.codePoint code))
  else c.error

def breaks : Nat → List Char → Cursor → Except Error (List Char × Cursor)
  | 0, _, c => c.error
  | fuel + 1, acc, c =>
    if c.atMarker then c.error
    else
      let c := c.skip fun ch => ch = ' ' ∨ ch = '\t'
      match c.lineBreak with
      | some (b, c) => breaks fuel (acc ++ [b]) c
      | none => .ok (acc, c)

def escape (r : Reading) (c : Cursor) : Except Error (Reading × Cursor) :=
  match shortEscape? c.head, escapeLength? c.head with
  | some ch, _ => .ok (r.push [ch], c.next)
  | none, some n => numericEscape r n c.next
  | none, none =>
    match c.lineBreak with
    | some (_, c) => do
      let (bs, c) ← breaks (c.rest.length + 1) [] c
      return (r.push bs, c)
    | none => c.error

def isOrdinary (ch : Char) : Bool :=
  !(ch = '\x27' ∨ ch = '\x22' ∨ ch = '\x5c' ∨ isGapOrEnd ch)

def solid (double : Bool) : Nat → Reading → Cursor → Except Error (Reading × Cursor)
  | 0, _, c => c.error
  | fuel + 1, r, c =>
    let (run, c) := c.span isOrdinary
    let r := r.push run
    if !double ∧ c.head = '\x27' ∧ c.peek 1 = '\x27' then solid double fuel (r.push ['\x27']) (c.drop 2)
    else if (double ∧ c.head = '\x27') ∨ (!double ∧ (c.head = '\x22' ∨ c.head = '\x5c')) then
      solid double fuel (r.push [c.head]) c.next
    else if double ∧ c.head = '\x5c' then do
      let (r, c) ← escape r c.next
      solid double fuel r c
    else .ok (r, c)

def spaces (r : Reading) (c : Cursor) : Except Error (Reading × Cursor) :=
  let (blanks, c) := c.span fun ch => ch = ' ' ∨ ch = '\t'
  if c.head = ending then c.error
  else
    match c.lineBreak with
    | none => .ok (r.push blanks, c)
    | some (b, c) => do
      let (bs, c) ← breaks (c.rest.length + 1) [] c
      let lead := if b ≠ '\n' then [b] else if bs = [] then [' '] else []
      return (r.push (lead ++ bs), c)

def body (double : Bool) (quote : Char) : Nat → Reading → Cursor → Except Error (Reading × Cursor)
  | 0, _, c => c.error
  | fuel + 1, r, c => do
    let (r, c) ← solid double (c.rest.length + 1) r c
    if c.head = quote then return (r, c)
    else
      let (r, c) ← spaces r c
      body double quote fuel r c

def scalar (c : Cursor) : Except Error (Content × Cursor) := do
  let quote := c.head
  let (r, c) ← body (quote = '\x22') quote (c.rest.length + 1) ⟨[], true⟩ c.next
  return (⟨String.ofList r.chars.reverse, r.sound⟩, c.next)

end LedgerQuery.Yaml.Quoted
