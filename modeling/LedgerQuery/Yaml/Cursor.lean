import LedgerQuery.Yaml.Error

namespace LedgerQuery.Yaml

def ending : Char := '\x00'

def isBreak (c : Char) : Bool :=
  c = '\n' ∨ c = '\r' ∨ c = '\x85' ∨ c = '\u2028' ∨ c = '\u2029'

def isBreakOrEnd (c : Char) : Bool := c = ending ∨ isBreak c

def isSpaceOrEnd (c : Char) : Bool := c = ' ' ∨ isBreakOrEnd c

def isGapOrEnd (c : Char) : Bool := c = '\t' ∨ isSpaceOrEnd c

def isWordChar (c : Char) : Bool := c.isAlphanum ∨ c = '-' ∨ c = '_'

structure Cursor where
  rest : List Char
  index : Nat
  line : Nat
  column : Nat

namespace Cursor

def ofText (text : List Char) : Cursor := ⟨text, 0, 0, 0⟩

def peek (c : Cursor) (n : Nat) : Char := c.rest.getD n ending

def head (c : Cursor) : Char := c.peek 0

/-- One character on. A line ends after a break, where a return and a line feed count as one; a byte
order mark takes no column. -/
def next (c : Cursor) : Cursor :=
  match c.rest with
  | [] => c
  | ch :: rest =>
    if isBreak ch && !(ch = '\r' && rest.head? = some '\n') then ⟨rest, c.index + 1, c.line + 1, 0⟩
    else if ch = '\uFEFF' then ⟨rest, c.index + 1, c.line, c.column⟩
    else ⟨rest, c.index + 1, c.line, c.column + 1⟩

def drop (c : Cursor) : Nat → Cursor
  | 0 => c
  | n + 1 => c.next.drop n

def span (c : Cursor) (p : Char → Bool) : List Char × Cursor :=
  let run := c.rest.takeWhile p
  (run, c.drop run.length)

def skip (c : Cursor) (p : Char → Bool) : Cursor := (c.span p).2

def skipLine (c : Cursor) : Cursor := c.skip fun ch => !isBreak ch

def lineBreak (c : Cursor) : Option (Char × Cursor) :=
  if c.head = '\u2028' ∨ c.head = '\u2029' then some (c.head, c.next)
  else if isBreak c.head then
    some ('\n', if c.head = '\r' ∧ c.peek 1 = '\n' then c.drop 2 else c.next)
  else none

def skipIgnoredLine (c : Cursor) : Option Cursor :=
  let c := c.skip (· = ' ')
  let c := if c.head = '#' then c.skipLine else c
  match c.lineBreak with
  | some (_, c) => some c
  | none => if c.head = ending then some c else none

/-- Whether three hyphens or points stand here by themselves. -/
def atMarker (c : Cursor) : Bool :=
  (c.rest.take 3 = ['-', '-', '-'] ∨ c.rest.take 3 = ['.', '.', '.']) && isGapOrEnd (c.peek 3)

def error {α : Type} (c : Cursor) : Except Error α := .error (.token c.line c.column)

end Cursor

end LedgerQuery.Yaml
