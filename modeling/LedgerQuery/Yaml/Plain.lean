import LedgerQuery.Yaml.Token

namespace LedgerQuery.Yaml.Plain

/-- The characters with a meaning of their own inside flow collections, beside the question mark. -/
def isFlowSign (ch : Char) : Bool := ch = ',' ∨ ch = '[' ∨ ch = ']' ∨ ch = '{' ∨ ch = '}'

def runLength (flow : Bool) : List Char → Nat
  | [] => 0
  | ch :: rest =>
    let follower := rest.headD ending
    let closes := isGapOrEnd ch ∨ (ch = ':' ∧ (isGapOrEnd follower ∨ (flow ∧ isFlowSign follower))) ∨
      (flow ∧ (isFlowSign ch ∨ ch = '?'))
    if closes then 0 else runLength flow rest + 1

def breaks : Nat → List Char → Cursor → Option (List Char) × Cursor
  | 0, acc, c => (some acc, c)
  | fuel + 1, acc, c =>
    if c.head = ' ' then breaks fuel acc c.next
    else
      match c.lineBreak with
      | some (b, c) => if c.atMarker then (none, c) else breaks fuel (acc ++ [b]) c
      | none => (some acc, c)

/-- What lies between two runs, and whether that reaches into another line. -/
structure Gap where
  chars : List Char
  crossed : Bool

def gap (c : Cursor) : Gap × Cursor :=
  let (blanks, c) := c.span (· = ' ')
  match c.lineBreak with
  | none => (⟨blanks, false⟩, c)
  | some (b, c) =>
    if c.atMarker then (⟨[], true⟩, c)
    else
      match breaks (c.rest.length + 1) [] c with
      | (none, c) => (⟨[], true⟩, c)
      | (some bs, c) =>
        let lead := if b ≠ '\n' then [b] else if bs = [] then [' '] else []
        (⟨lead ++ bs, true⟩, c)

structure Reading where
  chars : List Char
  gap : Gap

def runs (flow : Bool) (outer : Int) : Nat → Reading → Cursor → Reading × Cursor
  | 0, r, c => (r, c)
  | fuel + 1, r, c =>
    let n := if c.head = '#' then 0 else runLength flow c.rest
    if n = 0 then (r, c)
    else
      let chars := r.chars ++ r.gap.chars ++ c.rest.take n
      let (g, c) := gap (c.drop n)
      let left : Bool := !flow ∧ (c.column : Int) < outer + 1
      if g.chars = [] ∨ c.head = '#' ∨ left then (⟨chars, g⟩, c)
      else runs flow outer fuel ⟨chars, g⟩ c

/-- A plain scalar, and whether a new line has begun behind it. -/
def scalar (flow : Bool) (outer : Int) (c : Cursor) : Content × Bool × Cursor :=
  let (r, c) := runs flow outer (c.rest.length + 1) ⟨[], ⟨[], false⟩⟩ c
  (⟨String.ofList r.chars, true⟩, r.gap.crossed, c)

end LedgerQuery.Yaml.Plain
