import LedgerQuery.Yaml.Token

namespace LedgerQuery.Yaml.Block

inductive Chomping
  | clip
  | strip
  | keep
deriving DecidableEq

def chomping? : Char → Option Chomping
  | '+' => some .keep
  | '-' => some .strip
  | _ => none

def increment? (c : Cursor) : Except Error (Option Nat × Cursor) :=
  if c.head = '0' then c.error
  else if c.head.isDigit then .ok (some (c.head.toNat - 48), c.next)
  else .ok (none, c)

def indicators (c : Cursor) : Except Error ((Chomping × Option Nat) × Cursor) :=
  match chomping? c.head with
  | some chomping => do
    let (increment, c) ← increment? c.next
    return ((chomping, increment), c)
  | none => do
    let (increment, c) ← increment? c
    match increment, chomping? c.head with
    | some n, some chomping => return ((chomping, some n), c.next)
    | _, _ => return ((.clip, increment), c)

def leading : Nat → List Char → Nat → Cursor → List Char × Nat × Cursor
  | 0, acc, greatest, c => (acc, greatest, c)
  | fuel + 1, acc, greatest, c =>
    if c.head = ' ' then leading fuel acc (max greatest c.next.column) c.next
    else
      match c.lineBreak with
      | some (b, c) => leading fuel (acc ++ [b]) greatest c
      | none => (acc, greatest, c)

def indent (n : Nat) (c : Cursor) : Cursor :=
  c.drop ((c.rest.takeWhile (· = ' ')).length.min (n - c.column))

def breaks (n : Nat) : Nat → List Char → Cursor → List Char × Cursor
  | 0, acc, c => (acc, c)
  | fuel + 1, acc, c =>
    let c := indent n c
    match c.lineBreak with
    | some (b, c) => breaks n fuel (acc ++ [b]) c
    | none => (acc, c)

structure Reading where
  chars : List Char
  last : List Char
  trailing : List Char

def continues (n : Nat) (c : Cursor) : Bool := c.column = n ∧ c.head ≠ ending

def isBlank (ch : Char) : Bool := ch = ' ' ∨ ch = '\t'

/-- The lines at the indentation. Two of them join in a folded scalar unless one starts with a blank. -/
def lines (folded : Bool) (n : Nat) : Nat → Reading → Cursor → Reading × Cursor
  | 0, r, c => (r, c)
  | fuel + 1, r, c =>
    if continues n c then
      let solid := !isBlank c.head
      let (line, c) := c.span fun ch => !isBreak ch
      let (last, c) := match c.lineBreak with
        | some (b, c) => ([b], c)
        | none => ([], c)
      let (bs, c') := breaks n (c.rest.length + 1) [] c
      let chars := r.chars ++ r.trailing ++ line
      if continues n c' then
        let join := folded ∧ last = ['\n'] ∧ solid ∧ !isBlank c'.head
        let glue := if join then (if bs = [] then [' '] else []) else last
        lines folded n fuel ⟨chars ++ glue, [], bs⟩ c'
      else (⟨chars, last, bs⟩, c')
    else (r, c)

def Chomping.apply (chomping : Chomping) (r : Reading) : List Char :=
  match chomping with
  | .strip => r.chars
  | .clip => r.chars ++ r.last
  | .keep => r.chars ++ r.last ++ r.trailing

def scalar (outer : Int) (c : Cursor) : Except Error (Content × Cursor) := do
  let folded : Bool := c.head = '>'
  let ((chomping, increment), c) ← indicators c.next
  if !isSpaceOrEnd c.head then c.error
  else
    match c.skipIgnoredLine with
    | none => c.error
    | some c =>
      let least := (outer + 1).toNat.max 1
      let (n, bs, c) := match increment with
        | some k =>
          let n := least + k - 1
          let (bs, c) := breaks n (c.rest.length + 1) [] c
          (n, bs, c)
        | none =>
          let (bs, greatest, c) := leading (c.rest.length + 1) [] 0 c
          (least.max greatest, bs, c)
      let (r, c) := lines folded n (c.rest.length + 1) ⟨[], [], bs⟩ c
      return (⟨String.ofList (chomping.apply r), true⟩, c)

end LedgerQuery.Yaml.Block
