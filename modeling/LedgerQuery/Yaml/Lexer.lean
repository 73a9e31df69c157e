import LedgerQuery.Yaml.Block
import LedgerQuery.Yaml.Plain
import LedgerQuery.Yaml.Property
import LedgerQuery.Yaml.Quoted

namespace LedgerQuery.Yaml

structure KeyStart where
  tokens : Nat
  required : Bool
  index : Nat
  line : Nat
  column : Nat

structure Lexer where
  cursor : Cursor
  tokens : Array Token
  depth : Nat
  /-- The column of the innermost block collection, `-1` outside of all. -/
  indent : Int
  outer : List Int
  keyAllowed : Bool
  /-- The candidates by the depth they are at, one for each. -/
  candidates : List (Nat × KeyStart)

namespace Lexer

abbrev Step := Lexer → Except Error Lexer

def start (text : List Char) : Lexer := ⟨.ofText text, #[], 0, -1, [], true, []⟩

def push (t : Token) (l : Lexer) : Lexer := { l with tokens := l.tokens.push t }

def moveTo (c : Cursor) (l : Lexer) : Lexer := { l with cursor := c }

def forward (n : Nat) (l : Lexer) : Lexer := l.moveTo (l.cursor.drop n)

def column (l : Lexer) : Int := l.cursor.column

def fail {α : Type} (l : Lexer) : Except Error α := l.cursor.error

/-- Past blanks, comments and empty lines. A new line allows a key again, outside flow collections. -/
def skipToToken : Nat → Lexer → Lexer
  | 0, l => l
  | fuel + 1, l =>
    let c := l.cursor.skip (· = ' ')
    let c := if c.head = '#' then c.skipLine else c
    match c.lineBreak with
    | some (_, c) => skipToToken fuel { l with cursor := c, keyAllowed := l.keyAllowed || l.depth = 0 }
    | none => l.moveTo c

def skipByteOrderMark (l : Lexer) : Lexer :=
  if l.cursor.index = 0 ∧ l.cursor.head = '\uFEFF' then l.forward 1 else l

def isStale (l : Lexer) (k : KeyStart) : Bool :=
  k.line ≠ l.cursor.line ∨ 1024 < l.cursor.index - k.index

def dropStale : Step := fun l =>
  if l.candidates.any fun (_, k) => l.isStale k && k.required then l.fail
  else .ok { l with candidates := l.candidates.filter fun (_, k) => !l.isStale k }

def candidate? (l : Lexer) : Option KeyStart :=
  (l.candidates.find? fun (d, _) => d = l.depth).map (·.2)

def forgetCandidate (l : Lexer) : Lexer :=
  { l with candidates := l.candidates.filter fun (d, _) => d ≠ l.depth }

def dropCandidate : Step := fun l =>
  if l.candidate?.any (·.required) then l.fail else .ok l.forgetCandidate

def noteCandidate : Step := fun l =>
  if l.keyAllowed then do
    let l ← l.dropCandidate
    let required : Bool := l.depth = 0 ∧ l.indent = l.column
    let k : KeyStart := ⟨l.tokens.size, required, l.cursor.index, l.cursor.line, l.cursor.column⟩
    return { l with candidates := (l.depth, k) :: l.candidates }
  else .ok l

def allowKey (allowed : Bool) (l : Lexer) : Lexer := { l with keyAllowed := allowed }

def closeTo (column : Int) (l : Lexer) : Lexer :=
  if l.depth ≠ 0 then l else go l.outer.length l
where
  go : Nat → Lexer → Lexer
    | 0, l => l
    | n + 1, l =>
      if l.indent > column then
        match l.outer with
        | [] => l
        | i :: rest => go n { l with indent := i, outer := rest, tokens := l.tokens.push .blockEnd }
      else l

def opensAt (column : Int) (l : Lexer) : Bool := l.indent < column

def openAt (column : Int) (l : Lexer) : Lexer :=
  { l with outer := l.indent :: l.outer, indent := column }

def openBlock (t : Token) (l : Lexer) : Lexer :=
  if l.opensAt l.column then (l.openAt l.column).push t else l

def endBlocks : Step := fun l => do
  let l ← (l.closeTo (-1)).dropCandidate
  return l.allowKey false

def streamEnd : Step := fun l => do
  let l ← l.endBlocks
  return { l with candidates := [] }.push .streamEnd

def directiveLine : Step := fun l => do
  let l ← l.endBlocks
  let (d, c) ← directive l.cursor
  return (l.push (.directive d)).moveTo c

def documentMarker (t : Token) : Step := fun l => do
  let l ← l.endBlocks
  return (l.push t).forward 3

def flowStart (t : Token) : Step := fun l => do
  let l ← l.noteCandidate
  return ({ l with depth := l.depth + 1 }.allowKey true |>.push t).forward 1

def flowEnd (t : Token) : Step := fun l => do
  let l ← l.dropCandidate
  if l.depth = 0 then l.fail
  else return ({ l with depth := l.depth - 1 }.allowKey false |>.push t).forward 1

def flowItem : Step := fun l => do
  let l ← (l.allowKey true).dropCandidate
  return (l.push .flowItem).forward 1

def blockItem : Step := fun l => do
  let l ← if l.depth ≠ 0 then pure l
    else if l.keyAllowed then pure (l.openBlock .blockSequenceStart)
    else l.fail
  let l ← (l.allowKey true).dropCandidate
  return (l.push .blockItem).forward 1

def explicitKey : Step := fun l => do
  let l ← if l.depth ≠ 0 then pure l
    else if l.keyAllowed then pure (l.openBlock .blockMappingStart)
    else l.fail
  let l ← (l.allowKey (l.depth = 0)).dropCandidate
  return (l.push .key).forward 1

/-- Puts the token of a key, and of the mapping that it may begin, where the key begins. -/
def insertKey (k : KeyStart) (l : Lexer) : Lexer :=
  let l := { l with tokens := l.tokens.insertIdxIfInBounds k.tokens .key }
  if l.depth = 0 ∧ l.opensAt k.column then
    { l.openAt k.column with tokens := l.tokens.insertIdxIfInBounds k.tokens .blockMappingStart }
  else l

def value : Step := fun l => do
  let l ← match l.candidate? with
    | some k => pure ((l.forgetCandidate.insertKey k).allowKey false)
    | none =>
      if l.depth = 0 ∧ !l.keyAllowed then l.fail
      else
        let l := if l.depth = 0 then l.openBlock .blockMappingStart else l
        (l.allowKey (l.depth = 0)).dropCandidate
  return (l.push .value).forward 1

def keyable {α : Type} (read : Cursor → Except Error (α × Cursor)) (token : α → Token) : Step :=
  fun l => do
    let l ← l.noteCandidate
    let (a, c) ← read l.cursor
    return ((l.allowKey false).push (token a)).moveTo c

def blockScalar : Step := fun l => do
  let l ← (l.allowKey true).dropCandidate
  let (content, c) ← Block.scalar l.indent l.cursor
  return (l.push (.scalar content false)).moveTo c

def plainScalar : Step := fun l => do
  let l ← l.noteCandidate
  let (content, crossed, c) := Plain.scalar (l.depth ≠ 0) l.indent l.cursor
  return ((l.allowKey crossed).push (.scalar content true)).moveTo c

def isIndicator (ch : Char) : Bool := ch ∈ ",[]{}#&*!|>\x27\x22%@\x60".toList

def startsPlain (l : Lexer) : Bool :=
  let ch := l.cursor.head
  if ch = '-' then !isGapOrEnd (l.cursor.peek 1)
  else if ch = '?' ∨ ch = ':' then l.depth = 0 ∧ !isGapOrEnd (l.cursor.peek 1)
  else !isGapOrEnd ch ∧ !isIndicator ch

def standsAlone (l : Lexer) : Bool := isGapOrEnd (l.cursor.peek 1)

def token : Step := fun l => do
  let l ← (l.skipByteOrderMark.skipToToken (l.cursor.rest.length + 1)).dropStale
  let l := l.closeTo l.column
  let atLineStart : Bool := l.cursor.column = 0
  let ch := l.cursor.head
  if ch = ending then l.streamEnd
  else if ch = '%' ∧ atLineStart then l.directiveLine
  else if ch = '-' ∧ atLineStart ∧ l.cursor.atMarker then l.documentMarker .documentStart
  else if ch = '.' ∧ atLineStart ∧ l.cursor.atMarker then l.documentMarker .documentEnd
  else if ch = '[' then l.flowStart .flowSequenceStart
  else if ch = '{' then l.flowStart .flowMappingStart
  else if ch = ']' then l.flowEnd .flowSequenceEnd
  else if ch = '}' then l.flowEnd .flowMappingEnd
  else if ch = ',' then l.flowItem
  else if ch = '-' ∧ l.standsAlone then l.blockItem
  else if ch = '?' ∧ (l.depth ≠ 0 ∨ l.standsAlone) then l.explicitKey
  else if ch = ':' ∧ (l.depth ≠ 0 ∨ l.standsAlone) then l.value
  else if ch = '*' then l.keyable anchorName .reference
  else if ch = '&' then l.keyable anchorName .anchor
  else if ch = '!' then l.keyable rawTag .tag
  else if (ch = '|' ∨ ch = '>') ∧ l.depth = 0 then l.blockScalar
  else if ch = '\x27' ∨ ch = '\x22' then l.keyable Quoted.scalar (.scalar · false)
  else if l.startsPlain then l.plainScalar
  else l.fail

/-- The tokens up to the end of the stream, and the error that cuts them short, if there is one. -/
def run : Nat → Lexer → Array Token × Option Error
  | 0, l => (l.tokens, none)
  | fuel + 1, l =>
    match l.token with
    | .error e => (l.tokens, some e)
    | .ok l' =>
      match l'.tokens.back? with
      | some .streamEnd => (l'.tokens, none)
      | _ => run fuel l'

end Lexer

def isAllowed (c : Char) : Bool :=
  let n := c.toNat
  n = 0x9 ∨ n = 0xa ∨ n = 0xd ∨ (0x20 ≤ n ∧ n ≤ 0x7e) ∨ n = 0x85 ∨ (0xa0 ≤ n ∧ n ≤ 0xfffd) ∨
    0x10000 ≤ n

/-- The tokens of a text. Each step takes at least one character, or ends the stream. -/
def tokens (text : List Char) : Array Token × Option Error :=
  if text.all isAllowed then (Lexer.start text).run (text.length + 2) else (#[], some .unprintable)

end LedgerQuery.Yaml
