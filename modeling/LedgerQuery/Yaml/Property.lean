import LedgerQuery.Number.Reading
import LedgerQuery.Yaml.Token

namespace LedgerQuery.Yaml

def anchorName (c : Cursor) : Except Error (String × Cursor) :=
  let (name, c) := c.next.span isWordChar
  let closes := isGapOrEnd c.head ∨ c.head ∈ ['?', ':', ',', ']', '}', '%', '@', '\x60']
  if name ≠ [] ∧ closes then .ok (String.ofList name, c) else c.error

def escapedBytes : List Char → Option (List UInt8)
  | '%' :: a :: b :: rest =>
    if isHexDigit a ∧ isHexDigit b then
      (UInt8.ofNat (digitsValue 16 [a, b]) :: ·) <$> escapedBytes rest
    else none
  | '%' :: _ => none
  | _ => some []

def isUriChar (c : Char) : Bool := c.isAlphanum ∨ c ∈ "-;/?:@&=+$,_.!~*\x27()[]".toList

/-- The characters of a tag, with runs of escapes decoded; `fuel` bounds the runs. -/
def uriChars : Nat → Cursor → Except Error (List Char × Cursor)
  | 0, c => c.error
  | fuel + 1, c =>
    let (run, c) := c.span isUriChar
    if c.head = '%' then
      match escapedBytes c.rest with
      | none => c.error
      | some bytes =>
        match String.fromUTF8? ⟨bytes.toArray⟩ with
        | none => c.error
        | some s => do
          let (more, c) ← uriChars fuel (c.drop (3 * bytes.length))
          return (run ++ s.toList ++ more, c)
    else .ok (run, c)

def uri (c : Cursor) : Except Error (String × Cursor) := do
  let (cs, c) ← uriChars (c.rest.length + 1) c
  if cs = [] then c.error else return (String.ofList cs, c)

def tagHandle (c : Cursor) : Except Error (String × Cursor) :=
  if c.head ≠ '!' then c.error
  else if c.peek 1 = ' ' then .ok ("!", c.next)
  else
    let (name, c) := c.next.span isWordChar
    if c.head = '!' then .ok (String.ofList ('!' :: name ++ ['!']), c.next) else c.error

def hasHandle (c : Cursor) : Bool :=
  '!' ∈ c.next.rest.takeWhile fun ch => !isSpaceOrEnd ch

def rawTag (c : Cursor) : Except Error (RawTag × Cursor) := do
  let (t, c) ←
    if c.peek 1 = '<' then do
      let (suffix, c) ← uri (c.drop 2)
      if c.head = '>' then pure (RawTag.mk none suffix, c.next) else c.error
    else if isGapOrEnd (c.peek 1) then pure (RawTag.mk none "!", c.next)
    else if hasHandle c then do
      let (handle, c) ← tagHandle c
      let (suffix, c) ← uri c
      pure (RawTag.mk (some handle) suffix, c)
    else do
      let (suffix, c) ← uri c.next
      pure (RawTag.mk (some "!") suffix, c)
  if isSpaceOrEnd c.head then return (t, c) else c.error

def directiveNumber (c : Cursor) : Except Error (Nat × Cursor) :=
  let (ds, c) := c.span Char.isDigit
  if ds = [] then c.error else .ok (digitsValue 10 ds, c)

def versionDirective (c : Cursor) : Except Error (Directive × Cursor) := do
  let (major, c) ← directiveNumber (c.skip (· = ' '))
  if c.head ≠ '.' then c.error
  else
    let (_, c) ← directiveNumber c.next
    if isSpaceOrEnd c.head then return (.version major, c) else c.error

def tagDirective (c : Cursor) : Except Error (Directive × Cursor) := do
  let (handle, c) ← tagHandle (c.skip (· = ' '))
  if c.head ≠ ' ' then c.error
  else
    let (expansion, c) ← uri (c.skip (· = ' '))
    if isSpaceOrEnd c.head then return (.tag handle expansion, c) else c.error

def directive (c : Cursor) : Except Error (Directive × Cursor) := do
  let (name, c) := c.next.span isWordChar
  if name = [] ∨ !isSpaceOrEnd c.head then c.error
  else
    let (d, c) ← match String.ofList name with
      | "YAML" => versionDirective c
      | "TAG" => tagDirective c
      | _ => pure (.reserved, c.skipLine)
    match c.skipIgnoredLine with
    | some c => return (d, c)
    | none => c.error

end LedgerQuery.Yaml
