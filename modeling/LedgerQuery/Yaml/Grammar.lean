import LedgerQuery.Yaml.Form
import LedgerQuery.Yaml.Graph
import LedgerQuery.Yaml.Lexer

namespace LedgerQuery.Yaml

structure Progress where
  rest : List Token
  cut : Option Error
  handles : List (String × String)
  anchors : List (String × Nat)
  nodes : Graph

abbrev Reader := StateT Progress (Except Error)

namespace Reader

def peek : Reader Token := do
  let p ← get
  match p.rest with
  | t :: _ => return t
  | [] => throw (p.cut.getD .grammar)

def advance : Reader Unit := modify fun p => { p with rest := p.rest.tail }

def take? (expected : Token → Bool) : Reader Bool := do
  if expected (← peek) then
    advance
    return true
  else return false

def take (expected : Token → Bool) : Reader Unit := do
  if ← take? expected then return else throw .grammar

def add (anchor : Option String) (v : Vertex) : Reader Nat := do
  let p ← get
  let i := p.nodes.size
  let anchors := match anchor with
    | some name => (name, i) :: p.anchors
    | none => p.anchors
  set { p with nodes := p.nodes.push v, anchors := anchors }
  return i

def fill (i : Nat) (v : Vertex) : Reader Unit :=
  modify fun p => { p with nodes := p.nodes.setIfInBounds i v }

def absent : Reader Nat := add none (.scalar .null ⟨"", true⟩)

def referent (name : String) : Reader Nat := do
  match (← get).anchors.lookup name with
  | some i => return i
  | none => throw (.undefinedAlias name)

def expand (t : RawTag) : Reader String := do
  match t.handle with
  | none => return t.suffix
  | some handle =>
    match (← get).handles.lookup handle with
    | some expansion => return expansion ++ t.suffix
    | none => throw .grammar

def anchor? : Reader (Option String) := do
  match ← peek with
  | .anchor name =>
    advance
    return some name
  | _ => return none

def tag? : Reader (Option String) := do
  match ← peek with
  | .tag t =>
    advance
    return some (← expand t)
  | _ => return none

def properties : Reader (Option String × Option String) := do
  match ← anchor? with
  | some name => return (some name, ← tag?)
  | none =>
    match ← tag? with
    | some tag => return (← anchor?, some tag)
    | none => return (none, none)

def checkAnchor (anchor : Option String) : Reader Unit := do
  match anchor with
  | some name => if ((← get).anchors.lookup name).isSome then throw (.repeatedAnchor name)
  | none => return

def tagOr (usual : Tag) : Option String → Tag
  | none | some "!" => usual
  | some tag => .ofText tag

def scalarTag (tag : Option String) (plain : Bool) (text : String) : Tag :=
  tagOr (if plain || tag.isSome then Form.tagOf text else .str) tag

mutual

/-- A node. Those in block style, and sequences that are not indented, are not allowed everywhere. -/
def node : Nat → Bool → Bool → Reader Nat
  | 0, _, _ => throw .grammar
  | fuel + 1, block, indentless => do
    match ← peek with
    | .reference name =>
      advance
      referent name
    | _ =>
      let (anchor, tag) ← properties
      let next ← peek
      checkAnchor anchor
      match next with
      | .scalar content plain =>
        advance
        add anchor (.scalar (scalarTag tag plain content.text) content)
      | .flowSequenceStart =>
        advance
        sequence anchor tag (flowItems fuel true)
      | .flowMappingStart =>
        advance
        mapping anchor tag (flowEntries fuel true)
      | .blockItem =>
        if indentless then sequence anchor tag (looseItems fuel) else empty anchor tag
      | .blockSequenceStart =>
        if block then
          advance
          sequence anchor tag (blockItems fuel)
        else empty anchor tag
      | .blockMappingStart =>
        if block then
          advance
          mapping anchor tag (blockEntries fuel)
        else empty anchor tag
      | _ => empty anchor tag
where
  sequence (anchor tag : Option String) (items : Reader (List Nat)) : Reader Nat := do
    let i ← add anchor (.sequence (tagOr .seq tag) [])
    fill i (.sequence (tagOr .seq tag) (← items))
    return i
  mapping (anchor tag : Option String) (entries : Reader (List (Nat × Nat))) : Reader Nat := do
    let i ← add anchor (.mapping (tagOr .map tag) [])
    fill i (.mapping (tagOr .map tag) (← entries))
    return i
  empty (anchor tag : Option String) : Reader Nat :=
    if anchor.isSome || tag.isSome then add anchor (.scalar (scalarTag tag true "") ⟨"", true⟩)
    else throw .grammar

def nodeUnless (closes : Token → Bool) : Nat → Bool → Bool → Reader Nat
  | 0, _, _ => throw .grammar
  | fuel + 1, block, indentless => do
    if closes (← peek) then absent else node fuel block indentless

def blockItems : Nat → Reader (List Nat)
  | 0 => throw .grammar
  | fuel + 1 => do
    if ← take? (· matches .blockItem) then
      let i ← nodeUnless (fun t => t matches .blockItem | .blockEnd) fuel true false
      return i :: (← blockItems fuel)
    else
      take (· matches .blockEnd)
      return []

/-- The items of a sequence that stands at the indentation of the key it belongs to. -/
def looseItems : Nat → Reader (List Nat)
  | 0 => throw .grammar
  | fuel + 1 => do
    if ← take? (· matches .blockItem) then
      let i ← nodeUnless (fun t => t matches .blockItem | .key | .value | .blockEnd) fuel true false
      return i :: (← looseItems fuel)
    else return []

def blockEntries : Nat → Reader (List (Nat × Nat))
  | 0 => throw .grammar
  | fuel + 1 => do
    if ← take? (· matches .key) then
      let k ← nodeUnless (fun t => t matches .key | .value | .blockEnd) fuel true true
      let v ← if ← take? (· matches .value) then
          nodeUnless (fun t => t matches .key | .value | .blockEnd) fuel true true
        else absent
      return (k, v) :: (← blockEntries fuel)
    else
      take (· matches .blockEnd)
      return []

def flowItems : Nat → Bool → Reader (List Nat)
  | 0, _ => throw .grammar
  | fuel + 1, first => do
    if ← take? (· matches .flowSequenceEnd) then return []
    else
      if !first then take (· matches .flowItem)
      match ← peek with
      | .flowSequenceEnd =>
        advance
        return []
      | .key =>
        advance
        let i ← add none (.mapping .map [])
        let k ← nodeUnless (fun t => t matches .value | .flowItem | .flowSequenceEnd) fuel false false
        let v ← if ← take? (· matches .value) then
            nodeUnless (fun t => t matches .flowItem | .flowSequenceEnd) fuel false false
          else absent
        fill i (.mapping .map [(k, v)])
        return i :: (← flowItems fuel false)
      | _ =>
        let i ← node fuel false false
        return i :: (← flowItems fuel false)

def flowEntries : Nat → Bool → Reader (List (Nat × Nat))
  | 0, _ => throw .grammar
  | fuel + 1, first => do
    if ← take? (· matches .flowMappingEnd) then return []
    else
      if !first then take (· matches .flowItem)
      match ← peek with
      | .flowMappingEnd =>
        advance
        return []
      | .key =>
        advance
        let k ← nodeUnless (fun t => t matches .value | .flowItem | .flowMappingEnd) fuel false false
        let v ← if ← take? (· matches .value) then
            nodeUnless (fun t => t matches .flowItem | .flowMappingEnd) fuel false false
          else absent
        return (k, v) :: (← flowEntries fuel false)
      | _ =>
        let k ← node fuel false false
        let v ← absent
        return (k, v) :: (← flowEntries fuel false)

end

/-- Takes the directives before a document; the first argument tells whether a version was stated. -/
def directives : Nat → Bool → Reader Unit
  | 0, _ => throw .grammar
  | fuel + 1, versioned => do
    match ← peek with
    | .directive d =>
      advance
      match d with
      | .version major => if versioned || major ≠ 1 then throw .grammar else directives fuel true
      | .tag handle expansion =>
        if ((← get).handles.lookup handle).isSome then throw .grammar
        modify fun p => { p with handles := (handle, expansion) :: p.handles }
        directives fuel versioned
      | .reserved => directives fuel versioned
    | _ => return

def usualHandles : List (String × String) := [("!", "!"), ("!!", Tag.core)]

def skipEnds : Nat → Reader Unit
  | 0 => return
  | fuel + 1 => do if ← take? (· matches .documentEnd) then skipEnds fuel

def documentStart (fuel : Nat) : Reader Unit := do
  directives fuel false
  take (· matches .documentStart)
  modify fun p => { p with handles := p.handles ++ usualHandles }

def streamEnd (fuel : Nat) : Reader Unit := do
  skipEnds fuel
  if !((← peek) matches .streamEnd) then
    documentStart fuel
    throw .secondDocument

def document (fuel : Nat) : Reader (Option Nat) := do
  match ← peek with
  | .streamEnd => return none
  | .directive _ | .documentStart =>
    documentStart fuel
    let root ← nodeUnless
      (fun t => t matches .directive _ | .documentStart | .documentEnd | .streamEnd) fuel true false
    streamEnd fuel
    return some root
  | _ =>
    modify fun p => { p with handles := usualHandles }
    let root ← node fuel true false
    streamEnd fuel
    return some root

end Reader

def graphOf (text : List Char) : Except Error (Option Nat × Graph) := do
  let (ts, cut) := tokens text
  let start : Progress := ⟨ts.toList, cut, [], [], #[]⟩
  let (root, p) ← (Reader.document (4 * ts.size + 8)).run start
  return (root, p.nodes)

end LedgerQuery.Yaml
