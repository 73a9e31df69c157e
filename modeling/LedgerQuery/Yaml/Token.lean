import LedgerQuery.Yaml.Cursor

namespace LedgerQuery.Yaml

/-- The text of a scalar. An escape for half of a surrogate pair leaves a text that is not sound; there
the replacement character stands in for it. -/
structure Content where
  text : String
  sound : Bool
deriving DecidableEq

/-- A tag as it is written: a handle, if there is one, and what follows. -/
structure RawTag where
  handle : Option String
  suffix : String

inductive Directive
  | version (major : Nat)
  | tag (handle expansion : String)
  | reserved

inductive Token
  | directive (d : Directive)
  | documentStart
  | documentEnd
  | streamEnd
  | blockSequenceStart
  | blockMappingStart
  | blockEnd
  | flowSequenceStart
  | flowSequenceEnd
  | flowMappingStart
  | flowMappingEnd
  | blockItem
  | flowItem
  | key
  | value
  | reference (name : String)
  | anchor (name : String)
  | tag (t : RawTag)
  | scalar (content : Content) (plain : Bool)

end LedgerQuery.Yaml
