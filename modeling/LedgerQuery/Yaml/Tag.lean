namespace LedgerQuery.Yaml

inductive Tag
  | null
  | bool
  | int
  | float
  | binary
  | timestamp
  | omap
  | pairs
  | set
  | str
  | seq
  | map
  | merge
  | value
  | other
deriving DecidableEq

namespace Tag

def core : String := "tag:yaml.org,2002:"

def names : List (String × Tag) :=
  [("null", .null), ("bool", .bool), ("int", .int), ("float", .float), ("binary", .binary),
    ("timestamp", .timestamp), ("omap", .omap), ("pairs", .pairs), ("set", .set), ("str", .str),
    ("seq", .seq), ("map", .map), ("merge", .merge), ("value", .value)]

def ofText (text : String) : Tag :=
  ((names.find? fun (name, _) => core ++ name = text).map (·.2)).getD .other

def isCollection : Tag → Bool
  | .omap | .pairs | .set | .seq | .map => true
  | _ => false

end Tag

end LedgerQuery.Yaml
