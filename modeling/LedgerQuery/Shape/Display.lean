import LedgerQuery.Json.Basic
import LedgerQuery.Number.Written
import LedgerQuery.Text.Quoted

namespace LedgerQuery

inductive Display
  | null
  | bool (b : Bool)
  | number (n : Number)
  | text (s : String)
  | list (xs : List Display)
  | map (entries : List (String × Display))
  | record (name : String) (fields : List (String × Display))
deriving Inhabited

namespace Display

mutual

def ofJson : Json → Display
  | .null => .null
  | .bool b => .bool b
  | .number n => .number n
  | .string s => .text s
  | .array xs => .list (ofElements xs)
  | .object ms => .map (ofMembers ms)

def ofElements : List Json → List Display
  | [] => []
  | x :: xs => ofJson x :: ofElements xs

def ofMembers : List (String × Json) → List (String × Display)
  | [] => []
  | (k, x) :: ms => (k, ofJson x) :: ofMembers ms

end

mutual

/-- The wire form. A null is left out where it is the field of a record, and only there. -/
def wire : Display → Json
  | .null => .null
  | .bool b => .bool b
  | .number n => .number n
  | .text s => .string s
  | .list xs => .array (wireElements xs)
  | .map entries => .object (wireEntries entries)
  | .record _ fields => .object (wireFields fields)

def wireElements : List Display → List Json
  | [] => []
  | x :: xs => wire x :: wireElements xs

def wireEntries : List (String × Display) → List (String × Json)
  | [] => []
  | (k, x) :: rest => (k, wire x) :: wireEntries rest

def wireFields : List (String × Display) → List (String × Json)
  | [] => []
  | (_, .null) :: rest => wireFields rest
  | (k, x) :: rest => (k, wire x) :: wireFields rest

end

def commas : List String → String := ", ".intercalate

mutual

def written : Display → String
  | .null => "None"
  | .bool true => "True"
  | .bool false => "False"
  | .number n => n.text
  | .text s => Text.quoted s
  | .list xs => "[" ++ commas (writtenElements xs) ++ "]"
  | .map entries => "\x7b" ++ commas (writtenEntries entries) ++ "\x7d"
  | .record name fields => name ++ "(" ++ commas (writtenFields fields) ++ ")"

def writtenElements : List Display → List String
  | [] => []
  | x :: xs => written x :: writtenElements xs

def writtenEntries : List (String × Display) → List String
  | [] => []
  | (k, x) :: rest => (Text.quoted k ++ ": " ++ written x) :: writtenEntries rest

def writtenFields : List (String × Display) → List String
  | [] => []
  | (k, x) :: rest => (k ++ "=" ++ written x) :: writtenFields rest

end

mutual

theorem wire_ofJson : ∀ j : Json, (ofJson j).wire = j
  | .null | .bool _ | .number _ | .string _ => rfl
  | .array xs => by simp [ofJson, wire, wireElements_ofElements xs]
  | .object ms => by simp [ofJson, wire, wireEntries_ofMembers ms]

theorem wireElements_ofElements : ∀ xs : List Json, wireElements (ofElements xs) = xs
  | [] => rfl
  | x :: xs => by simp [ofElements, wireElements, wire_ofJson x, wireElements_ofElements xs]

theorem wireEntries_ofMembers : ∀ ms : List (String × Json), wireEntries (ofMembers ms) = ms
  | [] => rfl
  | (k, x) :: ms => by simp [ofMembers, wireEntries, wire_ofJson x, wireEntries_ofMembers ms]

end

end Display

end LedgerQuery
