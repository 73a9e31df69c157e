import LedgerQuery.Json.Basic

namespace LedgerQuery

inductive Place
  | key (s : String)
  | index (n : Int)
deriving DecidableEq

/-- A key of a map: text, bytes that may be text, or something that is neither. -/
inductive MapKey
  | text (s : String)
  | bytes (text? : Option String) (shown : String)
  | other (place : Place)

def MapKey.place : MapKey → Place
  | .text s => .key s
  | .bytes _ shown => .key shown
  | .other p => p

/-- The outermost layer of a value, over the values inside it. -/
inductive Layer (σ : Type)
  | null
  | bool (b : Bool)
  | number (n : Number)
  | text (s : String)
  /-- Text with lone surrogates; `shown` has the replacement character for these. -/
  | brokenText (shown : String)
  /-- Bytes that do not encode a text; those that do count as the text. -/
  | brokenBytes
  | list (xs : List σ)
  | map (entries : List (MapKey × σ))
  | moment

class Source (σ : Type) where
  layer : σ → Layer σ
  /-- The value as JSON, for sources that hold JSON. -/
  json? : σ → Option Json

def Json.layer : Json → Layer Json
  | .null => .null
  | .bool b => .bool b
  | .number n => .number n
  | .string s => .text s
  | .array xs => .list xs
  | .object ms => .map (ms.map fun (k, x) => (.text k, x))

instance : Source Json := ⟨Json.layer, some⟩

def valueUnder? {σ : Type} (name : String) : List (MapKey × σ) → Option σ
  | [] => none
  | (.text k, x) :: rest => if k = name then some x else valueUnder? name rest
  | (_, _) :: rest => valueUnder? name rest

theorem valueUnder?_json (name : String) (ms : List (String × Json)) :
    valueUnder? name (ms.map fun (k, x) => (MapKey.text k, x)) = lookup? name ms := by
  induction ms with
  | nil => rfl
  | cons m ms ih => obtain ⟨k, x⟩ := m; simp [valueUnder?, lookup?, ih]

end LedgerQuery
