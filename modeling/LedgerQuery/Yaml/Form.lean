import LedgerQuery.Yaml.Tag
import LedgerQuery.Yaml.Timestamp

namespace LedgerQuery.Yaml.Form

def isDigitOrScore (c : Char) : Bool := c.isDigit ∨ c = '_'

def isDigits (cs : List Char) : Bool := cs.head?.any Char.isDigit && cs.all isDigitOrScore

def isSixtieth : List Char → Bool
  | [a] => a.isDigit
  | [a, b] => ('0' ≤ a && a ≤ '5') && b.isDigit
  | _ => false

def colonParts : List Char → List (List Char)
  | [] => [[]]
  | c :: cs =>
    if c = ':' then [] :: colonParts cs
    else
      match colonParts cs with
      | [] => [[c]]
      | part :: parts => (c :: part) :: parts

def isSexagesimal (cs : List Char) : Bool :=
  match colonParts cs with
  | first :: part :: parts => isDigits first && (part :: parts).all isSixtieth
  | _ => false

def isNonempty (p : Char → Bool) (cs : List Char) : Bool := cs ≠ [] && cs.all p

def isInt (cs : List Char) : Bool :=
  match (readSign cs).2 with
  | '0' :: 'b' :: ds => isNonempty (· ∈ ['0', '1', '_']) ds
  | '0' :: 'x' :: ds => isNonempty (fun c => isHexDigit c ∨ c = '_') ds
  | '0' :: ds => ds.all fun c => ('0' ≤ c ∧ c ≤ '7') ∨ c = '_'
  | ds => isDigits ds || isSexagesimal ds

def isExponent : List Char → Bool
  | [] => true
  | c :: s :: ds => (c = 'e' ∨ c = 'E') && (s = '+' ∨ s = '-') && isNonempty Char.isDigit ds
  | _ => false

def isPointed (cs : List Char) : Bool :=
  let whole := cs.takeWhile (· ≠ '.')
  match cs.drop whole.length with
  | '.' :: rest =>
    (isDigits whole && isExponent (rest.dropWhile isDigitOrScore)) ||
      (isSexagesimal whole && rest.all isDigitOrScore)
  | _ => false

def isFloat (cs : List Char) : Bool :=
  let body := (readSign cs).2
  isPointed body || body ∈ [".inf".toList, ".Inf".toList, ".INF".toList] ||
    cs ∈ [".nan".toList, ".NaN".toList, ".NAN".toList] ||
    (match cs with
      | '.' :: ds => ds.head?.any Char.isDigit && isExponent (ds.dropWhile isDigitOrScore)
      | _ => false)

def boolWords : List String :=
  ["yes", "Yes", "YES", "no", "No", "NO", "true", "True", "TRUE", "false", "False", "FALSE", "on",
    "On", "ON", "off", "Off", "OFF"]

def nullWords : List String := ["~", "null", "Null", "NULL", ""]

/-- The tag that goes with the form of a text, which may have a line break behind it. -/
def tagOf (text : String) : Tag :=
  let cs := text.toList
  let body := if cs.getLast? = some '\n' ∧ cs ≠ ['\n'] then cs.dropLast else cs
  let word := String.ofList body
  if word ∈ boolWords then .bool
  else if isFloat body then .float
  else if isInt body then .int
  else if word = "<<" then .merge
  else if word ∈ nullWords then .null
  else if Timestamp.hasForm body then .timestamp
  else if word = "=" then .value
  else .str

end LedgerQuery.Yaml.Form
