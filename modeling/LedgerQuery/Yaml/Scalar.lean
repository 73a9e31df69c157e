import LedgerQuery.Document.Scalar
import LedgerQuery.Text.Base64
import LedgerQuery.Text.LowerCase
import LedgerQuery.Yaml.Form
import LedgerQuery.Yaml.Token

namespace LedgerQuery.Yaml

def baseLetters : Nat → List Char
  | 2 => ['b', 'B']
  | 8 => ['o', 'O']
  | 16 => ['x', 'X']
  | _ => []

def isDigitIn (base : Nat) (c : Char) : Bool := isHexDigit c ∧ digitsValue 16 [c] < base

/-- A whole number in a base: blanks around it, a sign, perhaps an announcement of the base, digits. Only those of
the base 10 are limited in number. -/
def intIn (base : Nat) (cs : List Char) : Except Error Int :=
  let (negative, body) := readSign (Text.strip Text.isBlank cs)
  let ds := match body with
    | '0' :: c :: ds => if c ∈ baseLetters base then ds else body
    | _ => body
  if !Form.isNonempty (isDigitIn base) ds then .error (.scalar (.notInteger base (String.ofList cs)))
  else if base = 10 ∧ maxDigits < ds.length then .error (.scalar (.tooLong ds.length))
  else .ok (signed negative (digitsValue base ds))

/-- The sign of a number and what follows it, underscores left out; there has to be something. -/
def signAndBody (cs : List Char) : Except Error (Bool × List Char) :=
  match cs.filter (· ≠ '_') with
  | [] => .error (.scalar .emptyNumber)
  | cs => .ok (readSign cs)

def intOf (cs : List Char) : Except Error Int := do
  let (negative, body) ← signAndBody cs
  let n ← match body with
    | [] => throw (.scalar .emptyNumber)
    | ['0'] => pure 0
    | '0' :: 'b' :: ds => intIn 2 ds
    | '0' :: 'x' :: ds => intIn 16 ds
    | '0' :: ds => intIn 8 ('0' :: ds)
    | body =>
      if ':' ∈ body then do
        let parts ← (Form.colonParts body).mapM (intIn 10)
        pure (parts.foldl (fun n part => 60 * n + part) 0)
      else intIn 10 body
  return if negative then -n else n

def floatIn (cs : List Char) : Except Error Float :=
  match readFloatAmong? Text.isBlank cs with
  | some x => .ok x
  | none => .error (.scalar (.notFloat (String.ofList cs)))

/-- The sum of the parts, the last of which counts once, the one before it sixty times, and so on. -/
def sexagesimal (parts : List Float) : Float :=
  (parts.reverse.foldl (fun (sum, base) part => (sum + part * Float.ofInt base, base * 60))
    ((0.0 : Float), (1 : Int))).1

def floatOf (cs : List Char) : Except Error Float := do
  let (negative, body) ← signAndBody (Text.lower (String.ofList cs)).toList
  let x ←
    if String.ofList body = ".inf" then pure infinity
    else if String.ofList body = ".nan" then pure notANumber
    else if ':' ∈ body then do
      let parts ← (Form.colonParts body).mapM floatIn
      pure (sexagesimal parts)
    else floatIn body
  return if negative then -x else x

def boolOf (text : String) : Except Error Bool :=
  let word := Text.lower text
  if word ∈ ["yes", "true", "on"] then .ok true
  else if word ∈ ["no", "false", "off"] then .ok false
  else .error (.scalar (.notBool word))

def momentOf (cs : List Char) : Except Error Moment :=
  let body := if cs.getLast? = some '\n' then cs.dropLast else cs
  match Timestamp.read? body with
  | none => .error (.scalar .notMoment)
  | some m =>
    match m.fault? with
    | none => .ok m
    | some reason => .error (.scalar (.outOfCalendar reason))

def bytesOf (content : Content) : Except Error (List UInt8) :=
  let cs := content.text.toList
  if content.sound ∧ cs.all fun c => c.toNat < 128 then
    match Text.Base64.decode? cs with
    | some bs => .ok bs
    | none => .error .construction
  else .error .construction

def scalarOf (tag : Tag) (content : Content) : Except Error Scalar :=
  let cs := content.text.toList
  match tag with
  | .null => .ok .null
  | .bool => Scalar.bool <$> boolOf content.text
  | .int => (fun n => Scalar.number (.int n)) <$> intOf cs
  | .float => (fun x => Scalar.number (.float x)) <$> floatOf cs
  | .binary => Scalar.bytes <$> bytesOf content
  | .timestamp => Scalar.moment <$> momentOf cs
  | .str => .ok (if content.sound then .text content.text else .brokenText content.text)
  | _ => .error .construction

end LedgerQuery.Yaml
