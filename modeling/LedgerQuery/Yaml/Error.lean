import LedgerQuery.Text.Quoted

namespace LedgerQuery.Yaml

/-- A scalar that has the form of its kind, or is said to be of it, and yet no value. -/
inductive ScalarError
  | codePoint (code : Nat)
  | notInteger (base : Nat) (text : String)
  | tooLong (digits : Nat)
  | notFloat (text : String)
  | notBool (text : String)
  | emptyNumber
  | notMoment
  | outOfCalendar (reason : String)
deriving DecidableEq

namespace ScalarError

def label : ScalarError → String
  | codePoint code => if code < 0x80000000 then "ValueError" else "OverflowError"
  | notInteger _ _ | tooLong _ | notFloat _ | outOfCalendar _ => "ValueError"
  | notBool _ => "KeyError"
  | emptyNumber => "IndexError"
  | notMoment => "AttributeError"

def message : ScalarError → String
  | codePoint code =>
    if code < 0x80000000 then "chr() arg not in range(0x110000)" else "Python int too large to convert to C int"
  | notInteger base text => s!"invalid literal for int() with base {base}: {Text.quoted text}"
  | tooLong digits =>
    "Exceeds the limit (4300 digits) for integer string conversion: value has " ++ toString digits ++
      " digits; use sys.set_int_max_str_digits() to increase the limit"
  | notFloat text => s!"could not convert string to float: {Text.quoted text}"
  | notBool text => Text.quoted text
  | outOfCalendar reason => reason
  | emptyNumber | notMoment => ""

end ScalarError

inductive Error
  | unprintable
  | token (line column : Nat)
  | grammar
  | repeatedAnchor (name : String)
  | undefinedAlias (name : String)
  | secondDocument
  | construction
  | scalar (e : ScalarError)
deriving DecidableEq

namespace Error

def label : Error → String
  | scalar e => e.label
  | _ => "YAMLError"

def message : Error → String
  | scalar e => e.message
  | _ => ""

end Error

end LedgerQuery.Yaml
