import LedgerQuery.Files.Error
import LedgerQuery.Shape.Reading
import LedgerQuery.Yaml.Error

namespace LedgerQuery

/-- What stands in a message for the report of the faults of a value, which is given beside it. -/
def faultReport : String := "<decode error>"

inductive SettingsError
  | stated (message : String)
  | unreadable (path : String) (cause : FileError)
  | notMapping (path : String)
  | invalid (path : String) (faults : List Fault)
  | noProjectRoot

def SettingsError.message : SettingsError → String
  | stated m => m
  | unreadable path e => s!"cannot read settings file {path}: {e.message}"
  | notMapping path => s!"settings file {path} must contain a mapping"
  | invalid path _ => s!"invalid settings in {path}: {faultReport}"
  | noProjectRoot =>
    "Could not find project root. " ++
      "Expected to find 'config/' directory within 5 levels up from config.py"

inductive DocumentError
  | undecodable
  | malformed (e : Yaml.Error)
  | nameNotText
deriving DecidableEq

namespace DocumentError

def label : DocumentError → String
  | undecodable => "UnicodeDecodeError"
  | malformed e => e.label
  | nameNotText => "TypeError"

def message : DocumentError → String
  | malformed e => e.message
  | undecodable | nameNotText => ""

end DocumentError

end LedgerQuery
