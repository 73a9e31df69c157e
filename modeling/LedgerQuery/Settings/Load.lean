import LedgerQuery.Failure
import LedgerQuery.Files.Tree
import LedgerQuery.Settings.Override
import LedgerQuery.Settings.Schema
import LedgerQuery.Yaml.Value

namespace LedgerQuery

/-- Line breaks of all systems become line feeds. -/
def normalBreaks : List Char → List Char
  | '\r' :: '\n' :: cs => '\n' :: normalBreaks cs
  | '\r' :: cs => '\n' :: normalBreaks cs
  | c :: cs => c :: normalBreaks cs
  | [] => []

def Document.ofBytes (bs : List UInt8) : Except DocumentError Document :=
  match String.fromUTF8? ⟨bs.toArray⟩ with
  | none => .error .undecodable
  | some text => (Yaml.read (normalBreaks text.toList)).mapError .malformed

namespace Settings

def ofEntries (path : String) (d : Document) (es : Entries) : Except Failure Settings :=
  if es.all fun e => e.1 matches .text _ | .brokenText _ then
    (shape.read d.view).mapError fun faults => .settings (.invalid path faults)
  else .error (.document .nameNotText)

/-- The settings in a document, after the variables whose names begin as told, if that is told. A
document that says nothing is an empty mapping. -/
def ofDocument (path : String) (lead : Option String) (env : Environment) (d : Document) :
    Except Failure Settings :=
  let d := if d.isVoid then .ofNode (.map []) else d
  if d.entries?.isNone then .error (.settings (.notMapping path))
  else
    let d := match lead with
      | none | some "" => d
      | some lead => d.override (.usual lead) env
    ofEntries path d (d.entries?.getD [])

end Settings

inductive Location
  | absolute (p : Path)
  /-- Below the project's root; the empty text tells nothing. -/
  | relative (text : String)

namespace Location

def ofText (text : String) : Location :=
  if text.startsWith "/" then .absolute ⟨"/", Path.namesOf text⟩ else .relative text

def usual : String := "config/settings.yaml"

end Location

structure SettingsQuery where
  location : Option Location
  projectRoot : Option Path
  lead : Option String
  origin : Path

structure LoadedSettings where
  settings : Settings
  projectRoot : Path

/-- The nearest of the places upwards from here, five at most, that has a `config` in it. -/
def Files.findRoot? (fs : Files) (origin : Path) : Option Path :=
  (origin.ancestors.take 5).find? fun p => fs.contains (p.join "config")

def Files.findRoot (fs : Files) (origin : Path) : Except Failure Path :=
  match fs.findRoot? origin with
  | some p => .ok p
  | none => .error (.settings .noProjectRoot)

namespace SettingsQuery

/-- The file and the project's root. Under a path with a NUL in it no file can be opened, or be missing. -/
def places (q : SettingsQuery) (fs : Files) : Except Failure (Path × Path) := do
  let (file, root) ← match q.location with
    | some (.absolute p) => pure (p, q.projectRoot.getD p.parent)
    | some (.relative text) => below (if text = "" then Location.usual else text)
    | none => below Location.usual
  if file.hasNul then throw (.incident ⟨"ValueError", "embedded null byte"⟩)
  return (file, root)
where
  below (text : String) : Except Failure (Path × Path) := do
    let root ← match q.projectRoot with
      | some root => pure root
      | none => fs.findRoot q.origin
    return (root.join text, root)

def load (q : SettingsQuery) (fs : Files) (env : Environment) : Except Failure LoadedSettings := do
  let (file, root) ← q.places fs
  let content ← (fs.read file).mapError fun e => .settings (.unreadable file.text e)
  let d ← (Document.ofBytes content).mapError .document
  return ⟨← Settings.ofDocument file.text q.lead env d, root⟩

end SettingsQuery

end LedgerQuery
