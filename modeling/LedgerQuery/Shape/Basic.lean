import LedgerQuery.Shape.Display
import LedgerQuery.Shape.Reading
import LedgerQuery.Number.Reading

namespace LedgerQuery

/-- How values of a type are read, leniently, and how they are displayed. -/
structure Shape (α : Type) where
  read : {σ : Type} → [Source σ] → σ → Reading α
  display : α → Display

namespace Shape

variable {α β : Type}

def text : Shape String where
  read x := match Source.layer x with
    | .text s | .brokenText s => .ok s
    | .brokenBytes => .fault .stringUnicode
    | _ => .fault .stringType
  display := .text

/-- A double with no fraction stands for a whole number between the bounds of 64 bits with sign. -/
def wholeOf (x : Float) : Reading Int :=
  match (Parts.ofFloat x).value with
  | .finite q =>
    if q.den ≠ 1 then .fault .intFromFloat
    else if -9223372036854775808 < q.num ∧ q.num < 9223372036854775808 then .ok q.num
    else .fault .intParsingSize
  | _ => .fault .finiteNumber

def int : Shape Int where
  read x := match Source.layer x with
    | .number (.int n) => .ok n
    | .number (.float x) => wholeOf x
    | .bool b => .ok (if b then 1 else 0)
    | .text s => match readInt? s with
      | some n => if (toString n).length ≤ maxDigits then .ok n else .fault .intParsingSize
      | none => .fault .intParsing
    | .brokenText _ => .fault .stringUnicode
    | .brokenBytes => .fault .intParsing
    | _ => .fault .intType
  display n := .number (.int n)

def readBool? (s : String) : Option Bool :=
  let word := String.ofList (s.toList.map Char.toLower)
  if word ∈ ["0", "off", "f", "false", "n", "no"] then some false
  else if word ∈ ["1", "on", "t", "true", "y", "yes"] then some true
  else none

def boolOf (n : Int) : Reading Bool :=
  if n = 0 then .ok false else if n = 1 then .ok true else .fault .boolParsing

def bool : Shape Bool where
  read x := match Source.layer x with
    | .bool b => .ok b
    | .number (.int n) => if fitsWord n then boolOf n else .fault .boolType
    | .number (.float x) => match wholeOf x with
      | .ok n => boolOf n
      | .error _ => .fault .boolType
    | .text s => match readBool? s with
      | some b => .ok b
      | none => .fault .boolParsing
    | .brokenText _ => .fault .stringUnicode
    | .brokenBytes => .fault .boolParsing
    | _ => .fault .boolType
  display := .bool

def doubleOf (n : Int) : Reading Float :=
  if (Float.ofInt n).isFinite then .ok (Float.ofInt n) else .fault .floatType

def float : Shape Float where
  read x := match Source.layer x with
    | .number (.int n) => doubleOf n
    | .number (.float x) => .ok x
    | .bool b => .ok (if b then 1.0 else 0.0)
    | .text s => match readFloat? s with
      | some x => .ok x
      | none => .fault .floatParsing
    | .brokenText _ => .fault .stringUnicode
    | .brokenBytes => .fault .floatParsing
    | _ => .fault .floatType
  display x := .number (.float x)

/-- A further rule on the values of a shape, which may also put them into a normal form. -/
def checked (s : Shape α) (rule : α → Except FaultKind α) : Shape α where
  read x := match s.read x with
    | .ok a => match rule a with
      | .ok b => .ok b
      | .error kind => .fault kind
    | .error fs => .error fs
  display := s.display

def holds (p : α → Bool) (kind : FaultKind) (a : α) : Except FaultKind α :=
  if p a then .ok a else .error kind

def atLeast [LE α] [DecidableLE α] (bound : α) (s : Shape α) : Shape α :=
  s.checked (holds (fun a => decide (bound ≤ a)) .greaterThanEqual)

def atMost [LE α] [DecidableLE α] (bound : α) (s : Shape α) : Shape α :=
  s.checked (holds (fun a => decide (a ≤ bound)) .lessThanEqual)

def optional (s : Shape α) : Shape (Option α) where
  read x := match Source.layer x with
    | .null => .ok none
    | _ => (s.read x).map some
  display
    | none => .null
    | some a => s.display a

def list (s : Shape α) : Shape (List α) where
  read x := match Source.layer x with
    | .list xs => Reading.all (xs.zipIdx.map fun (x, i) => (s.read x).under (.index i))
    | _ => .fault .listType
  display xs := .list (xs.map s.display)

/-- An object of any values, nested to any depth: no limit on the levels is kept. -/
def metadata : Shape (List (String × Json)) where
  read x := match Source.json? x with
    | some (.object ms) => .ok ms
    | _ => .fault .dictType
  display ms := .map (Display.ofMembers ms)

def readKey (k : MapKey) : Reading String :=
  let bad (kind : FaultKind) : Reading String := .error [⟨[k.place, .key "[key]"], kind⟩]
  match k with
  | .text s => .ok s
  | .bytes (some s) _ => .ok s
  | .bytes none _ => bad .stringUnicode
  | .other _ => bad .stringType

def readEntry {σ : Type} (read : σ → Reading α) (entry : MapKey × σ) : Reading (String × α) :=
  (readKey entry.1).both ((read entry.2).under entry.1.place)

/-- A map from texts; of two keys that read as one text the later gives the value. -/
def map (s : Shape α) : Shape (List (String × α)) where
  read x := match Source.layer x with
    | .map entries =>
      (Reading.all (entries.map (readEntry s.read))).map fun l =>
        l.foldl (fun m (k, a) => insert k a m) []
    | _ => .fault .dictType
  display m := .map (m.map fun (k, a) => (k, s.display a))

end Shape

structure Fields (ρ α : Type) where
  read : {σ : Type} → [Source σ] → List (MapKey × σ) → Reading α
  display : ρ → List (String × Display)

namespace Fields

variable {ρ α β : Type}

def start (a : α) : Fields ρ α where
  read _ := .ok a
  display _ := []

def required (name : String) (s : Shape α) (get : ρ → α) : Fields ρ α where
  read entries := match valueUnder? name entries with
    | some x => (s.read x).under (.key name)
    | none => .error [⟨[.key name], .missing⟩]
  display r := [(name, s.display (get r))]

/-- A field with a value of its own where it is missing, though not where it is null. -/
def withDefault (name : String) (s : Shape α) (value : α) (get : ρ → α) : Fields ρ α where
  read entries := match valueUnder? name entries with
    | some x => (s.read x).under (.key name)
    | none => .ok value
  display r := [(name, s.display (get r))]

def optional (name : String) (s : Shape α) (get : ρ → Option α) : Fields ρ (Option α) :=
  withDefault name s.optional none get

def and (f : Fields ρ (α → β)) (x : Fields ρ α) : Fields ρ β where
  read entries := (f.read entries).apply (x.read entries)
  display r := f.display r ++ x.display r

instance : Functor (Fields ρ) where
  map g f := (start g).and f

instance : Seq (Fields ρ) where
  seq f x := f.and (x ())

end Fields

/-- A record of that name; entries that are no field of it are passed over. -/
def Shape.record {ρ : Type} (name : String) (fields : Fields ρ ρ) : Shape ρ where
  read x := match Source.layer x with
    | .map entries => fields.read entries
    | _ => .fault .modelType
  display r := .record name (fields.display r)

end LedgerQuery
