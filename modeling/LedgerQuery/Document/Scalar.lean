import LedgerQuery.Document.Moment
import LedgerQuery.Shape.Source
import LedgerQuery.Text.Quoted
import LedgerQuery.Number.Written

namespace LedgerQuery

inductive Scalar
  | null
  | bool (b : Bool)
  | number (n : Number)
  | text (s : String)
  /-- Text with lone surrogates; `shown` has the replacement character for these. -/
  | brokenText (shown : String)
  | bytes (bs : List UInt8)
  | moment (m : Moment)
deriving DecidableEq, Inhabited

namespace Scalar

/-- What makes a scalar the key that it is. -/
inductive Identity
  | value (v : Value)
  | itself (s : Scalar)
deriving DecidableEq

def identity : Scalar → Identity
  | .bool b => .value (Number.int (if b then 1 else 0)).value
  | .number n => .value n.value
  | s => .itself s

def sameKey (a b : Scalar) : Bool := a.identity = b.identity

theorem sameKey_iff {a b : Scalar} : a.sameKey b = true ↔ a.identity = b.identity := by
  simp [sameKey]

theorem sameKey_self (a : Scalar) : a.sameKey a = true := sameKey_iff.2 rfl

theorem sameKey_text {s t : String} : (Scalar.text s).sameKey (.text t) = true ↔ s = t := by
  simp [sameKey_iff, identity]

def isVoid : Scalar → Bool
  | .null => true
  | .bool b => !b
  | .number n => n.value = .finite 0
  | .text s => s = ""
  | .bytes bs => bs = []
  | .brokenText _ | .moment _ => false

def decoded? (bs : List UInt8) : Option String := String.fromUTF8? ⟨bs.toArray⟩

def shownByte (quote : Char) (b : UInt8) : List Char :=
  if b < 0x80 then Text.escape quote (Char.ofNat b.toNat) else Text.numericEscape b.toNat

def shownBytes (bs : List UInt8) : String :=
  let quote := Text.quoteFor (bs.map fun b => Char.ofNat b.toNat)
  String.ofList ('b' :: quote :: bs.flatMap (shownByte quote) ++ [quote])

/-- Numbers of 64 bits with sign give the place of an entry by themselves, other keys by their text. -/
def place : Scalar → Place
  | .null => .key "None"
  | .bool b => .index (if b then 1 else 0)
  | .number (.int n) => if fitsWord n then .index n else .key (toString n)
  | .number n => .key n.text
  | .text s | .brokenText s => .key s
  | .bytes bs => .key (shownBytes bs)
  | .moment m => .key m.shown

/-- No name here can hold a lone surrogate, so text with one is refused as a name, as bytes that encode none are. -/
def mapKey : Scalar → MapKey
  | .text s => .text s
  | .brokenText s => .bytes none s
  | .bytes bs => .bytes (decoded? bs) (shownBytes bs)
  | k => .other k.place

def layer {σ : Type} : Scalar → Layer σ
  | .null => .null
  | .bool b => .bool b
  | .number n => .number n
  | .text s => .text s
  | .brokenText s => .brokenText s
  | .bytes bs =>
    match decoded? bs with
    | some s => .text s
    | none => .brokenBytes
  | .moment _ => .moment

end Scalar

end LedgerQuery
