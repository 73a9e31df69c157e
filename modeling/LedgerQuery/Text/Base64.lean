namespace LedgerQuery.Text.Base64

def digit? (c : Char) : Option Nat :=
  if c.isUpper then some (c.toNat - 65)
  else if c.isLower then some (c.toNat - 71)
  else if c.isDigit then some (c.toNat + 4)
  else if c = '+' then some 62
  else if c = '/' then some 63
  else none

def bytesOf (group : List Nat) : List UInt8 :=
  let bits := group.foldl (fun n d => 64 * n + d) 0
  match group.length with
  | 2 => [UInt8.ofNat (bits / 16)]
  | 3 => [UInt8.ofNat (bits / 1024), UInt8.ofNat (bits / 4)]
  | 4 => [UInt8.ofNat (bits / 65536), UInt8.ofNat (bits / 256), UInt8.ofNat bits]
  | _ => []

/-- The bytes that follow a part of a group and the padding behind that part. -/
def decodeFrom (group : List Nat) (pads : Nat) : List Char → Option (List UInt8)
  | [] => if group = [] then some [] else none
  | c :: cs =>
    if c = '=' then
      if group.length < 2 then decodeFrom group pads cs
      else if 4 ≤ group.length + pads + 1 then some (bytesOf group)
      else decodeFrom group (pads + 1) cs
    else
      match digit? c with
      | none => decodeFrom group pads cs
      | some d =>
        if group.length = 3 then (bytesOf (group ++ [d]) ++ ·) <$> decodeFrom [] 0 cs
        else decodeFrom (group ++ [d]) 0 cs

def decode? (cs : List Char) : Option (List UInt8) := decodeFrom [] 0 cs

end LedgerQuery.Text.Base64
