import SchemaClient.Text.Utf8

/-!
# UTF-16

Code units in either byte order. A surrogate without its partner becomes a replacement character
of its own, and an odd byte at the end is dropped.
-/

namespace SchemaClient.Text

inductive ByteOrder
  | little
  | big
deriving DecidableEq, Repr

def unitOf (order : ByteOrder) (a b : UInt8) : Nat :=
  match order with
  | .little => a.toNat + b.toNat * 0x100
  | .big => a.toNat * 0x100 + b.toNat

def units (order : ByteOrder) : Bytes → List Nat
  | a :: b :: rest => unitOf order a b :: units order rest
  | _ => []

def isHigh (n : Nat) : Bool := 0xD800 ≤ n && n < 0xDC00

def isLow (n : Nat) : Bool := 0xDC00 ≤ n && n < 0xE000

def pairChar (high low : Nat) : Char :=
  Char.ofNat (0x10000 + (high - 0xD800) * 0x400 + (low - 0xDC00))

/-- The characters of code units, a high surrogate before them waiting for its partner. -/
def charsAfter (waiting : Option Nat) : List Nat → List Char
  | [] => match waiting with
    | none => []
    | some _ => [replacement]
  | n :: rest =>
    match waiting with
    | some high =>
      if isLow n then pairChar high n :: charsAfter none rest
      else if isHigh n then replacement :: charsAfter (some n) rest
      else replacement :: Char.ofNat n :: charsAfter none rest
    | none =>
      if isHigh n then charsAfter (some n) rest
      else if isLow n then replacement :: charsAfter none rest
      else Char.ofNat n :: charsAfter none rest

def decodeUtf16 (order : ByteOrder) (bs : Bytes) : List Char :=
  charsAfter none (units order bs)

def unitBytes (order : ByteOrder) (n : Nat) : Bytes :=
  match order with
  | .little => [UInt8.ofNat n, UInt8.ofNat (n / 0x100)]
  | .big => [UInt8.ofNat (n / 0x100), UInt8.ofNat n]

def unitsOfChar (c : Char) : List Nat :=
  let n := c.toNat
  if n < 0x10000 then [n]
  else [0xD800 + (n - 0x10000) / 0x400, 0xDC00 + (n - 0x10000) % 0x400]

def encodeUtf16 (order : ByteOrder) (cs : List Char) : Bytes :=
  (cs.flatMap unitsOfChar).flatMap (unitBytes order)

end SchemaClient.Text
