/-!
# UTF-8

Bytes are read sequence by sequence. A sequence that breaks off is replaced by one replacement
character for the longest part of it that some character starts with; strict reading refuses it.
-/

namespace SchemaClient.Text

abbrev Bytes := List UInt8

def replacement : Char := '\ufffd'

def isContinuation (b : UInt8) : Bool :=
  0x80 ≤ b && b ≤ 0xBF

/-- The bytes that follow a first byte: how many, and the bounds of the first of them. -/
structure Lead where
  more : Nat
  low : UInt8
  high : UInt8
  /-- The bits of the code point that the first byte gives. -/
  bits : Nat

def lead? (b : UInt8) : Option Lead :=
  if b < 0x80 then some ⟨0, 0x80, 0xBF, b.toNat⟩
  else if b < 0xC2 then none
  else if b < 0xE0 then some ⟨1, 0x80, 0xBF, b.toNat - 0xC0⟩
  else if b = 0xE0 then some ⟨2, 0xA0, 0xBF, 0⟩
  else if b = 0xED then some ⟨2, 0x80, 0x9F, 0xD⟩
  else if b < 0xF0 then some ⟨2, 0x80, 0xBF, b.toNat - 0xE0⟩
  else if b = 0xF0 then some ⟨3, 0x90, 0xBF, 0⟩
  else if b < 0xF4 then some ⟨3, 0x80, 0xBF, b.toNat - 0xF0⟩
  else if b = 0xF4 then some ⟨3, 0x80, 0x8F, 4⟩
  else none

/-- The leading bytes that continue a sequence, at most `more` of them. -/
def continuation (l : Lead) (bs : Bytes) : Bytes :=
  match l.more, bs with
  | 0, _ => []
  | _, [] => []
  | more + 1, b :: rest =>
    if l.low ≤ b && b ≤ l.high then b :: (rest.take more).takeWhile isContinuation else []

/-- The character that a first byte starts, if it is whole, and the number of further bytes that
belong to it. -/
def sequence (b : UInt8) (rest : Bytes) : Option Char × Nat :=
  match lead? b with
  | none => (none, 0)
  | some l =>
    let tail := continuation l rest
    if tail.length = l.more then
      (some (Char.ofNat (tail.foldl (fun n b => n * 64 + (b.toNat - 0x80)) l.bits)), tail.length)
    else (none, tail.length)

/-- Every character of the bytes, `none` for a broken sequence. The first `passed` bytes belong
to a character before them. -/
def utf8Sequences (passed : Nat) : Bytes → List (Option Char)
  | [] => []
  | b :: rest =>
    match passed with
    | passed + 1 => utf8Sequences passed rest
    | 0 =>
      let (c, more) := sequence b rest
      c :: utf8Sequences more rest

def decodeUtf8Lossy (bs : Bytes) : List Char :=
  (utf8Sequences 0 bs).map (·.getD replacement)

def decodeUtf8? (bs : Bytes) : Option (List Char) :=
  (utf8Sequences 0 bs).mapM id

def encodeUtf8Char (c : Char) : Bytes :=
  let n := c.toNat
  let tail (shift : Nat) : UInt8 := UInt8.ofNat (0x80 + n / Nat.pow 64 shift % 64)
  if n < 0x80 then [UInt8.ofNat n]
  else if n < 0x800 then [UInt8.ofNat (0xC0 + n / 64), tail 0]
  else if n < 0x10000 then [UInt8.ofNat (0xE0 + n / Nat.pow 64 2), tail 1, tail 0]
  else [UInt8.ofNat (0xF0 + n / Nat.pow 64 3), tail 2, tail 1, tail 0]

def encodeUtf8 (cs : List Char) : Bytes :=
  cs.flatMap encodeUtf8Char

end SchemaClient.Text
