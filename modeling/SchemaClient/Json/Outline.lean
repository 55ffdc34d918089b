import SchemaClient.Json.Value

/-!
# Outlines of JSON text

Text is read left to right and the first problem decides. An outline is the tree of a text up to
the first place where it is no JSON, with the fault of that place in it; what a reader of a type
objects to is found by walking the outline in the same order. Skipped values are judged more
leniently than read ones: lone surrogates and numbers out of range pass.
-/

namespace SchemaClient.Json

/-- Why text could not be read: it ends early, it is no JSON, or it has another shape. -/
inductive ReadError
  | eof
  | malformed
  | data
deriving DecidableEq, Repr

def ReadError.message : ReadError → String
  | .eof => "eof"
  | .malformed => "syntax"
  | .data => "data"

inductive Number
  | int (value : Int)
  | double (value : Double)

/-- A text up to its first fault. -/
inductive Outline
  /-- The fault of this place when it is read and when it is skipped. -/
  | broken (read skip : ReadError)
  | null
  | bool (value : Bool)
  /-- No value when the number is out of range. -/
  | number (value : Option Number)
  /-- No text when an escape stands for half a character only. -/
  | text (content : Except ReadError String)
  | items (elements : List Outline) (close : Option ReadError)
  | members (entries : List (Except ReadError String × Outline)) (close : Option ReadError)

namespace Outline

/-- A value, and the text after it unless the value is broken. -/
abbrev Step := Outline × Option (List Char)

def isSpace (c : Char) : Bool :=
  c = ' ' || c = '\n' || c = '\t' || c = '\r'

def skipSpace (cs : List Char) : List Char :=
  cs.dropWhile isSpace

def stop (e : ReadError) : Step :=
  (.broken e e, none)

/-- The rest of a literal word. -/
def word (value : Outline) : List Char → List Char → Step
  | [], rest => (value, some rest)
  | _ :: _, [] => stop .eof
  | e :: es, c :: rest => if c = e then word value es rest else stop .malformed

/-! ## Numbers -/

def maxSignificand : Nat := 18446744073709551615

def maxExponent : Nat := 2147483647

def digitValue (c : Char) : Nat := c.toNat - '0'.toNat

/-- Appends digits to a significand while it has at most 64 bits; the digits left over. -/
def absorb (significand : Nat) : List Char → Nat × List Char
  | [] => (significand, [])
  | d :: ds =>
    let next := significand * 10 + digitValue d
    if next ≤ maxSignificand then absorb next ds else (significand, d :: ds)

def exponentValue (digits : List Char) : Nat :=
  digits.foldl (fun n d => n * 10 + digitValue d) 0

def doubleOf (negative : Bool) (significand : Nat) (exponent : Int) : Option Number :=
  (Magnitude.ofDecimal significand exponent).map fun m => .double ⟨negative, m⟩

/-- A number without fraction and exponent. An integer has at most 64 bits and a sign; what is
longer, and the negative zero, is a double. -/
def integer (negative : Bool) (digits : List Char) : Option Number :=
  let (significand, left) := absorb 0 digits
  if !left.isEmpty then doubleOf negative significand left.length
  else if !negative then some (.int significand)
  else if significand = 0 || Nat.pow 2 63 < significand then doubleOf true significand 0
  else some (.int (-significand))

/-- A number with a fraction or an exponent. -/
def decimal (negative : Bool) (whole fraction : List Char) (exponent : Option (Bool × List Char)) :
    Option Number :=
  let (significand, left) := absorb 0 whole
  let (significand, ignored) := absorb significand fraction
  let place : Int := (left.length : Int) - (fraction.length - ignored.length : Nat)
  match exponent with
  | none => doubleOf negative significand place
  | some (down, digits) =>
    let e := exponentValue digits
    if e ≤ maxExponent then
      doubleOf negative significand (if down then place - e else place + e)
    else if significand ≠ 0 && !down then none
    else some (.double ⟨negative, .zero⟩)

def isDigit (c : Char) : Bool :=
  '0' ≤ c && c ≤ '9'

def digits (cs : List Char) : List Char × List Char :=
  (cs.takeWhile isDigit, cs.dropWhile isDigit)

/-- A number that breaks off before a digit it needs. -/
def missingDigit (rest : List Char) : Step :=
  (if rest.isEmpty then .broken .eof .malformed else .broken .malformed .malformed, none)

def exponentPart (negative : Bool) (whole fraction cs : List Char) : Step :=
  let (down, cs) := match cs with
    | '+' :: rest => (false, rest)
    | '-' :: rest => (true, rest)
    | _ => (false, cs)
  let (ds, rest) := digits cs
  if ds.isEmpty then missingDigit rest
  else (.number (decimal negative whole fraction (some (down, ds))), some rest)

def afterFraction (negative : Bool) (whole fraction cs : List Char) : Step :=
  match cs with
  | 'e' :: rest | 'E' :: rest => exponentPart negative whole fraction rest
  | _ => (.number (decimal negative whole fraction none), some cs)

def afterWhole (negative : Bool) (whole cs : List Char) : Step :=
  match cs with
  | '.' :: rest =>
    let (fraction, rest) := digits rest
    if fraction.isEmpty then missingDigit rest else afterFraction negative whole fraction rest
  | 'e' :: rest | 'E' :: rest => exponentPart negative whole [] rest
  | _ => (.number (integer negative whole), some cs)

/-- A number after its sign; only a lone zero starts with a zero. -/
def number? (negative : Bool) (cs : List Char) : Step :=
  let (whole, rest) := digits cs
  match whole with
  | [] => missingDigit rest
  | '0' :: _ :: _ => stop .malformed
  | _ => afterWhole negative whole rest

/-! ## Strings -/

def hexValue (c : Char) : Option Nat :=
  if isDigit c then some (c.toNat - '0'.toNat)
  else if 'a' ≤ c && c ≤ 'f' then some (c.toNat - 'a'.toNat + 10)
  else if 'A' ≤ c && c ≤ 'F' then some (c.toNat - 'A'.toNat + 10)
  else none

/-- The code unit of four hexadecimal digits, which are four bytes of the text. -/
def hexUnit (cs : List Char) : Except ReadError Nat :=
  match cs with
  | a :: b :: c :: d :: _ =>
    match hexValue a, hexValue b, hexValue c, hexValue d with
    | some a, some b, some c, some d => .ok (((a * 16 + b) * 16 + c) * 16 + d)
    | _, _, _, _ => .error .malformed
  | _ => .error (if 4 ≤ (String.ofList cs).utf8ByteSize then .malformed else .eof)

def isHighSurrogate (n : Nat) : Bool := 0xD800 ≤ n && n ≤ 0xDBFF

def isLowSurrogate (n : Nat) : Bool := 0xDC00 ≤ n && n ≤ 0xDFFF

/-- The low half that must follow a high one at the start of the text. -/
def lowHalf (cs : List Char) : Except ReadError Nat :=
  match cs with
  | [] | ['\\'] => .error .eof
  | '\\' :: 'u' :: rest => do
    let n ← hexUnit rest
    if isLowSurrogate n then pure n else throw .malformed
  | _ => .error .malformed

/-- The character of a `u` escape with code unit `n`, with the number of further characters that
its second half takes. -/
def escapedUnit (n : Nat) (rest : List Char) : Except ReadError (Char × Nat) :=
  if isLowSurrogate n then .error .malformed
  else if isHighSurrogate n then do
    let low ← lowHalf rest
    pure (Char.ofNat (0x10000 + (n - 0xD800) * 0x400 + (low - 0xDC00)), 6)
  else .ok (Char.ofNat n, 0)

def simpleEscape : Char → Option Char
  | '"' => some '"'
  | '\\' => some '\\'
  | '/' => some '/'
  | 'b' => some '\x08'
  | 'f' => some '\x0c'
  | 'n' => some '\n'
  | 'r' => some '\r'
  | 't' => some '\t'
  | _ => none

/-- The text of a string as far as it is read, in reverse, or its first fault. -/
abbrev Draft := Except ReadError (List Char)

/-- A string after its opening quote: what reading it yields, and what skipping it leaves. -/
structure StringStep where
  content : Except ReadError String
  rest : Except ReadError (List Char)

def breakString (draft : Draft) (e : ReadError) : StringStep :=
  ⟨draft.bind fun _ => .error e, .error e⟩

/-- Reads to the closing quote. The first `passed` characters belong to an escape before them. -/
def string (draft : Draft) (passed : Nat) : List Char → StringStep
  | [] => breakString draft .eof
  | c :: rest =>
    match passed with
    | passed + 1 => string draft passed rest
    | 0 =>
      if c = '"' then ⟨draft.map fun cs => String.ofList cs.reverse, .ok rest⟩
      else if c = '\\' then
        match rest with
        | [] => breakString draft .eof
        | 'u' :: after =>
          match hexUnit after with
          | .error e => breakString draft e
          | .ok n =>
            match escapedUnit n (after.drop 4) with
            | .error e => string (draft.bind fun _ => .error e) 5 rest
            | .ok (x, more) => string (draft.map (x :: ·)) (5 + more) rest
        | e :: _ =>
          match simpleEscape e with
          | none => breakString draft .malformed
          | some x => string (draft.map (x :: ·)) 1 rest
      else if c.toNat < 0x20 then breakString draft .malformed
      else string (draft.map (c :: ·)) 0 rest

def text? (cs : List Char) : Step :=
  let s := string (.ok []) 0 cs
  match s.rest with
  | .ok rest => (.text s.content, some rest)
  | .error skip =>
    (.broken (match s.content with | .error e => e | .ok _ => skip) skip, none)

/-! ## Values -/

mutual

/-- The value at the start of the text. Each step takes a character, so the length of the text is
fuel enough. -/
def scan : Nat → List Char → Step
  | 0, _ => stop .eof
  | fuel + 1, cs =>
    match skipSpace cs with
    | [] => stop .eof
    | c :: rest =>
      if c = 'n' then word .null ['u', 'l', 'l'] rest
      else if c = 't' then word (.bool true) ['r', 'u', 'e'] rest
      else if c = 'f' then word (.bool false) ['a', 'l', 's', 'e'] rest
      else if c = '"' then text? rest
      else if c = '-' then number? true rest
      else if isDigit c then number? false (c :: rest)
      else if c = '[' then
        match skipSpace rest with
        | ']' :: rest => (.items [] none, some rest)
        | [] => (.items [] (some .eof), none)
        | rest =>
          let (elements, close, rest) := scanItems fuel rest
          (.items elements close, rest)
      else if c = '\x7b' then
        match skipSpace rest with
        | '\x7d' :: rest => (.members [] none, some rest)
        | rest =>
          let (entries, close, rest) := scanMembers fuel rest
          (.members entries close, rest)
      else stop .malformed

/-- The elements from the start of one to the closing bracket. -/
def scanItems : Nat → List Char → List Outline × Option ReadError × Option (List Char)
  | 0, _ => ([], some .eof, none)
  | fuel + 1, cs =>
    match scan fuel cs with
    | (x, none) => ([x], none, none)
    | (x, some rest) =>
      match skipSpace rest with
      | [] => ([x], some .eof, none)
      | ']' :: rest => ([x], none, some rest)
      | ',' :: rest =>
        match skipSpace rest with
        | ']' :: _ => ([x], some .malformed, none)
        | rest =>
          let (xs, close, rest) := scanItems fuel rest
          (x :: xs, close, rest)
      | _ => ([x], some .malformed, none)

/-- The members from the start of one to the closing brace. -/
def scanMembers : Nat → List Char →
    List (Except ReadError String × Outline) × Option ReadError × Option (List Char)
  | 0, _ => ([], some .eof, none)
  | fuel + 1, cs =>
    match skipSpace cs with
    | [] => ([], some .eof, none)
    | '"' :: rest =>
      let key := string (.ok []) 0 rest
      match key.rest with
      | .error skip => ([(key.content, .broken skip skip)], none, none)
      | .ok rest =>
        match skipSpace rest with
        | [] => ([(key.content, .broken .eof .eof)], none, none)
        | ':' :: rest =>
          match scan fuel rest with
          | (x, none) => ([(key.content, x)], none, none)
          | (x, some rest) =>
            match skipSpace rest with
            | [] => ([(key.content, x)], some .eof, none)
            | '\x7d' :: rest => ([(key.content, x)], none, some rest)
            | ',' :: rest =>
              let (xs, close, rest) := scanMembers fuel rest
              ((key.content, x) :: xs, close, rest)
            | _ => ([(key.content, x)], some .malformed, none)
        | _ => ([(key.content, .broken .malformed .malformed)], none, none)
    | _ => ([], some .malformed, none)

end

/-- The outline of a whole text, and the fault of what follows the value. -/
def ofText (s : String) : Outline × Option ReadError :=
  let cs := s.toList
  match scan (2 * cs.length + 2) cs with
  | (x, some rest) => (x, if (skipSpace rest).isEmpty then none else some .malformed)
  | (x, none) => (x, none)

end Outline

end SchemaClient.Json
