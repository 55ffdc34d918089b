import SchemaClient.Json.Value

/-!
# JSON text

The compact form has no blanks, the indented one two spaces a level and empty containers closed
at once. Both are written in front of the text that follows, so each is an equation on the rest
of the output.
-/

namespace SchemaClient.Json

def hexDigit (n : Nat) : Char :=
  (Nat.toDigits 16 (n % 16)).headD '0'

/-- A character inside a string: quotes, backslashes and control characters are escaped. -/
def escapeChar (c : Char) : List Char :=
  match c with
  | '"' => ['\\', '"']
  | '\\' => ['\\', '\\']
  | '\x08' => ['\\', 'b']
  | '\x0c' => ['\\', 'f']
  | '\n' => ['\\', 'n']
  | '\r' => ['\\', 'r']
  | '\t' => ['\\', 't']
  | c => if c.toNat < 0x20 then ['\\', 'u', '0', '0', hexDigit (c.toNat / 16), hexDigit c.toNat]
    else [c]

def writeString (s : String) (rest : List Char) : List Char :=
  '"' :: s.toList.flatMap escapeChar ++ '"' :: rest

def writeInt (n : Int) (rest : List Char) : List Char :=
  match n with
  | .ofNat k => Nat.toDigits 10 k ++ rest
  | .negSucc k => '-' :: Nat.toDigits 10 (k + 1) ++ rest

def writeBool (b : Bool) (rest : List Char) : List Char :=
  (if b then ['t', 'r', 'u', 'e'] else ['f', 'a', 'l', 's', 'e']) ++ rest

def writeNull (rest : List Char) : List Char :=
  ['n', 'u', 'l', 'l'] ++ rest

mutual

/-- The compact text of a value, followed by `rest`. -/
def write : Json → List Char → List Char
  | .null, rest => writeNull rest
  | .bool b, rest => writeBool b rest
  | .int n, rest => writeInt n rest
  | .double x, rest => x.text ++ rest
  | .str s, rest => writeString s rest
  | .arr items, rest => '[' :: writeItems true items (']' :: rest)
  | .obj members, rest => '\x7b' :: writeMembers true members ('\x7d' :: rest)

def writeItems (first : Bool) : List Json → List Char → List Char
  | [], rest => rest
  | x :: xs, rest => (if first then id else (',' :: ·)) (write x (writeItems false xs rest))

def writeMembers (first : Bool) : List (String × Json) → List Char → List Char
  | [], rest => rest
  | (k, v) :: ms, rest =>
    (if first then id else (',' :: ·))
      (writeString k (':' :: write v (writeMembers false ms rest)))

end

def newLine (level : Nat) (rest : List Char) : List Char :=
  '\n' :: List.replicate (2 * level) ' ' ++ rest

mutual

/-- The indented text of a value that stands at `level`, followed by `rest`. -/
def writeIndented (level : Nat) : Json → List Char → List Char
  | .arr [], rest => '[' :: ']' :: rest
  | .arr items, rest => '[' :: writeIndentedItems level true items (newLine level (']' :: rest))
  | .obj [], rest => '\x7b' :: '\x7d' :: rest
  | .obj members, rest =>
    '\x7b' :: writeIndentedMembers level true members (newLine level ('\x7d' :: rest))
  | .null, rest => writeNull rest
  | .bool b, rest => writeBool b rest
  | .int n, rest => writeInt n rest
  | .double x, rest => x.text ++ rest
  | .str s, rest => writeString s rest

def writeIndentedItems (level : Nat) (first : Bool) : List Json → List Char → List Char
  | [], rest => rest
  | x :: xs, rest =>
    (if first then id else (',' :: ·))
      (newLine (level + 1)
        (writeIndented (level + 1) x (writeIndentedItems level false xs rest)))

def writeIndentedMembers (level : Nat) (first : Bool) :
    List (String × Json) → List Char → List Char
  | [], rest => rest
  | (k, v) :: ms, rest =>
    (if first then id else (',' :: ·))
      (newLine (level + 1)
        (writeString k
          (':' :: ' ' :: writeIndented (level + 1) v (writeIndentedMembers level false ms rest))))

end

def compact (j : Json) : String :=
  String.ofList (write j [])

def indented (j : Json) : String :=
  String.ofList (writeIndented 0 j [])

end SchemaClient.Json
