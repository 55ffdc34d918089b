/-!
# Patterns and scans

A pattern looks at the head of a text and tells what it finds there and how many characters that
takes. A scan tries a pattern at every place from left to right; a match is consumed before the
scan goes on behind it, so matches never overlap.
-/

namespace SchemaClient.Text

/-- A value found at the head of a text, with its length in characters. -/
abbrev Pattern (α : Type) := List Char → Option (α × Nat)

/-- The values of all matches. The first `passed` characters belong to a match before them. -/
def collectFrom {α : Type} (p : Pattern α) (passed : Nat) : List Char → List α
  | [] => []
  | c :: cs =>
    match passed with
    | passed + 1 => collectFrom p passed cs
    | 0 =>
      match p (c :: cs) with
      | none => collectFrom p 0 cs
      | some (x, length) => x :: collectFrom p (length - 1) cs

def collect {α : Type} (p : Pattern α) (cs : List Char) : List α :=
  collectFrom p 0 cs

/-- The text without the matches. -/
def eraseFrom (p : List Char → Option Nat) (passed : Nat) : List Char → List Char
  | [] => []
  | c :: cs =>
    match passed with
    | passed + 1 => eraseFrom p passed cs
    | 0 =>
      match p (c :: cs) with
      | none => c :: eraseFrom p 0 cs
      | some length => eraseFrom p (length - 1) cs

def erase (p : List Char → Option Nat) (cs : List Char) : List Char :=
  eraseFrom p 0 cs

/-- The text behind a given beginning. -/
def after? : List Char → List Char → Option (List Char)
  | [], cs => some cs
  | _ :: _, [] => none
  | x :: xs, c :: cs => if x = c then after? xs cs else none

/-- The longest nonempty beginning of characters that satisfy `p`, and the text behind it. -/
def run? (p : Char → Bool) (cs : List Char) : Option (List Char × List Char) :=
  match cs.takeWhile p with
  | [] => none
  | word => some (word, cs.dropWhile p)

/-- Letters, digits and the underscore, of ASCII only. -/
def isNameChar (c : Char) : Bool :=
  c.isAlphanum || c = '_'

def isNameStart (c : Char) : Bool :=
  c.isAlpha || c = '_'

end SchemaClient.Text
