import SchemaClient.Error
import SchemaClient.Text.Blank
import SchemaClient.Text.Scan

/-!
# Normal form of schema text

Definitions are looked for in a normal form: block strings, directives and comments are removed
in that order, every run of blanks becomes one space, and none is left at the ends. A schema of
which nothing is left is empty.
-/

namespace SchemaClient.Source

open Text

/-- The number of characters before the first `"""`. -/
def quotesAhead : List Char → Option Nat
  | [] => none
  | '"' :: '"' :: '"' :: _ => some 0
  | _ :: cs => (quotesAhead cs).map (· + 1)

/-- Three quotes up to the next three. -/
def blockString : List Char → Option Nat
  | '"' :: '"' :: '"' :: cs => (quotesAhead cs).map (· + 6)
  | _ => none

/-- `@name`. -/
def directive : List Char → Option Nat
  | '@' :: cs => (run? isNameChar cs).map fun (name, _) => name.length + 1
  | _ => none

/-- A parenthesis up to the next closing one: what stands between them, and the text behind. -/
def parenthesised? : List Char → Option (List Char × List Char)
  | '(' :: cs =>
    match cs.dropWhile (· ≠ ')') with
    | [] => none
    | _ :: rest => some (cs.takeWhile (· ≠ ')'), rest)
  | _ => none

/-- `@name(...)`. -/
def directiveWithArguments : List Char → Option Nat
  | '@' :: cs => do
    let (name, rest) ← run? isNameChar cs
    let (inner, _) ← parenthesised? rest
    pure (name.length + inner.length + 3)
  | _ => none

/-- `#` to the end of the line. -/
def comment : List Char → Option Nat
  | '#' :: cs => some ((cs.takeWhile (· ≠ '\n')).length + 1)
  | _ => none

/-- Writes one space for every run of blanks; `inRun` when such a run is being passed. -/
def collapseFrom (inRun : Bool) : List Char → List Char
  | [] => []
  | c :: cs =>
    if isBlank c then
      if inRun then collapseFrom true cs else ' ' :: collapseFrom true cs
    else c :: collapseFrom false cs

def collapse (cs : List Char) : List Char :=
  collapseFrom false cs

def withoutNoise (cs : List Char) : List Char :=
  erase comment (erase directive (erase directiveWithArguments (erase blockString cs)))

def normal (cs : List Char) : List Char :=
  trim (collapse (withoutNoise cs))

def normalise (text : String) : Except GenerationError String :=
  match normal text.toList with
  | [] => .error .emptySchema
  | cs => .ok (String.ofList cs)

end SchemaClient.Source
