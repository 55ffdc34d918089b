import SchemaClient.Schema.Definition
import SchemaClient.Source.Block
import SchemaClient.Text.Alphabet
import SchemaClient.Text.Scan

/-!
# Headers of definitions

A definition is a header such as `extend type User implements Node` and a block. The keyword
starts at a word boundary, and no brace stands between the name and the block. Headers inside the
block of another definition count as well; a block that never closes is passed over.
-/

namespace SchemaClient.Source

open Text

/-- A definition cut out of a schema's normal form. -/
structure RawDefinition where
  name : String
  body : String
deriving DecidableEq, Repr

/-- The text behind a nonempty run of blanks. -/
def afterBlanks? (cs : List Char) : Option (List Char) :=
  (run? isBlank cs).map (·.2)

/-- A name that starts with no digit, and the text behind it. -/
def nameAt? (cs : List Char) : Option (List Char × List Char) :=
  if (cs.head?.map isNameStart).getD false then run? isNameChar cs else none

def isBrace (c : Char) : Bool := c = '\x7b' || c = '\x7d'

/-- A header without `extend`: its name, and the text from the brace that opens its block. -/
def plainHeader? (keyword : List Char) (cs : List Char) : Option (List Char × List Char) := do
  let rest ← after? keyword cs
  let rest ← afterBlanks? rest
  let (name, rest) ← nameAt? rest
  match rest.dropWhile (!isBrace ·) with
  | '\x7b' :: block => some (name, '\x7b' :: block)
  | _ => none

def extendWord : List Char := ['e', 'x', 't', 'e', 'n', 'd']

def header? (keyword : List Char) (cs : List Char) : Option (List Char × List Char) :=
  (do plainHeader? keyword (← afterBlanks? (← after? extendWord cs)))
    <|> plainHeader? keyword cs

/-- Whether a word starts here, given the character before. -/
def startsWord (previous : Option Char) (cs : List Char) : Bool :=
  (previous.map isWordChar).getD false != (cs.head?.map isWordChar).getD false

/-- The headers of a text with their blocks. The first `passed` characters belong to a header
before them, and `previous` is the character before the text. -/
def headersFrom (keyword : List Char) (previous : Option Char) (passed : Nat) :
    List Char → List (List Char × List Char)
  | [] => []
  | c :: cs =>
    match passed with
    | passed + 1 => headersFrom keyword (some c) passed cs
    | 0 =>
      match header? keyword (c :: cs) with
      | some (name, block) =>
        if startsWord previous (c :: cs) then
          (name, block) :: headersFrom keyword (some c) (cs.length + 1 - block.length) cs
        else headersFrom keyword (some c) 0 cs
      | none => headersFrom keyword (some c) 0 cs

def headers (keyword : List Char) (cs : List Char) : List (List Char × List Char) :=
  headersFrom keyword none 0 cs

/-- Every definition of a kind, in order. -/
def definitionsIn (kind : DefinitionKind) (text : String) : List RawDefinition :=
  (headers kind.keyword.toList text.toList).filterMap fun (name, block) =>
    (blockBody? block).map fun body => ⟨String.ofList name, String.ofList body⟩

/-- The body of the first definition of a kind with this name. -/
def bodyOf? (kind : DefinitionKind) (name : String) (text : String) : Option String :=
  ((definitionsIn kind text).find? (·.name = name)).map (·.body)

end SchemaClient.Source
