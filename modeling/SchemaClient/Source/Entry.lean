import SchemaClient.Schema.Definition
import SchemaClient.Source.Normal

/-!
# Entries of a body

The body of a definition is scanned for `name: Type` pairs, for operations with an argument list,
or for the bare words of an enum. What matches none of these contributes nothing.
-/

namespace SchemaClient.Source

open Text

def isTypeChar (c : Char) : Bool :=
  isNameChar c || c = '!' || c = '[' || c = ']'

def skipBlanks (cs : List Char) : List Char :=
  cs.dropWhile isBlank

/-- A colon and a type, blanks around the colon allowed: the type and the text behind it. -/
def typeAfterColon? (cs : List Char) : Option (List Char × List Char) :=
  match skipBlanks cs with
  | ':' :: rest => run? isTypeChar (skipBlanks rest)
  | _ => none

/-- `name: Type`. -/
def fieldPattern : Pattern Field := fun cs => do
  let (name, rest) ← run? isNameChar cs
  let (type, rest) ← typeAfterColon? rest
  pure (.of (String.ofList name) (String.ofList type), cs.length - rest.length)

def fieldsIn (cs : List Char) : List Field :=
  collect fieldPattern cs

def isParenthesis (c : Char) : Bool := c = '(' || c = ')'

/-- The arguments between two parentheses, which are read like the fields of a type. -/
def argumentsIn (inner : List Char) : List Field :=
  fieldsIn (trimBy isParenthesis inner)

/-- `name(arguments): Type`, the list in parentheses being optional. -/
def operationPattern : Pattern OperationField := fun cs => do
  let (name, rest) ← run? isNameChar cs
  let (args, rest) :=
    match parenthesised? (skipBlanks rest) with
    | some (inner, rest) => (argumentsIn inner, rest)
    | none => ([], rest)
  let (type, rest) ← typeAfterColon? rest
  pure (⟨String.ofList name, args, .parse (String.ofList type)⟩, cs.length - rest.length)

def operationsIn (cs : List Char) : List OperationField :=
  collect operationPattern cs

def valuePattern : Pattern String := fun cs => do
  let (word, _) ← run? isNameChar cs
  pure (String.ofList word, word.length)

def valuesIn (cs : List Char) : List String :=
  collect valuePattern cs

end SchemaClient.Source
