import SchemaClient.Text.Blank

/-!
# Type references

A type reference such as `[User!]!` is kept verbatim and taken apart: the base name, whether the
outermost type admits null, and whether it is a list. Any text has a base name. The nullability
of list elements and the depth of nested lists are not represented.
-/

namespace SchemaClient

structure TypeRef where
  raw : String
  base : String
  nullable : Bool
  isList : Bool
deriving DecidableEq, Repr

namespace TypeRef

open Text

def isBang (c : Char) : Bool := c = '!'

def isBracket (c : Char) : Bool := c = '[' || c = ']'

/-- The base name inside the brackets of a list. -/
def elementBase (cs : List Char) : List Char :=
  trimEndBy isBang (trimBy isBracket cs)

def parse (raw : String) : TypeRef :=
  let cs := raw.toList
  let outer := trimEndBy isBang cs
  let isList := outer.head? = some '['
  { raw := raw
    base := String.ofList (if isList then elementBase outer else outer)
    nullable := cs.getLast? ≠ some '!'
    isList := isList }

end TypeRef

end SchemaClient
