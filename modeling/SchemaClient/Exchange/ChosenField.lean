/-!
# Selections of the caller

A caller who wants other fields than the built ones lists them: names, and names with fields of
their own. The text goes between the braces of the document; a field without any fields of its
own gets empty braces.
-/

namespace SchemaClient

inductive ChosenField
  | leaf (name : String)
  | nested (name : String) (fields : List ChosenField)
deriving Repr

namespace ChosenField

def name : ChosenField → String
  | leaf name => name
  | nested name _ => name

mutual

def text : ChosenField → String
  | leaf name => name
  | nested name fields =>
    if fields.isEmpty then name ++ " \x7b\x7d"
    else name ++ " \x7b " ++ " ".intercalate (texts fields) ++ " \x7d"

def texts : List ChosenField → List String
  | [] => []
  | f :: fs => text f :: texts fs

end

/-- The fields, with a space between each two. -/
def selectionText (fields : List ChosenField) : String :=
  " ".intercalate (texts fields)

end ChosenField

end SchemaClient
