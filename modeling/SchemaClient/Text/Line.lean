/-!
# Lines

A text is a list of lines, each ended by a line feed with or without a carriage return before it.
The last line needs no end.
-/

namespace SchemaClient.Text

def withoutReturn (line : List Char) : List Char :=
  if line.getLast? = some '\r' then line.dropLast else line

/-- Ends the pieces that a line feed follows. -/
def endLines : List (List Char) → List (List Char)
  | [] => []
  | [p] => if p.isEmpty then [] else [p]
  | p :: ps => withoutReturn p :: endLines ps

def lines (cs : List Char) : List (List Char) :=
  endLines (cs.splitOn '\n')

end SchemaClient.Text
