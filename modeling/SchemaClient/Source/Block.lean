import SchemaClient.Text.Blank

/-!
# Blocks in braces

The body of a block reaches to the brace that closes it, blocks inside it included.
-/

namespace SchemaClient.Source

/-- What stands before the brace that closes a block in which `depth` further blocks are open. -/
def bodyAt (depth : Nat) : List Char → Option (List Char)
  | [] => none
  | c :: cs =>
    if c = '\x7b' then (bodyAt (depth + 1) cs).map (c :: ·)
    else if c = '\x7d' then
      match depth with
      | 0 => some []
      | depth + 1 => (bodyAt depth cs).map (c :: ·)
    else (bodyAt depth cs).map (c :: ·)

/-- The trimmed body of the block that opens at the head of the text. -/
def blockBody? : List Char → Option (List Char)
  | '\x7b' :: cs => (bodyAt 0 cs).map Text.trim
  | _ => none

/-- The text from a byte on, if a character starts there. -/
def dropBytes : Nat → List Char → Option (List Char)
  | 0, cs => some cs
  | _, [] => none
  | n, c :: cs => if c.utf8Size ≤ n then dropBytes (n - c.utf8Size) cs else none

/-- The trimmed body of the block that opens at a byte of the text. -/
def blockBodyAt? (text : String) (position : Nat) : Option String :=
  ((dropBytes position text.toList).bind blockBody?).map String.ofList

end SchemaClient.Source
