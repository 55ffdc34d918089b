import SchemaClient.Text.CaseTable

/-!
# Letter case

Upper and lower case by the full Unicode mappings, which may turn one character into several.
A capital sigma that ends a word has a lower-case form of its own; `lowerChar` alone, which sees
no neighbours, never yields that form.
-/

namespace SchemaClient.Text

def isLowercase (c : Char) : Bool :=
  inProgressions c.toNat lowercaseSpans

def isUppercase (c : Char) : Bool :=
  inProgressions c.toNat uppercaseSpans

def isCased (c : Char) : Bool :=
  isLowercase c || isUppercase c || inRanges c.toNat titlecaseRanges

def isCaseIgnorable (c : Char) : Bool :=
  inRanges c.toNat caseIgnorableRanges

def shifted (n : Nat) : List Shift → Option Char
  | [] => none
  | s :: rest =>
    if s.span.contains n then some (Char.ofNat (n + s.offset).toNat) else shifted n rest

/-- The image of a character under a case mapping; a character outside both tables is kept. -/
def mapCase (expansions : List (Nat × List Nat)) (shifts : List Shift) (c : Char) : List Char :=
  match expansions.lookup c.toNat with
  | some codes => codes.map Char.ofNat
  | none => [(shifted c.toNat shifts).getD c]

def lowerChar (c : Char) : List Char :=
  mapCase lowerExpansions lowerShifts c

def upperChar (c : Char) : List Char :=
  mapCase upperExpansions upperShifts c

/-- Whether the first character that counts for case is a cased one. -/
def startsCased (cs : List Char) : Bool :=
  ((cs.dropWhile isCaseIgnorable).head?.map isCased).getD false

/-- Lower-cases text whose preceding characters, nearest first, are `before`. -/
def lowerAfter (before : List Char) : List Char → List Char
  | [] => []
  | c :: rest =>
    let image :=
      if c = 'Σ' then
        if startsCased before && !startsCased rest then ['ς'] else ['σ']
      else lowerChar c
    image ++ lowerAfter (c :: before) rest

def lower (cs : List Char) : List Char :=
  lowerAfter [] cs

def upper (cs : List Char) : List Char :=
  cs.flatMap upperChar

end SchemaClient.Text
