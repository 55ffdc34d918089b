import SchemaClient.Json.Value

/-!
# Variables of a request

A request body carries the document and, if there are any, the variables. A variable to be filled
by a file is named by a dotted path, whose segments are names in objects and indices in lists;
`nullAt` writes `null` there, and the map of the uploads says which file belongs where.
-/

namespace SchemaClient.Variables

/-- The body of a request; no variables are written as none at all. -/
def requestBody (document : String) (vs : Dictionary Json) : Json :=
  .obj (("query", .str document) ::
    if vs.isEmpty then [] else [("variables", .obj vs)])

/-! ## Paths -/

def rootName : String := "variables"

/-- The text behind the root and its dot, if a path starts so. -/
def belowRoot? (path : String) : Option (List Char) :=
  let root := rootName.toList ++ ['.']
  if root.isPrefixOf path.toList then some (path.toList.drop root.length) else none

/-- A path as it is written in the map: below the root in any case. -/
def rooted (path : String) : String :=
  if path = rootName || (belowRoot? path).isSome then path else rootName ++ "." ++ path

/-- The segments of a path below the root; empty ones do not count. -/
def segments (path : String) : List String :=
  ((((belowRoot? path).getD path.toList).splitOn '.').filter (!·.isEmpty)).map String.ofList

/-- An index of at most 64 bits: decimal digits with or without a plus sign. -/
def index? (segment : String) : Option Nat :=
  let digits := match segment.toList with
    | '+' :: cs => cs
    | cs => cs
  if digits.isEmpty || !digits.all Char.isDigit then none
  else
    let n := digits.foldl (fun n c => n * 10 + (c.toNat - '0'.toNat)) 0
    if n < Nat.pow 2 64 then some n else none

/-! ## Null values -/

/-- Writes `null` below a value. Names that are missing are added, and a value that holds nothing
becomes an object; an index that a list does not have changes nothing. -/
def nullIn : List String → Json → Json
  | [], _ => .null
  | s :: path, .arr items =>
    match index? s with
    | some i => .arr (items.modify i (nullIn path))
    | none => .arr items
  | s :: path, .obj members =>
    .obj (Dictionary.update s (fun v => nullIn path (v.getD (.obj []))) members)
  | s :: path, _ => .obj [(s, nullIn path (.obj []))]

/-- The variables with `null` at a path. -/
def nullAt (vs : Dictionary Json) (path : String) : Dictionary Json :=
  match segments path with
  | [] => vs
  | s :: path => Dictionary.update s (fun v => nullIn path (v.getD (.obj []))) vs

/-- Which file fills which variable, the files being counted from 0. -/
def uploadMap (paths : List String) : Dictionary Json :=
  .ofList (paths.mapIdx fun i path => (toString i, .ofStrings [rooted path]))

end SchemaClient.Variables
