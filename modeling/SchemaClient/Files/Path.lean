/-!
# Paths

A path is a text of components between slashes. Empty components do not count, nor does a dot
except at the very beginning. The last component names a file unless it is one of the dots; its
extension is what stands behind the last dot of the name, and a dot at its beginning starts none.
-/

namespace SchemaClient

abbrev DiskPath := String

namespace DiskPath

def isEmptyOrDot (piece : List Char) : Bool :=
  piece = [] || piece = ['.']

/-- The pieces with the last component at their end, if there is a component. The first piece is a
component unless it is empty. -/
def withoutTrailing : List (List Char) → List (List Char)
  | [] => []
  | first :: rest => first :: (rest.reverse.dropWhile isEmptyOrDot).reverse

/-- The pieces up to the last component, and this component. -/
def splitLast? (p : DiskPath) : Option (List (List Char) × List Char) :=
  match (withoutTrailing (p.toList.splitOn '/')).reverse with
  | [] => none
  | last :: above => if last.isEmpty then none else some (above.reverse, last)

def isAbsolute (p : DiskPath) : Bool :=
  p.toList.head? = some '/'

/-- The path without its last component; the root and the empty path have none. -/
def parent? (p : DiskPath) : Option DiskPath :=
  (splitLast? p).map fun (above, _) =>
    match withoutTrailing above with
    | [[]] => "/"
    | pieces => String.ofList (['/'].intercalate pieces)

/-- A path and those of the directories above it, the empty path and the root left out. A parent is
shorter, so the length of the path bounds their number. -/
def chainWithin : (steps : Nat) → DiskPath → List DiskPath
  | 0, _ => []
  | steps + 1, p =>
    match parent? p with
    | none => []
    | some above => p :: chainWithin steps above

def chain (p : DiskPath) : List DiskPath :=
  chainWithin p.length p

/-- Whether a component is a name; the dots are not. -/
def isName (component : List Char) : Bool :=
  component ≠ ['.'] && component ≠ ['.', '.']

/-- The pieces up to the file name, and the name. -/
def splitName? (p : DiskPath) : Option (List (List Char) × List Char) :=
  match splitLast? p with
  | some (above, last) => if isName last then some (above, last) else none
  | none => none

def fileName? (p : DiskPath) : Option String :=
  (splitName? p).map fun (_, name) => String.ofList name

/-- A name up to its last dot, and what follows the dot. -/
def splitExtension? (name : List Char) : Option (List Char × List Char) :=
  match name.reverse.span (· ≠ '.') with
  | (_, []) => none
  | (extension, _ :: stem) =>
    if stem.isEmpty then none else some (stem.reverse, extension.reverse)

def extension? (p : DiskPath) : Option String :=
  match splitName? p with
  | some (_, name) => (splitExtension? name).map fun (_, extension) => String.ofList extension
  | none => none

/-- The path with another extension; a path without a file name stays as it is. -/
def withExtension (p : DiskPath) (extension : String) : DiskPath :=
  match splitName? p with
  | none => p
  | some (above, name) =>
    let stem := match splitExtension? name with
      | some (stem, _) => stem
      | none => name
    String.ofList (['/'].intercalate (above ++ [stem ++ '.' :: extension.toList]))

/-- The path of a file in a directory. -/
def join (directory : DiskPath) (name : String) : DiskPath :=
  match directory.toList.getLast? with
  | none => name
  | some c => if c = '/' then directory ++ name else directory ++ "/" ++ name

end DiskPath

end SchemaClient
