import SchemaClient.Files.Path
import SchemaClient.Text.Utf8

/-!
# Disks

A disk is a tree of directories and files under a root, with a working directory in it. A path is
followed from the root or from the working directory, one directory after the other, and ends in
a directory or in a name that need not be taken yet. Every operation fails as a whole: after an
error the disk is what it was.
-/

namespace SchemaClient

open Text

inductive FileError
  | notFound
  | alreadyExists
  | notDirectory
  | isDirectory
  | busy
  | nameTooLong
  | invalidName
  | other (text : String)
deriving DecidableEq, Repr

namespace FileError

def message : FileError → String
  | notFound => "No such file or directory (os error 2)"
  | alreadyExists => "File exists (os error 17)"
  | notDirectory => "Not a directory (os error 20)"
  | isDirectory => "Is a directory (os error 21)"
  | busy => "Device or resource busy (os error 16)"
  | nameTooLong => "File name too long (os error 36)"
  | invalidName => "file name contained an unexpected NUL byte"
  | other text => text

end FileError

inductive Entry
  | file (content : Bytes)
  | directory
deriving DecidableEq, Repr

/-- The names from a file or directory up to the root, which has none. -/
abbrev Location := List String

structure Disk where
  /-- All but the root, each location once. -/
  entries : List (Location × Entry)
  home : Location
deriving DecidableEq, Repr

/-- Where a path leads. -/
inductive Place
  | directory (location : Location)
  /-- A name in a directory, and whether slashes follow it in the path. -/
  | child (directory : Location) (name : String) (slash : Bool)
deriving DecidableEq, Repr

namespace Disk

/-- An empty working directory below the root. -/
def empty : Disk := ⟨[(["home"], .directory)], ["home"]⟩

def entry? (d : Disk) (l : Location) : Option Entry :=
  if l.isEmpty then some .directory else d.entries.lookup l

def setEntry (l : Location) (e : Entry) : List (Location × Entry) → List (Location × Entry)
  | [] => [(l, e)]
  | (l', e') :: rest => if l = l' then (l, e) :: rest else (l', e') :: setEntry l e rest

def set (d : Disk) (l : Location) (e : Entry) : Disk :=
  { d with entries := setEntry l e d.entries }

def erase (d : Disk) (l : Location) : Disk :=
  { d with entries := d.entries.filter (·.1 ≠ l) }

/-! ## Following a path -/

/-- Bytes that a name may have. -/
def maxName : Nat := 255

/-- Bytes that a path must stay below. -/
def pathLimit : Nat := 4096

def named (component : List Char) : Except FileError String :=
  let name := String.ofList component
  if name.utf8ByteSize ≤ maxName then .ok name else .error .nameTooLong

/-- The directory that a component leads to from a directory. -/
def descend (d : Disk) (l : Location) (component : List Char) : Except FileError Location :=
  if component = ['.'] then .ok l
  else if component = ['.', '.'] then .ok l.tail
  else do
    let name ← named component
    match d.entry? (name :: l) with
    | some .directory => pure (name :: l)
    | some (.file _) => throw .notDirectory
    | none => throw .notFound

def place (d : Disk) (p : DiskPath) : Except FileError Place := do
  let cs := p.toList
  if cs.contains '\x00' then throw .invalidName
  if cs.isEmpty then throw .notFound
  if pathLimit ≤ p.utf8ByteSize then throw .nameTooLong
  let start := if DiskPath.isAbsolute p then [] else d.home
  match ((cs.splitOn '/').filter (!·.isEmpty)).reverse with
  | [] => pure (.directory start)
  | last :: above => do
    let l ← above.reverse.foldlM d.descend start
    if DiskPath.isName last then pure (.child l (← named last) (cs.getLast? = some '/'))
    else (d.descend l last).map .directory

/-- What is found at a path. -/
def find (d : Disk) (p : DiskPath) : Except FileError Entry := do
  match ← d.place p with
  | .directory _ => pure .directory
  | .child l name slash =>
    match d.entry? (name :: l) with
    | none => throw .notFound
    | some .directory => pure .directory
    | some (.file content) => if slash then throw .notDirectory else pure (.file content)

/-! ## Operations -/

def isFile (d : Disk) (p : DiskPath) : Bool :=
  match d.find p with
  | .ok (.file _) => true
  | _ => false

def isDirectory (d : Disk) (p : DiskPath) : Bool :=
  match d.find p with
  | .ok .directory => true
  | _ => false

def read (d : Disk) (p : DiskPath) : Except FileError Bytes := do
  match ← d.find p with
  | .file content => pure content
  | .directory => throw .isDirectory

/-- Creates a file or replaces its content. -/
def write (d : Disk) (p : DiskPath) (content : Bytes) : Except FileError Disk := do
  match ← d.place p with
  | .directory _ | .child _ _ true => throw .isDirectory
  | .child l name false =>
    match d.entry? (name :: l) with
    | some .directory => throw .isDirectory
    | _ => pure (d.set (name :: l) (.file content))

def makeDirectory (d : Disk) (p : DiskPath) : Except FileError Disk := do
  match ← d.place p with
  | .directory _ => throw .alreadyExists
  | .child l name _ =>
    match d.entry? (name :: l) with
    | some _ => throw .alreadyExists
    | none => pure (d.set (name :: l) .directory)

/-- Moves a file, in place of another file if there is one. -/
def rename (d : Disk) (source target : DiskPath) : Except FileError Disk := do
  match ← d.place source, ← d.place target with
  | .child l name slash, .child l' name' slash' =>
    match d.entry? (name :: l) with
    | none => throw .notFound
    | some .directory => throw .isDirectory
    | some (.file content) => do
      if slash || slash' then throw .notDirectory
      match d.entry? (name' :: l') with
      | some .directory => throw .isDirectory
      | _ =>
        if name :: l = name' :: l' then pure d
        else pure ((d.erase (name :: l)).set (name' :: l') (.file content))
  | _, _ => throw .busy

def remove (d : Disk) (p : DiskPath) : Except FileError Disk := do
  match ← d.place p with
  | .directory _ => throw .isDirectory
  | .child l name slash =>
    match d.entry? (name :: l) with
    | none => throw .notFound
    | some .directory => throw .isDirectory
    | some (.file _) => if slash then throw .notDirectory else pure (d.erase (name :: l))

/-- The location of the directory at a path. -/
def directoryAt (d : Disk) (p : DiskPath) : Except FileError Location := do
  match ← d.place p with
  | .directory l => pure l
  | .child l name _ => d.descend l name.toList

/-- The names in the directory at a location. -/
def namesIn (d : Disk) (l : Location) : List String :=
  d.entries.filterMap fun
    | (name :: above, _) => if above = l then some name else none
    | ([], _) => none

def names (d : Disk) (p : DiskPath) : Except FileError (List String) :=
  (d.directoryAt p).map d.namesIn

/-! ## Listings -/

/-- The path of a location from a directory above it. -/
def below? (top : Location) (l : Location) : Option DiskPath :=
  if l ≠ top && top.reverse.isPrefixOf l.reverse then
    some ("/".intercalate (l.reverse.drop top.length))
  else none

/-- Every path below the working directory in order, with a slash behind directories. -/
def listing (d : Disk) : List DiskPath :=
  (d.entries.filterMap fun (l, e) =>
    (below? d.home l).map fun p =>
      match e with
      | .file _ => p
      | .directory => p ++ "/").mergeSort fun a b => decide (a ≤ b)

end Disk

end SchemaClient
