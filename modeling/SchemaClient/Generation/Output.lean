import SchemaClient.Bindings.Client
import SchemaClient.Files.Access

/-!
# Output files

A file is written under another name first and then renamed, so that at any time it has either
its old content or the new one. A file that has the content already is left alone. Behind a run
those files of the output directory are removed that begin with the notice of generated code and
were not part of the run.
-/

namespace SchemaClient

open Text

variable {m : Type → Type} [Monad m]

/-- Runs an operation on files; the error names the path. -/
def writing {α : Type} (p : DiskPath) (operation : m (Except FileError α)) :
    ExceptT GenerationError m α := do
  match ← operation with
  | .ok x => pure x
  | .error e => throw (.write p e.message)

inductive WriteOutcome
  | written
  | unchanged
deriving DecidableEq, Repr

/-- What a run did to the output directory. -/
structure RunReport where
  written : List DiskPath := []
  unchanged : List DiskPath := []
  removed : List DiskPath := []
deriving DecidableEq, Repr

namespace FileAccess

def makeParent (fs : FileAccess m) (p : DiskPath) : ExceptT GenerationError m Unit :=
  match DiskPath.parent? p with
  | none => pure ()
  | some above => writing above (fs.makeDirectories above)

/-- The name under which a file is written first. -/
def draftPath (p : DiskPath) : DiskPath :=
  DiskPath.withExtension p "tmp"

def writeAtomic (fs : FileAccess m) (p : DiskPath) (content : String) :
    ExceptT GenerationError m Unit := do
  fs.makeParent p
  writing (draftPath p) (fs.write (draftPath p) (encodeUtf8 content.toList))
  writing p (fs.rename (draftPath p) p)

def hasContent (fs : FileAccess m) (p : DiskPath) (content : String) : m Bool := do
  match ← fs.read p with
  | .ok bytes => pure (bytes = encodeUtf8 content.toList)
  | .error _ => pure false

def writeIfChanged (fs : FileAccess m) (p : DiskPath) (content : String) :
    ExceptT GenerationError m WriteOutcome := do
  if ← fs.hasContent p content then pure .unchanged
  else
    fs.writeAtomic p content
    pure .written

/-! ## Files of earlier runs -/

/-- Whether a text begins with the notice of generated code. -/
def isGenerated (bytes : Bytes) : Bool :=
  match decodeUtf8? bytes with
  | some cs => Code.notice.toList.isPrefixOf cs
  | none => false

def isStale (fs : FileAccess m) (keep : List String) (directory : DiskPath) (name : String) :
    m Bool := do
  let p := DiskPath.join directory name
  if DiskPath.extension? p ≠ some "rs" || keep.contains name then pure false
  else if ← fs.isFile p then
    match ← fs.read p with
    | .ok bytes => pure (isGenerated bytes)
    | .error _ => pure false
  else pure false

/-- Removes the stale files among the names. -/
def removeEach (fs : FileAccess m) (keep : List String) (directory : DiskPath) :
    List String → ExceptT GenerationError m (List DiskPath)
  | [] => pure []
  | name :: names => do
    if ← fs.isStale keep directory name then
      let p := DiskPath.join directory name
      writing p (fs.remove p)
      let removed ← fs.removeEach keep directory names
      pure (p :: removed)
    else fs.removeEach keep directory names

def removeStale (fs : FileAccess m) (keep : List String) (directory : DiskPath) :
    ExceptT GenerationError m (List DiskPath) := do
  if ← fs.isDirectory directory then
    let names ← writing directory (fs.names directory)
    fs.removeEach keep directory (names.mergeSort fun a b => decide (a ≤ b))
  else pure []

/-! ## Runs -/

/-- Writes the files in order. -/
def writeFiles (fs : FileAccess m) (directory : DiskPath) :
    List ClientFile → ExceptT GenerationError m RunReport
  | [] => pure {}
  | f :: files => do
    let p := DiskPath.join directory f.name
    let outcome ← fs.writeIfChanged p f.content
    let report ← fs.writeFiles directory files
    pure (match outcome with
      | .written => { report with written := p :: report.written }
      | .unchanged => { report with unchanged := p :: report.unchanged })

/-- Generates the client for a schema into a directory. -/
def generate (fs : FileAccess m) (model : SchemaModel) (style : SelectionStyle)
    (directory : DiskPath) : ExceptT GenerationError m RunReport := do
  match clientFiles model style with
  | .error e => throw e
  | .ok files =>
    let report ← fs.writeFiles directory files
    let removed ← fs.removeStale (files.map (·.name)) directory
    pure { report with removed := removed }

end FileAccess

end SchemaClient
