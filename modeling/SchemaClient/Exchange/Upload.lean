import SchemaClient.Exchange.Failure
import SchemaClient.Exchange.MediaType
import SchemaClient.Exchange.Variables
import SchemaClient.Files.Access

/-!
# Uploads

Files that fill variables are sent beside the request body: a form has the body with `null` for
each of these variables, the map that says which file fills which, and the files, counted from 0.
-/

namespace SchemaClient

structure Upload where
  path : DiskPath
  fileName : String
  mediaType : String
deriving DecidableEq, Repr

/-- A file of a form. -/
structure FilePart where
  name : String
  fileName : String
  mediaType : String
  content : Text.Bytes
deriving DecidableEq, Repr

structure UploadForm where
  operations : Json
  map : Json
  files : List FilePart
deriving Repr

namespace Upload

variable {m : Type → Type} [Monad m]

/-- An upload of an existing file, named and typed after its path. -/
def ofFile (fs : FileAccess m) (p : DiskPath)
    (guess : DiskPath → Option String := MediaType.guess?) : m (Except Failure Upload) := do
  if ← fs.isFile p then
    pure (.ok ⟨p, (DiskPath.fileName? p).getD "", (guess p).getD MediaType.standard⟩)
  else pure (.error (.upload p "file not found"))

def part (fs : FileAccess m) (u : Upload) (name : String) : m (Except Failure FilePart) := do
  match ← fs.read u.path with
  | .error e => pure (.error (.upload u.path e.message))
  | .ok content =>
    if MediaType.isValid u.mediaType then pure (.ok ⟨name, u.fileName, u.mediaType, content⟩)
    else pure (.error (.transport .invalidMediaType))

/-- The parts of several uploads, counted from `index`. -/
def parts (fs : FileAccess m) (index : Nat) : List Upload → m (Except Failure (List FilePart))
  | [] => pure (.ok [])
  | u :: us => do
    match ← u.part fs (toString index) with
    | .error e => pure (.error e)
    | .ok p => return (← parts fs (index + 1) us).map (p :: ·)

end Upload

namespace UploadForm

/-- The variables with `null` for each that a file fills. -/
def emptied (vs : Dictionary Json) (paths : List String) : Dictionary Json :=
  paths.foldl (fun vs path => Variables.nullAt vs (Variables.rooted path)) vs

/-- The form of a request whose variables at the paths are filled by files. -/
def of (document : String) (vs : Dictionary Json) (paths : List String)
    (files : List FilePart) : UploadForm where
  operations := Variables.requestBody document (emptied vs paths)
  map := .obj (Variables.uploadMap paths)
  files := files

/-- Reads the files of a form. -/
def build {m : Type → Type} [Monad m] (fs : FileAccess m) (document : String)
    (vs : Dictionary Json) (uploads : List (String × Upload)) :
    m (Except Failure UploadForm) :=
  return (← Upload.parts fs 0 (uploads.map (·.2))).map
    (of document vs (uploads.map (·.1)))

end UploadForm

end SchemaClient
