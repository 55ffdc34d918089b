import SchemaClient.Command.Run

/-!
# The command

The files that a run reads and writes are those of the machine; its texts go to the two output
streams.
-/

namespace SchemaClient

namespace FileError

def ofCode (code : UInt32) (details : String) : FileError :=
  match code.toNat with
  | 2 => .notFound
  | 16 => .busy
  | 17 => .alreadyExists
  | 20 => .notDirectory
  | 21 => .isDirectory
  | 36 => .nameTooLong
  | n => .other (details ++ " (os error " ++ toString n ++ ")")

def ofFailure : IO.Error → FileError
  | .noFileOrDirectory _ code details | .alreadyExists _ code details
  | .inappropriateType _ code details | .resourceBusy code details
  | .invalidArgument _ code details | .permissionDenied _ code details
  | .resourceExhausted _ code details | .otherError code details => .ofCode code details
  | e => .other e.toString

end FileError

namespace FileAccess

def attempt {α : Type} (action : IO α) : BaseIO (Except FileError α) := do
  match ← action.toBaseIO with
  | .ok x => pure (.ok x)
  | .error e => pure (.error (.ofFailure e))

/-- Whether a path leads to something of a kind. -/
def hasKind (kind : IO.FS.FileType) (p : DiskPath) : BaseIO Bool := do
  let found : Except FileError IO.FS.FileType ← attempt do
    let target ← IO.FS.realPath p
    pure (← target.metadata).type
  match found with
  | .ok k => pure (k == kind)
  | .error _ => pure false

/-- The files of the machine. -/
def machine : FileAccess BaseIO where
  isFile := hasKind .file
  isDirectory := hasKind .dir
  read p := attempt do pure (← IO.FS.readBinFile p).toList
  write p content := attempt (IO.FS.writeBinFile p (ByteArray.mk content.toArray))
  makeDirectory p := attempt (IO.FS.createDir p)
  rename source target := attempt (IO.FS.rename source target)
  remove p := attempt (IO.FS.removeFile p)
  names p := attempt do
    let directory ← IO.FS.realPath p
    pure ((← directory.readDir).toList.map (·.fileName))

end FileAccess

end SchemaClient

def main (arguments : List String) : IO UInt32 := do
  let run : BaseIO SchemaClient.Outcome :=
    SchemaClient.runCommand SchemaClient.FileAccess.machine arguments
  let outcome ← run
  IO.print outcome.output
  IO.eprint outcome.errors
  return outcome.code.toUInt32
