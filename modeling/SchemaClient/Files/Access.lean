import SchemaClient.Files.Disk

/-!
# Access to files

What a program needs of a file system, in any monad. A disk gives it as a state that each
successful operation replaces.
-/

namespace SchemaClient

open Text

structure FileAccess (m : Type → Type) where
  isFile : DiskPath → m Bool
  isDirectory : DiskPath → m Bool
  read : DiskPath → m (Except FileError Bytes)
  write : DiskPath → Bytes → m (Except FileError Unit)
  makeDirectory : DiskPath → m (Except FileError Unit)
  rename : DiskPath → DiskPath → m (Except FileError Unit)
  remove : DiskPath → m (Except FileError Unit)
  names : DiskPath → m (Except FileError (List String))

namespace Disk

/-- Replaces the disk unless the operation fails. -/
def change (operation : Disk → Except FileError Disk) : StateM Disk (Except FileError Unit) :=
  fun d =>
    match operation d with
    | .ok d' => (.ok (), d')
    | .error e => (.error e, d)

def access : FileAccess (StateM Disk) where
  isFile p d := (d.isFile p, d)
  isDirectory p d := (d.isDirectory p, d)
  read p d := (d.read p, d)
  write p content := change (·.write p content)
  makeDirectory p := change (·.makeDirectory p)
  rename source target := change (·.rename source target)
  remove p := change (·.remove p)
  names p d := (d.names p, d)

end Disk

namespace FileAccess

variable {m : Type → Type} [Monad m]

/-- Makes the first of several directories, each of which is in the next one; the others are made
if they are missing. -/
def makeChain (fs : FileAccess m) : List DiskPath → m (Except FileError Unit)
  | [] => pure (.ok ())
  | p :: above => do
    let made (r : Except FileError Unit) : m (Except FileError Unit) :=
      match r with
      | .ok () => pure (.ok ())
      | .error e => do if ← fs.isDirectory p then pure (.ok ()) else pure (.error e)
    match ← fs.makeDirectory p with
    | .error .notFound =>
      match ← fs.makeChain above with
      | .error e => pure (.error e)
      | .ok () => made (← fs.makeDirectory p)
    | r => made r

/-- Makes a directory with all directories above it. -/
def makeDirectories (fs : FileAccess m) (p : DiskPath) : m (Except FileError Unit) :=
  fs.makeChain (DiskPath.chain p)

end FileAccess

end SchemaClient
