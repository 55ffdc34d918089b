import SchemaClient.Error
import SchemaClient.Files.Access
import SchemaClient.Source.Analysis

/-!
# Schema files

The text of a schema file and the model of it. Whatever is not a file is not found.
-/

namespace SchemaClient

variable {m : Type → Type} [Monad m]

namespace FileAccess

def schemaText (fs : FileAccess m) (p : DiskPath) : ExceptT GenerationError m String := do
  if ← fs.isFile p then
    match ← fs.read p with
    | .ok bytes => pure (decodeSource bytes)
    | .error e => throw (.schemaRead p e.message)
  else throw (.schemaNotFound p)

def schemaModel (fs : FileAccess m) (p : DiskPath) : ExceptT GenerationError m SchemaModel := do
  match analyse (← fs.schemaText p) with
  | .ok model => pure model
  | .error e => throw e

end FileAccess

end SchemaClient
