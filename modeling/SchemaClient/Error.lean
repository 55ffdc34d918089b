/-!
# Generation errors

Why no client could be generated. The first three causes lie in the schema.
-/

namespace SchemaClient

inductive GenerationError
  | schemaNotFound (path : String)
  | schemaRead (path cause : String)
  | emptySchema
  | invalidCode (message : String)
  | write (path cause : String)
  | configuration (message : String)
deriving DecidableEq, Repr

namespace GenerationError

def message : GenerationError → String
  | schemaNotFound path => "Schema file not found: " ++ path
  | schemaRead path cause => "Failed to read schema file '" ++ path ++ "': " ++ cause
  | emptySchema => "Schema file is empty or contains no valid GraphQL definitions"
  | invalidCode message => "Code generation failed: " ++ message
  | write path cause => "Failed to write output file '" ++ path ++ "': " ++ cause
  | configuration message => "Invalid configuration: " ++ message

def isSchemaError : GenerationError → Bool
  | schemaNotFound _ | schemaRead _ _ | emptySchema => true
  | _ => false

end GenerationError

end SchemaClient
