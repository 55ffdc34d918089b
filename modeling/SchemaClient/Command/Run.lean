import SchemaClient.Command.Options
import SchemaClient.Generation.Output
import SchemaClient.Generation.Schema
import SchemaClient.Json.Printer
import SchemaClient.Schema.Codec

/-!
# Runs of the command

A run reads a schema and then either prints its model, prints the files of the client, or writes
them. It ends with code 0, or with code 1 and the error; wrong arguments end it with code 2.
-/

namespace SchemaClient

/-- What a run prints and how it ends. -/
structure Outcome where
  code : Nat
  output : String
  errors : String
deriving DecidableEq, Repr

def programName : String := "graphgen-gen"

def versionText : String := programName ++ " 0.1.0\n"

def usageText : String := "Usage: " ++ programName ++ " [OPTIONS] <SCHEMA>\n"

def helpText : String :=
  "Graphgen code generator - transforms a GraphQL schema into a typed Rust client\n\n"
    ++ usageText
    ++ "\nArguments:\n"
    ++ "  <SCHEMA>  Path to the GraphQL SDL schema file\n"
    ++ "\nOptions:\n"
    ++ "  -o, --output <OUTPUT>          "
    ++ "Output directory for generated code [default: src/graphql]\n"
    ++ "      --dry-run                  Print generated code without writing files\n"
    ++ "      --selection-style <STYLE>  "
    ++ "Layout of selection sets in request documents [default: inline]\n"
    ++ "      --dump-model               Print the analysed schema model as JSON and exit\n"
    ++ "  -v, --verbose...               Increase verbosity (-v, -vv, -vvv)\n"
    ++ "  -h, --help                     Print help\n"
    ++ "  -V, --version                  Print version\n"

namespace Outcome

def ofHalt : Halt → Outcome
  | .help => ⟨0, helpText, ""⟩
  | .version => ⟨0, versionText, ""⟩
  | .usage e =>
    ⟨2, "", "error: " ++ e.message ++ "\n\n" ++ usageText
      ++ "\nFor more information, try '--help'.\n"⟩

/-- The end of a run that has written `errors` before. -/
def failed (errors : String) (e : GenerationError) : Outcome :=
  ⟨1, "", errors ++ "error: " ++ e.message ++ "\n"⟩

end Outcome

namespace Options

def introduction (o : Options) : String :=
  if o.verbosity = 0 then ""
  else
    "Schema: " ++ o.schema ++ "\nOutput directory: " ++ o.output ++ "\n"
      ++ if o.dryRun then "Dry run mode - no files will be written\n" else ""

def count (n : Nat) (noun : String) : String := toString n ++ " " ++ noun

def summary (o : Options) (model : SchemaModel) : String :=
  if o.verbosity ≤ 1 then ""
  else
    "Schema: " ++ ", ".intercalate
      [count model.objectTypes.length "types", count model.inputTypes.length "inputs",
        count model.enums.length "enums", count model.queryFields.length "queries",
        count model.mutationFields.length "mutations"] ++ "\n"

def listing (files : List ClientFile) : String :=
  String.join (files.map fun f => "=== " ++ f.name ++ " ===\n" ++ f.content ++ "\n\n")

def reportText (o : Options) (r : RunReport) : String :=
  "Generated " ++ o.output ++ " ("
    ++ ", ".intercalate
      [count r.written.length "written", count r.unchanged.length "unchanged",
        count r.removed.length "removed"] ++ ")\n"

variable {m : Type → Type} [Monad m]

/-- The model that a run is about. -/
def model (o : Options) (fs : FileAccess m) : ExceptT GenerationError m SchemaModel :=
  if o.dumpModel && o.dryRun then
    throw (.configuration "--dump-model cannot be combined with --dry-run")
  else fs.schemaModel o.schema

def run (o : Options) (fs : FileAccess m) : m Outcome := do
  match ← (o.model fs).run with
  | .error e => pure (.failed o.introduction e)
  | .ok model =>
    if o.dumpModel then pure ⟨0, model.json.indented ++ "\n", o.introduction⟩
    else
      let errors := o.introduction ++ o.summary model
      if o.dryRun then
        match clientFiles model o.style with
        | .ok files => pure ⟨0, listing files, errors⟩
        | .error e => pure (.failed errors e)
      else
        match ← (fs.generate model o.style o.output).run with
        | .ok report => pure ⟨0, "", errors ++ o.reportText report⟩
        | .error e => pure (.failed errors e)

end Options

/-- Runs the command with its arguments. -/
def runCommand {m : Type → Type} [Monad m] (fs : FileAccess m) (arguments : List String) :
    m Outcome :=
  match Options.ofArguments arguments with
  | .ok o => o.run fs
  | .error h => pure (.ofHalt h)

end SchemaClient
