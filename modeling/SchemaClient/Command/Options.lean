import SchemaClient.Files.Path
import SchemaClient.Operation.Selection

/-!
# Command line arguments

Arguments are read from left to right: a path to the schema, settings with a value beside or
behind them, and flags, short ones also several at once. Behind `--` everything is a path. The
first mistake ends the reading, as do requests for help or the version. Nothing but the verbosity
may be given twice.
-/

namespace SchemaClient

structure Options where
  schema : DiskPath
  output : DiskPath
  style : SelectionStyle
  dryRun : Bool
  dumpModel : Bool
  verbosity : Nat
deriving DecidableEq, Repr

inductive Flag
  | dryRun
  | dumpModel
  | verbose
  | help
  | version
deriving DecidableEq, Repr

inductive Setting
  | output
  | style
deriving DecidableEq, Repr

inductive UsageError
  | unknown (argument : String)
  | repeated (argument : String)
  | missingValue (setting : String)
  | invalidValue (argument value : String)
  | unneededValue (argument : String)
  | missingSchema
deriving DecidableEq, Repr

/-- Why arguments give no options. -/
inductive Halt
  | usage (error : UsageError)
  | help
  | version
deriving DecidableEq, Repr

namespace Flag

def name : Flag → String
  | dryRun => "dry-run"
  | dumpModel => "dump-model"
  | verbose => "verbose"
  | help => "help"
  | version => "version"

def letter? : Flag → Option Char
  | dryRun | dumpModel => none
  | verbose => some 'v'
  | help => some 'h'
  | version => some 'V'

def all : List Flag := [dryRun, dumpModel, verbose, help, version]

end Flag

namespace Setting

def name : Setting → String
  | output => "output"
  | style => "selection-style"

def letter? : Setting → Option Char
  | output => some 'o'
  | style => none

def all : List Setting := [output, style]

end Setting

namespace Options

/-- What has been read so far. -/
structure Draft where
  schema : Option DiskPath := none
  output : Option DiskPath := none
  style : Option SelectionStyle := none
  dryRun : Bool := false
  dumpModel : Bool := false
  verbosity : Nat := 0
  /-- A setting whose value comes next. -/
  awaiting : Option Setting := none
  /-- Whether everything is a path from here on. -/
  pathsOnly : Bool := false

def refuse {α : Type} (e : UsageError) : Except Halt α := .error (.usage e)

namespace Draft

/-- Reads the path to the schema. -/
def path (d : Draft) (value : String) : Except Halt Draft :=
  if d.schema.isSome then refuse (.unknown value)
  else if value.isEmpty then refuse (.invalidValue "schema" value)
  else .ok { d with schema := some value }

def set (d : Draft) (s : Setting) (value : String) : Except Halt Draft :=
  match s with
  | .output =>
    if d.output.isSome then refuse (.repeated s.name)
    else if value.isEmpty then refuse (.invalidValue s.name value)
    else .ok { d with output := some value, awaiting := none }
  | .style =>
    if d.style.isSome then refuse (.repeated s.name)
    else
      match SelectionStyle.ofName? value with
      | some style => .ok { d with style := some style, awaiting := none }
      | none => refuse (.invalidValue s.name value)

def flag (d : Draft) (f : Flag) : Except Halt Draft :=
  match f with
  | .dryRun =>
    if d.dryRun then refuse (.repeated f.name) else .ok { d with dryRun := true }
  | .dumpModel =>
    if d.dumpModel then refuse (.repeated f.name) else .ok { d with dumpModel := true }
  | .verbose => .ok { d with verbosity := d.verbosity + 1 }
  | .help => .error .help
  | .version => .error .version

/-- Short flags, the last of which may be a setting with its value attached. -/
def short (d : Draft) : List Char → Except Halt Draft
  | [] => .ok d
  | c :: cs =>
    match Flag.all.find? (·.letter? = some c), Setting.all.find? (·.letter? = some c) with
    | some f, _ => do (← d.flag f).short cs
    | none, some s =>
      match cs with
      | [] => .ok { d with awaiting := some s }
      | '=' :: value => d.set s (String.ofList value)
      | value => d.set s (String.ofList value)
    | none, none => refuse (.unknown (String.ofList ['-', c]))

/-- A name behind two dashes, with or without a value. -/
def long (d : Draft) (name : String) (value : Option String) : Except Halt Draft :=
  match Flag.all.find? (·.name = name), Setting.all.find? (·.name = name), value with
  | some f, _, none => d.flag f
  | some f, _, some _ => refuse (.unneededValue f.name)
  | none, some s, some value => d.set s value
  | none, some s, none => .ok { d with awaiting := some s }
  | none, none, _ => refuse (.unknown ("--" ++ name))

def next (d : Draft) (argument : String) : Except Halt Draft :=
  if d.pathsOnly then d.path argument
  else
    match d.awaiting, argument.toList with
    | some s, '-' :: _ :: _ => refuse (.missingValue s.name)
    | some s, _ => d.set s argument
    | none, ['-', '-'] => .ok { d with pathsOnly := true }
    | none, '-' :: '-' :: cs =>
      match cs.span (· ≠ '=') with
      | (name, []) => d.long (String.ofList name) none
      | (name, _ :: value) => d.long (String.ofList name) (some (String.ofList value))
    | none, '-' :: c :: cs => d.short (c :: cs)
    | none, _ => d.path argument

def finish (d : Draft) : Except Halt Options :=
  match d.awaiting, d.schema with
  | some s, _ => refuse (.missingValue s.name)
  | none, none => refuse .missingSchema
  | none, some schema =>
    .ok ⟨schema, d.output.getD "src/graphql", d.style.getD .inline, d.dryRun, d.dumpModel,
      d.verbosity⟩

end Draft

def ofArguments (arguments : List String) : Except Halt Options := do
  (← arguments.foldlM Draft.next {}).finish

end Options

namespace UsageError

def message : UsageError → String
  | unknown argument => "unexpected argument '" ++ argument ++ "' found"
  | repeated argument => "the argument '--" ++ argument ++ "' cannot be used multiple times"
  | missingValue setting => "a value is required for '--" ++ setting ++ "' but none was supplied"
  | invalidValue argument value =>
    "invalid value '" ++ value ++ "' for '" ++ argument ++ "'"
  | unneededValue argument => "no value is allowed for '--" ++ argument ++ "'"
  | missingSchema => "the schema is missing"

end UsageError

end SchemaClient
