import SchemaClient.Operation.Selection
import SchemaClient.Text.LetterCase

/-!
# Operations and their documents

An operation is a root field made ready to be sent: what its result is, what to select of it, and
how each argument becomes a variable. Its document is one line or a few indented ones: a head with
the signature and the call, the selection set if the result is an object, and a tail.
-/

namespace SchemaClient

/-- What a root field returns. Input types and unknown names are opaque. -/
inductive ResultKind
  | scalar (kind : ScalarKind)
  | enum (name : String)
  | object (name : String)
  | opaqueValue
deriving DecidableEq, Repr

/-- The result of an operation: one value or a list of values. -/
structure ResultType where
  element : ResultKind
  isList : Bool
deriving DecidableEq, Repr

def ResultType.of (m : SchemaModel) (type : TypeRef) : ResultType where
  element :=
    match m.classOf type.base with
    | .scalar kind => .scalar kind
    | .enum => .enum type.base
    | .object => .object type.base
    | .input | .unknown => .opaqueValue
  isList := type.isList

/-- How an argument becomes a variable: as it is, as the name of an enum value, or field by field
for an input type. -/
inductive VariableStrategy
  | passThrough
  | enumValue
  | flattenInput (fields : List Field)
deriving DecidableEq, Repr

structure VariablePlan where
  name : String
  type : TypeRef
  strategy : VariableStrategy
deriving DecidableEq, Repr

namespace VariablePlan

def of (m : SchemaModel) (arg : Field) : VariablePlan where
  name := arg.name
  type := arg.type
  strategy :=
    match m.classOf arg.type.base with
    | .enum => .enumValue
    | .input =>
      .flattenInput (((m.inputType? arg.type.base).map (·.fields)).getD [])
    | .scalar _ | .object | .unknown => .passThrough

/-- Whether an absent value is sent as `null` and kept from conversion. -/
def nullGuarded (p : VariablePlan) : Bool :=
  p.type.nullable && p.strategy ≠ .passThrough

end VariablePlan

structure Operation where
  kind : OperationKind
  name : String
  args : List Field
  returnType : TypeRef
  result : ResultType
  /-- What is fetched of an object; other results have no selection set. -/
  selection : Option (List SelectionNode)
  style : SelectionStyle
  plans : List VariablePlan

/-- Upper-cases the first character only. -/
def upperFirst (s : String) : String :=
  match s.toList with
  | [] => ""
  | c :: cs => String.ofList (Text.upperChar c ++ cs)

/-- `(a, b)`, or nothing for an empty list. -/
def parenthesised (parts : List String) : String :=
  if parts.isEmpty then "" else "(" ++ ", ".intercalate parts ++ ")"

def argsSignature (args : List Field) : String :=
  parenthesised (args.map fun a => a.name ++ ": " ++ a.type.raw)

def argsPass (args : List Field) : String :=
  parenthesised (args.map fun a => a.name ++ ": $" ++ a.name)

namespace Operation

def of (m : SchemaModel) (style : SelectionStyle) (kind : OperationKind) (f : OperationField) :
    Operation where
  kind := kind
  name := f.name
  args := f.args
  returnType := f.returnType
  result := .of m f.returnType
  selection :=
    match (ResultType.of m f.returnType).element with
    | .object base => some (Selection.build m base)
    | _ => none
  style := style
  plans := f.args.map (.of m)

/-- The name that the document gives the operation. -/
def operationName (op : Operation) : String :=
  upperFirst op.name

/-- The document up to the selection set. -/
def head (op : Operation) : String :=
  op.kind.name ++ " " ++ op.operationName ++ argsSignature op.args
    ++ (match op.style with
      | .inline => " \x7b "
      | .indented => " \x7b\n    ")
    ++ op.name ++ argsPass op.args

/-- The document behind the selection set. -/
def tail (op : Operation) : String :=
  match op.style with
  | .inline => " \x7d"
  | .indented => "\n\x7d"

def selectionBlock (op : Operation) : String :=
  match op.selection with
  | none => ""
  | some ns => String.ofList (Selection.block op.style 1 ns)

def document (op : Operation) : String :=
  op.head ++ op.selectionBlock ++ op.tail

end Operation

/-- The operations of a schema, queries first. -/
def operations (m : SchemaModel) (style : SelectionStyle) : List Operation :=
  m.queryFields.map (.of m style .query) ++ m.mutationFields.map (.of m style .mutation)

end SchemaClient
