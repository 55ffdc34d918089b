import SchemaClient.Schema.TypeRef

/-!
# Definitions

Object types, input types and enums as a schema defines them, and the fields of the two root
types, which are the operations of the schema.
-/

namespace SchemaClient

structure Field where
  name : String
  type : TypeRef
deriving DecidableEq, Repr

def Field.of (name raw : String) : Field :=
  ⟨name, .parse raw⟩

/-- A field of a root type with its arguments. -/
structure OperationField where
  name : String
  args : List Field
  returnType : TypeRef
deriving DecidableEq, Repr

structure ObjectType where
  name : String
  fields : List Field
deriving DecidableEq, Repr

structure InputType where
  name : String
  fields : List Field
deriving DecidableEq, Repr

structure EnumType where
  name : String
  values : List String
deriving DecidableEq, Repr

/-- The spaces that definition names live in. -/
inductive DefinitionKind
  | object
  | input
  | enum
deriving DecidableEq, Repr

namespace DefinitionKind

/-- The keyword that opens a definition. -/
def keyword : DefinitionKind → String
  | object => "type"
  | input => "input"
  | enum => "enum"

def all : List DefinitionKind := [object, input, enum]

def ofKeyword? (s : String) : Option DefinitionKind :=
  all.find? (·.keyword = s)

end DefinitionKind

inductive Definition
  | object (type : ObjectType)
  | input (type : InputType)
  | enum (type : EnumType)
deriving DecidableEq, Repr

namespace Definition

def name : Definition → String
  | object t => t.name
  | input t => t.name
  | enum t => t.name

def kind : Definition → DefinitionKind
  | object _ => .object
  | input _ => .input
  | enum _ => .enum

end Definition

inductive OperationKind
  | query
  | mutation
deriving DecidableEq, Repr

namespace OperationKind

def name : OperationKind → String
  | query => "query"
  | mutation => "mutation"

def rootType : OperationKind → String
  | query => "Query"
  | mutation => "Mutation"

def all : List OperationKind := [query, mutation]

def ofName? (s : String) : Option OperationKind :=
  all.find? (·.name = s)

end OperationKind

/-- Names of root types, which are never collected as object types. -/
def reservedTypeNames : List String := ["Query", "Mutation", "Subscription"]

end SchemaClient
