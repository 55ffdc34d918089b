import SchemaClient.Dictionary
import SchemaClient.Schema.Definition
import SchemaClient.Schema.Scalar

/-!
# Schema models

A model holds the definitions of a schema in their order, the operations, and two indices: the
kind of every defined name and the fields of every object type. `SchemaModel.of` derives the
indices; a name defined twice has its last definition there. Type references are resolved against
the scalar table first and the kind index second.
-/

namespace SchemaClient

structure SchemaModel where
  objectTypes : List ObjectType
  inputTypes : List InputType
  enums : List EnumType
  queryFields : List OperationField
  mutationFields : List OperationField
  kindIndex : Dictionary DefinitionKind
  fieldsByType : Dictionary (List Field)
deriving DecidableEq, Repr

/-- What a base name stands for. -/
inductive TypeClass
  | scalar (kind : ScalarKind)
  | enum
  | object
  | input
  | unknown
deriving DecidableEq, Repr

/-- A type reference resolved against a model. -/
structure TypeMapping where
  base : String
  nullable : Bool
  isList : Bool
  scalar : Option ScalarKind
  typeClass : TypeClass
deriving DecidableEq, Repr

namespace TypeMapping

/-- Whether values of the base type have no fields to select. -/
def isLeaf (m : TypeMapping) : Bool :=
  match m.typeClass with
  | .scalar _ | .enum => true
  | _ => false

def isScalar (m : TypeMapping) : Bool :=
  m.scalar.isSome

end TypeMapping

namespace SchemaModel

/-- The names of the definitions with their kinds: objects, inputs, then enums. -/
def namedKinds (objects : List ObjectType) (inputs : List InputType) (enums : List EnumType) :
    List (String × DefinitionKind) :=
  objects.map (fun t => (t.name, .object)) ++ inputs.map (fun t => (t.name, .input))
    ++ enums.map (fun t => (t.name, .enum))

def of (objects : List ObjectType) (inputs : List InputType) (enums : List EnumType)
    (queries mutations : List OperationField) : SchemaModel where
  objectTypes := objects
  inputTypes := inputs
  enums := enums
  queryFields := queries
  mutationFields := mutations
  kindIndex := .ofList (namedKinds objects inputs enums)
  fieldsByType := .ofList (objects.map fun t => (t.name, t.fields))

/-- A model from definitions of all kinds, which keep their order within each kind. -/
def ofDefinitions (definitions : List Definition) (queries mutations : List OperationField) :
    SchemaModel :=
  .of
    (definitions.filterMap fun | .object t => some t | _ => none)
    (definitions.filterMap fun | .input t => some t | _ => none)
    (definitions.filterMap fun | .enum t => some t | _ => none)
    queries mutations

def kindOf? (m : SchemaModel) (name : String) : Option DefinitionKind :=
  m.kindIndex.get? name

def fieldsOf? (m : SchemaModel) (name : String) : Option (List Field) :=
  m.fieldsByType.get? name

/-- The last definition with this name. -/
def inputType? (m : SchemaModel) (name : String) : Option InputType :=
  m.inputTypes.reverse.find? (·.name = name)

/-- The last definition with this name. -/
def enumType? (m : SchemaModel) (name : String) : Option EnumType :=
  m.enums.reverse.find? (·.name = name)

/-- Every defined name, sorted, with the kinds it is defined as. -/
def kindsByName (m : SchemaModel) : Dictionary (List DefinitionKind) :=
  (namedKinds m.objectTypes m.inputTypes m.enums).foldl (fun d (name, kind) =>
    let kinds := (d.get? name).getD []
    d.insert name (if kind ∈ kinds then kinds else kinds ++ [kind])) []

/-- The names, sorted, that are defined as more than one kind. -/
def kindCollisions (m : SchemaModel) : List String :=
  (m.kindsByName.filter fun e => 1 < e.2.length).map (·.1)

def classOf (m : SchemaModel) (base : String) : TypeClass :=
  match scalarKind? base with
  | some kind => .scalar kind
  | none =>
    match m.kindOf? base with
    | some .object => .object
    | some .input => .input
    | some .enum => .enum
    | none => .unknown

def resolve (m : SchemaModel) (type : TypeRef) : TypeMapping where
  base := type.base
  nullable := type.nullable
  isList := type.isList
  scalar := scalarKind? type.base
  typeClass := m.classOf type.base

/-- Whether a base name is a scalar or defined as an enum. -/
def isLeaf (m : SchemaModel) (base : String) : Bool :=
  (scalarKind? base).isSome || m.kindOf? base = some .enum

def isEmpty (m : SchemaModel) : Bool :=
  m.objectTypes.isEmpty && m.inputTypes.isEmpty && m.enums.isEmpty && m.queryFields.isEmpty
    && m.mutationFields.isEmpty

def fieldsOfKind (m : SchemaModel) : OperationKind → List OperationField
  | .query => m.queryFields
  | .mutation => m.mutationFields

end SchemaModel

end SchemaClient
