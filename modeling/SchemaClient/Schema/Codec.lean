import SchemaClient.Json.Reader
import SchemaClient.Schema.Model

/-!
# Schema values as JSON

Each type of the model is written as an object of its fields in the order of their declaration
and has a reader that accepts what is written. A definition is tagged by its keyword anywhere in
its object; a type class has its scalar kind beside it.
-/

namespace SchemaClient

open Json

def TypeRef.json (t : TypeRef) : Json :=
  .obj [("raw", .str t.raw), ("base", .str t.base), ("nullable", .bool t.nullable),
    ("is_list", .bool t.isList)]

def Field.json (f : Field) : Json :=
  .obj [("name", .str f.name), ("type", f.type.json)]

def OperationField.json (f : OperationField) : Json :=
  .obj [("name", .str f.name), ("args", .ofList Field.json f.args),
    ("return_type", f.returnType.json)]

def fieldsJson (fields : List Field) : Json :=
  .ofList Field.json fields

def ObjectType.members (t : ObjectType) : List (String × Json) :=
  [("name", .str t.name), ("fields", fieldsJson t.fields)]

def InputType.members (t : InputType) : List (String × Json) :=
  [("name", .str t.name), ("fields", fieldsJson t.fields)]

def EnumType.members (t : EnumType) : List (String × Json) :=
  [("name", .str t.name), ("values", .ofStrings t.values)]

def ObjectType.json (t : ObjectType) : Json := .obj t.members

def InputType.json (t : InputType) : Json := .obj t.members

def EnumType.json (t : EnumType) : Json := .obj t.members

def DefinitionKind.json (k : DefinitionKind) : Json := .str k.keyword

def Definition.json (d : Definition) : Json :=
  .obj (("kind", d.kind.json) ::
    match d with
    | .object t => t.members
    | .input t => t.members
    | .enum t => t.members)

def ScalarKind.json (k : ScalarKind) : Json := .str k.name

def TypeClass.name : TypeClass → String
  | .scalar _ => "scalar"
  | .enum => "enum"
  | .object => "object"
  | .input => "input"
  | .unknown => "unknown"

def TypeClass.json (c : TypeClass) : Json :=
  .obj (("class", .str c.name) ::
    match c with
    | .scalar kind => [("scalar", kind.json)]
    | _ => [])

def TypeMapping.json (m : TypeMapping) : Json :=
  .obj [("base", .str m.base), ("nullable", .bool m.nullable), ("is_list", .bool m.isList),
    ("scalar", .ofOption ScalarKind.json m.scalar), ("class", m.typeClass.json)]

def dictionaryJson {α : Type} (write : α → Json) (d : Dictionary α) : Json :=
  .obj (d.map fun (k, v) => (k, write v))

def SchemaModel.json (m : SchemaModel) : Json :=
  .obj [("object_types", .ofList ObjectType.json m.objectTypes),
    ("input_types", .ofList InputType.json m.inputTypes),
    ("enums", .ofList EnumType.json m.enums),
    ("query_fields", .ofList OperationField.json m.queryFields),
    ("mutation_fields", .ofList OperationField.json m.mutationFields),
    ("kind_index", dictionaryJson DefinitionKind.json m.kindIndex),
    ("fields_by_type", dictionaryJson fieldsJson m.fieldsByType)]

namespace Json.Reader

open Outline

/-! ## Records -/

structure TypeRefDraft where
  raw : Option String := none
  base : Option String := none
  nullable : Option Bool := none
  isList : Option Bool := none

def typeRefFields : List (Field TypeRefDraft) :=
  [field "raw" string (·.raw) fun v d => { d with raw := some v },
    field "base" string (·.base) fun v d => { d with base := some v },
    field "nullable" bool (·.nullable) fun v d => { d with nullable := some v },
    field "is_list" bool (·.isList) fun v d => { d with isList := some v }]

def typeRef : Reader TypeRef :=
  record typeRefFields {} fun _ d => do
    pure ⟨← d.raw, ← d.base, ← d.nullable, ← d.isList⟩

/-- A draft of a record with a name and one more field. -/
structure NamedDraft (α : Type) where
  name : Option String := none
  content : Option α := none

def namedFields {α : Type} (key : String) (read : Reader α) : List (Field (NamedDraft α)) :=
  [field "name" string (·.name) fun v d => { d with name := some v },
    field key read (·.content) fun v d => { d with content := some v }]

def named {α β : Type} (key : String) (read : Reader α) (make : String → α → β) : Reader β :=
  record (namedFields key read) {} fun _ d => do pure (make (← d.name) (← d.content))

def schemaField : Reader SchemaClient.Field :=
  named "type" typeRef fun name type => ⟨name, type⟩

structure OperationFieldDraft where
  name : Option String := none
  args : Option (List SchemaClient.Field) := none
  returnType : Option TypeRef := none

def operationFieldFields : List (Field OperationFieldDraft) :=
  [field "name" string (·.name) fun v d => { d with name := some v },
    field "args" (list schemaField) (·.args) fun v d => { d with args := some v },
    field "return_type" typeRef (·.returnType) fun v d => { d with returnType := some v }]

def operationField : Reader OperationField :=
  record operationFieldFields {} fun _ d => do
    pure ⟨← d.name, ← d.args, ← d.returnType⟩

def objectType : Reader ObjectType :=
  named "fields" (list schemaField) fun name fields => ⟨name, fields⟩

def inputType : Reader InputType :=
  named "fields" (list schemaField) fun name fields => ⟨name, fields⟩

def enumType : Reader EnumType :=
  named "values" (list string) fun name values => ⟨name, values⟩

def definitionKind : Reader DefinitionKind :=
  oneOf DefinitionKind.ofKeyword?

def scalarKind : Reader ScalarKind :=
  oneOf ScalarKind.ofName?

def scalar : Reader Scalar :=
  oneOf Scalar.ofName?

/-! ## Tagged definitions -/

/-- A word given as a string only. -/
def wordOf {α : Type} (parse : String → Option α) : Reader α
  | depth, x => do
    match parse (← string depth x) with
    | some v => pure v
    | none => throw .data

/-- Splits the tagged member off, reading every other member as free JSON on the way. -/
def splitTag {α : Type} (tag : String) (parse : String → Option α) (depth : Nat)
    (found : Option α) :
    List (Except ReadError String × Outline) →
      Except ReadError (Option α × List (Except ReadError String × Outline))
  | [] => .ok (found, [])
  | (key, x) :: ms => do
    let k ← key
    if k = tag then
      if found.isSome then throw .data
      let v ← wordOf parse depth x
      splitTag tag parse depth (some v) ms
    else
      let _ ← readJson depth x
      let (v, rest) ← splitTag tag parse depth found ms
      pure (v, (.ok k, x) :: rest)

/-- A value tagged by a member of its object or by the first element of its array, and the rest
of it, which is known to be JSON. -/
def tagged {α : Type} (tag : String) (parse : String → Option α) : Reader (α × Outline)
  | depth, .members ms close => do
    let depth ← enter depth
    let (v, rest) ← splitTag tag parse depth none ms
    closing close
    match v with
    | some v => pure (v, .members rest none)
    | none => throw .data
  | depth, .items [] close => do
    let _ ← enter depth
    closing close
    throw .data
  | depth, .items (x :: xs) close => do
    let depth ← enter depth
    let v ← wordOf parse depth x
    let _ ← readItems depth xs
    closing close
    pure (v, .items xs none)
  | _, x => .error x.mismatch

def definition : Reader Definition
  | depth, x => do
    let (kind, rest) ← tagged "kind" DefinitionKind.ofKeyword? depth x
    Except.mapError (fun _ => ReadError.data) <|
      match kind with
      | .object => (objectType depth rest).map .object
      | .input => (inputType depth rest).map .input
      | .enum => (enumType depth rest).map .enum

/-! ## Type classes -/

/-- The classes by name, a scalar still without its kind. -/
inductive ClassName
  | scalar
  | plain (value : TypeClass)

def className? : String → Option ClassName
  | "scalar" => some .scalar
  | "enum" => some (.plain .enum)
  | "object" => some (.plain .object)
  | "input" => some (.plain .input)
  | "unknown" => some (.plain .unknown)
  | _ => none

/-- What stands beside the name of a class: a scalar kind, or nothing. -/
def classContent (name : ClassName) : Reader TypeClass
  | depth, x =>
    match name with
    | .scalar => (scalarKind depth x).map .scalar
    | .plain c =>
      match x with
      | .null => .ok c
      | x => .error x.mismatch

/-- A type class whose object has been read in part. -/
inductive ClassDraft
  | empty
  | named (name : ClassName)
  /-- The content stood before the name. -/
  | early (content : Outline)
  | full (value : TypeClass)

def typeClassFrom (depth : Nat) (draft : ClassDraft) :
    List (Except ReadError String × Outline) → Except ReadError ClassDraft
  | [] => .ok draft
  | (key, x) :: ms => do
    let k ← key
    if k = "class" then
      match draft with
      | .empty => typeClassFrom depth (.named (← wordOf className? depth x)) ms
      | .early content =>
        let name ← wordOf className? depth x
        let value ← (classContent name depth content).mapError fun _ => .data
        typeClassFrom depth (.full value) ms
      | _ => throw .data
    else if k = "scalar" then
      match draft with
      | .empty =>
        let _ ← readJson depth x
        typeClassFrom depth (.early x) ms
      | .named name => typeClassFrom depth (.full (← classContent name depth x)) ms
      | _ => throw .data
    else
      skip x
      typeClassFrom depth draft ms

def typeClass : Reader TypeClass
  | depth, .members ms close => do
    let depth ← enter depth
    let draft ← typeClassFrom depth .empty ms
    closing close
    match draft with
    | .full c => pure c
    | .named (.plain c) => pure c
    | _ => throw .data
  | depth, .items [] close => do
    let _ ← enter depth
    closing close
    throw .data
  | depth, .items [x] close => do
    let depth ← enter depth
    let _ ← wordOf className? depth x
    closing close
    throw .data
  | depth, .items (x :: y :: more) close => do
    let depth ← enter depth
    let name ← wordOf className? depth x
    let c ← classContent name depth y
    if !more.isEmpty then throw .malformed
    closing close
    pure c
  | _, x => .error x.mismatch

structure TypeMappingDraft where
  base : Option String := none
  nullable : Option Bool := none
  isList : Option Bool := none
  scalar : Option (Option ScalarKind) := none
  typeClass : Option TypeClass := none

def typeMappingFields : List (Field TypeMappingDraft) :=
  [field "base" string (·.base) fun v d => { d with base := some v },
    field "nullable" bool (·.nullable) fun v d => { d with nullable := some v },
    field "is_list" bool (·.isList) fun v d => { d with isList := some v },
    field "scalar" (option scalarKind) (·.scalar) fun v d => { d with scalar := some v },
    field "class" typeClass (·.typeClass) fun v d => { d with typeClass := some v }]

/-- The scalar kind may be left out of an object, not out of an array. -/
def typeMapping : Reader TypeMapping :=
  record typeMappingFields {} fun form d => do
    let scalar ← if form = .named then some (d.scalar.getD none) else d.scalar
    pure ⟨← d.base, ← d.nullable, ← d.isList, scalar, ← d.typeClass⟩

/-! ## Models -/

structure SchemaModelDraft where
  objectTypes : Option (List ObjectType) := none
  inputTypes : Option (List InputType) := none
  enums : Option (List EnumType) := none
  queryFields : Option (List OperationField) := none
  mutationFields : Option (List OperationField) := none
  kindIndex : Option (Dictionary DefinitionKind) := none
  fieldsByType : Option (Dictionary (List SchemaClient.Field)) := none

def schemaModelFields : List (Field SchemaModelDraft) :=
  [field "object_types" (list objectType) (·.objectTypes)
      fun v d => { d with objectTypes := some v },
    field "input_types" (list inputType) (·.inputTypes)
      fun v d => { d with inputTypes := some v },
    field "enums" (list enumType) (·.enums) fun v d => { d with enums := some v },
    field "query_fields" (list operationField) (·.queryFields)
      fun v d => { d with queryFields := some v },
    field "mutation_fields" (list operationField) (·.mutationFields)
      fun v d => { d with mutationFields := some v },
    field "kind_index" (dictionary definitionKind) (·.kindIndex)
      fun v d => { d with kindIndex := some v },
    field "fields_by_type" (dictionary (list schemaField)) (·.fieldsByType)
      fun v d => { d with fieldsByType := some v }]

def schemaModel : Reader SchemaModel :=
  record schemaModelFields {} fun _ d => do
    pure ⟨← d.objectTypes, ← d.inputTypes, ← d.enums, ← d.queryFields, ← d.mutationFields,
      ← d.kindIndex, ← d.fieldsByType⟩

end Json.Reader

end SchemaClient
