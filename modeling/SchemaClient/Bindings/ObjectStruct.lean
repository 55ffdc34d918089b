import SchemaClient.Bindings.Conversion

/-!
# Structs of object types

An object type becomes a struct that reads leniently: what a response leaves out has a default. Each
field has a member and a constant with its name in the schema. A field given twice counts once.
-/

namespace SchemaClient

open Code

structure ObjectMember where
  /-- The field's name in the schema. -/
  wire : String
  /-- Its type as the schema writes it. -/
  raw : String
  name : String
  constant : String
  type : FieldType
deriving DecidableEq, Repr

structure ObjectStruct where
  /-- The type's name in the schema. -/
  source : String
  name : String
  members : List ObjectMember
deriving DecidableEq, Repr

namespace ObjectStruct

def of (m : SchemaModel) (source : String) (fields : List Field) : ObjectStruct where
  source := source
  name := Names.typeName source
  members :=
    let fields := distinctBy Field.name fields
    let names := Names.claimAll [] (fields.map (Names.fieldName ·.name))
    let constants := Names.claimAll [] (fields.map (Names.constantName ·.name))
    List.zipWith (fun f (name, constant) =>
        ⟨f.name, f.type.raw, name, constant, .of m .objectField f.type⟩)
      fields (names.zip constants)

/-- One struct for each object type, with the fields of its last definition. -/
def all (m : SchemaModel) : List ObjectStruct :=
  (distinctBy ObjectType.name m.objectTypes).map fun t =>
    .of m t.name ((m.fieldsOf? t.name).getD [])

def member (f : ObjectMember) : Member where
  docs := [.made (" `" ++ f.wire ++ ": " ++ f.raw ++ "`")]
  attributes := renamedIfOther f.wire f.name
  visible := true
  name := f.name
  type := f.type.codeAt .objectField

def constant (f : ObjectMember) : Constant :=
  ⟨true, f.constant, Lib.staticStr, .literal f.wire⟩

def items (s : ObjectStruct) : List Item :=
  .struct [.made (" The `" ++ s.source ++ "` object type.")]
      [derives ["Debug", "Clone", "PartialEq", "Default"] true false,
        .list "serde" [.path (.name "default")] false]
      s.name (s.members.map member)
    :: if s.members.isEmpty then []
      else [.block none s.name (s.members.map fun f => .constant (constant f))]

def module (m : SchemaModel) : Module where
  docs := [.comment " Object types returned by queries and mutations."]
  attributes := [allowed [camelCaseAllowed]]
  items := (all m).flatMap items

end ObjectStruct

end SchemaClient
