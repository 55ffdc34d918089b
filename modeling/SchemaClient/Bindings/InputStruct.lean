import SchemaClient.Bindings.Conversion

/-!
# Structs of input types

An input type becomes a struct that can flatten itself into variables. Fields that admit null are
left out when they are unset. A struct has a default unless required fields lead from an input
type back to itself, where a default would never end.
-/

namespace SchemaClient

open Code

structure InputMember where
  wire : String
  name : String
  nullable : Bool
  isList : Bool
  type : FieldType
  conversion : Conversion
deriving DecidableEq, Repr

structure InputStruct where
  source : String
  name : String
  members : List InputMember
  hasDefault : Bool
deriving DecidableEq, Repr

namespace InputStruct

/-- The input types that every value of an input type contains. -/
def requiredInputs (m : SchemaModel) (t : InputType) : List String :=
  (t.fields.filter fun f =>
    !f.type.nullable && !f.type.isList && m.classOf f.type.base = .input).map (·.type.base)

/-- Whether no required field leads from `name` back into `path`. Paths without a repetition are
no longer than the list of input types, which bounds `steps`. -/
def finiteFrom (m : SchemaModel) : (steps : Nat) → (path : List String) → String → Bool
  | 0, _, _ => false
  | steps + 1, path, name =>
    if path.contains name then false
    else
      match m.inputType? name with
      | none => true
      | some t => (requiredInputs m t).all (finiteFrom m steps (name :: path))

def hasFiniteDefault (m : SchemaModel) (name : String) : Bool :=
  finiteFrom m (m.inputTypes.length + 1) [] name

def of (m : SchemaModel) (source : String) (fields : List Field) : InputStruct where
  source := source
  name := Names.typeName source
  members :=
    let fields := distinctBy Field.name fields
    List.zipWith (fun f name =>
        ⟨f.name, name, f.type.nullable, f.type.isList, .of m .inputField f.type,
          .ofClass (m.classOf f.type.base)⟩)
      fields (Names.claimAll [] (fields.map (Names.fieldName ·.name)))
  hasDefault := hasFiniteDefault m source

/-- One struct for each input type, of its last definition. -/
def all (m : SchemaModel) : List InputStruct :=
  (distinctBy InputType.name m.inputTypes).filterMap fun t =>
    (m.inputType? t.name).map fun t => .of m t.name t.fields

def member (f : InputMember) : Member where
  docs := []
  attributes := renamedIfOther f.wire f.name ++
    if f.nullable then
      [.list "serde" [.value "skip_serializing_if" "::std::option::Option::is_none"] false]
    else []
  visible := true
  name := f.name
  type := f.type.codeAt .inputField

def insert (f : InputMember) : Statement :=
  if f.nullable then
    .whenMatches (.tuple Lib.optionSome "value") (.borrow (ownField f.name))
      [insertVariable f.wire (f.conversion.apply f.isList valuePath)]
  else insertVariable f.wire (f.conversion.apply f.isList (ownField f.name))

def toVariables (s : InputStruct) : AssociatedItem :=
  .function
    [.comment " Flattens the input into a variables map keyed by schema field name.", .comment "",
      .comment " Enum fields become their raw schema value, nested inputs are",
      .comment " flattened recursively and unset optional fields are omitted."]
    { visible := true
      name := "to_variables"
      parameters := [.borrowedSelf]
      result := Lib.variableMap
      body := variablesBody (s.members.map insert) }

def items (s : InputStruct) : List Item :=
  [.struct [.made (" The `" ++ s.source ++ "` input type.")]
      [derives (["Debug", "Clone", "PartialEq"] ++ if s.hasDefault then ["Default"] else [])
        true false]
      s.name (s.members.map member),
    .block none s.name [s.toVariables]]

def module (m : SchemaModel) : Module where
  docs := [.comment " Input types accepted as operation arguments."]
  attributes := [allowed [camelCaseAllowed]]
  items := (all m).flatMap items

end InputStruct

end SchemaClient
