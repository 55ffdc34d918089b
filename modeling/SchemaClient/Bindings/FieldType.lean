import SchemaClient.Code.Tree
import SchemaClient.Operation.Document
import SchemaClient.Text.Line

/-!
# Types of generated members

What a schema type becomes in generated code: a scalar, a reference to another generated type, or
free JSON, in a list, an option or a box. Lists do not track the nullability of their elements.
An object inside an object is always optional and boxed, since object types recurse and a cut-off
selection leaves fields out; an input inside an input is boxed.
-/

namespace SchemaClient

open Code

/-- Where a type is written. -/
inductive Position
  | objectField
  | inputField
  | argument
deriving DecidableEq, Repr

inductive FieldType
  | scalar (kind : ScalarKind)
  /-- A generated enum, struct of an object type or struct of an input type. -/
  | enum (name : String)
  | object (name : String)
  | input (name : String)
  | json
  | list (element : FieldType)
  | optional (content : FieldType)
  | boxed (content : FieldType)
deriving DecidableEq, Repr

namespace Lib

def path (segments : List String) : Path := .root ("std" :: segments)

def option : Path := path ["option", "Option"]

def optionSome : Path := path ["option", "Option", "Some"]

def optionNone : Path := path ["option", "Option", "None"]

def vec : Path := path ["vec", "Vec"]

def box : Path := path ["boxed", "Box"]

def string : Path := path ["string", "String"]

def json : Path := .root ["serde_json", "Value"]

def jsonMap : Path := .root ["serde_json", "Map"]

/-- The type of a map from names to JSON. -/
def variableMap : CodeType := .apply2 jsonMap (.path string) (.path json)

def staticStr : CodeType := .static (.path (.name "str"))

end Lib

/-- A sibling module's type. -/
def siblingPath (module name : String) : Path :=
  .relative ["super", module, name]

def scalarPath : ScalarKind → Path
  | .text => Lib.string
  | .integer => .name "i64"
  | .float => .name "f64"
  | .boolean => .name "bool"
  | .dynamic => Lib.json

namespace FieldType

/-- The type of one value of a base name. -/
def element (c : TypeClass) (base : String) : FieldType :=
  match c with
  | .scalar kind => .scalar kind
  | .enum => .enum (Names.typeName base)
  | .object => .object (Names.typeName base)
  | .input => .input (Names.typeName base)
  | .unknown => .json

def optionalIf (nullable : Bool) (t : FieldType) : FieldType :=
  if nullable then .optional t else t

def of (m : SchemaModel) (position : Position) (t : TypeRef) : FieldType :=
  let c := m.classOf t.base
  let e := element c t.base
  if t.isList then optionalIf t.nullable (.list e)
  else
    match position, c with
    | .objectField, .object => .optional (.boxed e)
    | .inputField, .input => optionalIf t.nullable (.boxed e)
    | _, _ => optionalIf t.nullable e

def isOptional : FieldType → Bool
  | .optional _ => true
  | _ => false

def ofResult (r : ResultType) : FieldType :=
  let e : FieldType :=
    match r.element with
    | .scalar kind => .scalar kind
    | .enum name => .enum (Names.typeName name)
    | .object name => .object (Names.typeName name)
    | .opaqueValue => .json
  if r.isList then .list e else e

def code : FieldType → CodeType
  | .scalar kind => .path (scalarPath kind)
  | .enum name => .path (siblingPath "enums" name)
  | .object name => .path (siblingPath "types" name)
  | .input name => .path (siblingPath "inputs" name)
  | .json => .path Lib.json
  | .list e => .apply Lib.vec e.code
  | .optional e => .apply Lib.option e.code
  | .boxed e => .apply Lib.box e.code

/-- The type as a field of a struct has it written: the two brackets that close an object's
optional box are one token. -/
def codeAt (position : Position) (t : FieldType) : CodeType :=
  match position, t with
  | .objectField, .optional (.boxed e) => .fused Lib.option Lib.box e.code
  | _, t => t.code

end FieldType

/-- The items with distinct keys: of those with one key the first stays. -/
def distinctBy {α : Type} (key : α → String) (xs : List α) : List α :=
  go [] xs
where
  go (seen : List String) : List α → List α
    | [] => []
    | x :: rest =>
      if seen.contains (key x) then go seen rest else x :: go (key x :: seen) rest

/-- Documentation with the text's lines, each behind a space unless it is empty. -/
def docLines (text : String) : List Doc :=
  (Text.lines text.toList).map fun line =>
    .made (if line.isEmpty then "" else " " ++ String.ofList line)

end SchemaClient
