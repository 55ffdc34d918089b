import SchemaClient.Bindings.FieldType

/-!
# Conversion of members to variables

How generated code turns a value into JSON: an enum into the name of its value, an input struct
into the map of its fields, anything else by serialisation. Lists are converted item by item.
-/

namespace SchemaClient

open Code

inductive Conversion
  | serialize
  | enumValue
  | flatten
deriving DecidableEq, Repr

namespace Conversion

def ofClass : TypeClass → Conversion
  | .enum => enumValue
  | .input => flatten
  | .scalar _ | .object | .unknown => serialize

def ofStrategy : VariableStrategy → Conversion
  | .passThrough => serialize
  | .enumValue => enumValue
  | .flattenInput _ => flatten

def jsonCall (name : String) (arg : Expr) (trailing : Bool) : Expr :=
  .call (.root ["serde_json", "Value", name]) [arg] trailing

/-- One enum value or input struct as JSON. -/
def single (c : Conversion) (value : Expr) : Expr :=
  match c with
  | serialize =>
    .method (.call (.root ["serde_json", "to_value"]) [.borrow value] false)
      "unwrap_or_default" []
  | enumValue => jsonCall "from" (.method value "as_str" []) false
  | flatten => jsonCall "Object" (.method value "to_variables" []) false

/-- A value as JSON. The value is a place or a reference: it is borrowed or a receiver. -/
def apply (c : Conversion) (isList : Bool) (value : Expr) : Expr :=
  if isList && c ≠ serialize then
    jsonCall "Array"
      (.method
        (.method (.method value "iter" []) "map"
          [.closure "item" (c.single (.path (.name "item")))])
        "collect" [])
      true
  else c.single value

end Conversion

/-- `self.name`. -/
def ownField (name : String) : Expr :=
  .field (.path (.name "self")) name

def valuePath : Expr := .path (.name "value")

/-- `::std::string::String::from("name")`. -/
def stringOf (e : Expr) (trailing : Bool) : Expr :=
  .call (Lib.path ["string", "String", "from"]) [e] trailing

/-- Adds a variable to the map under its name in the schema. -/
def insertVariable (wire : String) (value : Expr) : Statement :=
  .effect (.method (.path (.name "variables")) "insert" [stringOf (.literal wire) false, value])

/-- A body that builds the map of variables; no variable is declared if there are none. -/
def variablesBody (inserts : List Statement) : List Statement :=
  let empty : Expr := .call (.root ["serde_json", "Map", "new"]) [] false
  if inserts.isEmpty then [.result empty]
  else .declare "variables" empty :: (inserts ++ [.result (.path (.name "variables"))])

def derives (names : List String) (serialised : Bool) (trailing : Bool) : Attribute :=
  .list "derive"
    (names.map (fun n => .path (.name n)) ++
      if serialised then
        [.path (.root ["serde", "Serialize"]), .path (.root ["serde", "Deserialize"])]
      else [])
    trailing

/-- Gives a member the name that its values have in JSON. -/
def renamed (wire : String) : Attribute :=
  .list "serde" [.value "rename" wire] false

def renamedIfOther (wire name : String) : List Attribute :=
  if name = wire then [] else [renamed wire]

def allowed (names : List Path) : Attribute :=
  .list "allow" (names.map .path) false

def camelCaseAllowed : Path := .name "non_camel_case_types"

end SchemaClient
