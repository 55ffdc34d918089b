import SchemaClient.Dictionary
import SchemaClient.Json.Double

/-!
# JSON values

Integers and doubles are told apart by how they are written. An object keeps the order of its
members: readers of free JSON sort them, writers of records give the order of the fields.
-/

namespace SchemaClient

open Json in
inductive Json
  | null
  | bool (value : Bool)
  | int (value : Int)
  | double (value : Double)
  | str (value : String)
  | arr (items : List Json)
  | obj (members : List (String × Json))
deriving Repr, Inhabited

namespace Json

/-- An optional value; nothing is written as `null`. -/
def ofOption {α : Type} (write : α → Json) : Option α → Json
  | none => .null
  | some x => write x

def ofList {α : Type} (write : α → Json) (xs : List α) : Json :=
  .arr (xs.map write)

def ofStrings (xs : List String) : Json :=
  ofList .str xs

def isNull : Json → Bool
  | .null => true
  | _ => false

/-- The value of an object's member. -/
def member? (name : String) : Json → Option Json
  | .obj members => members.lookup name
  | _ => none

end Json

end SchemaClient
