/-!
# Scalars

The fixed table of scalar names. Every base name is looked up here first; names are compared with
their case.
-/

namespace SchemaClient

inductive ScalarKind
  | text
  | integer
  | float
  | boolean
  | dynamic
deriving DecidableEq, Repr

def ScalarKind.name : ScalarKind → String
  | .text => "text"
  | .integer => "integer"
  | .float => "float"
  | .boolean => "boolean"
  | .dynamic => "dynamic"

def ScalarKind.all : List ScalarKind :=
  [.text, .integer, .float, .boolean, .dynamic]

def ScalarKind.ofName? (s : String) : Option ScalarKind :=
  all.find? (·.name = s)

inductive Scalar
  | id
  | string
  | uuid
  | time
  | cursor
  | upload
  | int
  | float
  | boolean
  | any
deriving DecidableEq, Repr

namespace Scalar

def name : Scalar → String
  | id => "ID"
  | string => "String"
  | uuid => "UUID"
  | time => "Time"
  | cursor => "Cursor"
  | upload => "Upload"
  | int => "Int"
  | float => "Float"
  | boolean => "Boolean"
  | any => "Any"

def all : List Scalar :=
  [id, string, uuid, time, cursor, upload, int, float, boolean, any]

def ofName? (s : String) : Option Scalar :=
  all.find? (·.name = s)

def kind : Scalar → ScalarKind
  | id | string | uuid | time | cursor | upload => .text
  | int => .integer
  | float => .float
  | boolean => .boolean
  | any => .dynamic

end Scalar

/-- The kind of a base name in the scalar table. -/
def scalarKind? (base : String) : Option ScalarKind :=
  (Scalar.ofName? base).map Scalar.kind

end SchemaClient
