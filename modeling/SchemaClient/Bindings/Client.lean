import SchemaClient.Bindings.EnumBinding
import SchemaClient.Bindings.InputStruct
import SchemaClient.Bindings.ObjectStruct
import SchemaClient.Bindings.OperationStruct
import SchemaClient.Code.Pretty
import SchemaClient.Error

/-!
# Generated clients

The modules of a client: one for each kind of definition and operation, and a root that declares
them. A module is written as a file unless it declares a name that the language reserves.
-/

namespace SchemaClient

open Code

inductive ClientModule
  | root
  | types
  | inputs
  | enums
  | queries
  | mutations
deriving DecidableEq, Repr

namespace ClientModule

/-- In the order in which they are written. -/
def all : List ClientModule := [root, types, inputs, enums, queries, mutations]

def name : ClientModule → String
  | root => "mod"
  | types => "types"
  | inputs => "inputs"
  | enums => "enums"
  | queries => "queries"
  | mutations => "mutations"

def ofName? (s : String) : Option ClientModule :=
  all.find? (·.name = s)

def fileName (c : ClientModule) : String := c.name ++ ".rs"

def rootModule : Module where
  docs :=
    [" GraphQL client generated from a schema.", "", " ## Modules", "",
      " - `types` - Object types returned by operations",
      " - `inputs` - Input types accepted as arguments",
      " - `enums` - Schema enumerations",
      " - `queries` / `mutations` - One struct per operation", "", " ## Examples", "",
      " ```ignore",
      " let client = GraphQLClient::builder(\"https://api.example.com/graphql\").build()?;",
      " let user = client.execute(&queries::UserQuery::new(\"42\".into())).await?;",
      " ```"].map .comment
  attributes := []
  items := ["enums", "inputs", "mutations", "queries", "types"].map .submodule
    ++ [.reexport "graphgen" ["GraphQLClient", "Operation"]]

/-- The code of a module of the client for a schema. -/
def code (m : SchemaModel) (style : SelectionStyle) : ClientModule → Module
  | root => rootModule
  | types => ObjectStruct.module m
  | inputs => InputStruct.module m
  | enums => EnumBinding.module m
  | queries => OperationStruct.module m style .query
  | mutations => OperationStruct.module m style .mutation

end ClientModule

/-- The text of a file with this module in it. -/
def fileText (c : Module) : Except GenerationError String :=
  match c.reservedName? with
  | some name =>
    .error (.invalidCode
      ("Generated code is invalid: expected identifier, found keyword `" ++ name ++ "`"))
  | none => .ok c.text

structure ClientFile where
  name : String
  content : String
deriving DecidableEq, Repr

/-- The files of the client for a schema. -/
def clientFiles (m : SchemaModel) (style : SelectionStyle) :
    Except GenerationError (List ClientFile) :=
  ClientModule.all.mapM fun c => (fileText (c.code m style)).map (⟨c.fileName, ·⟩)

end SchemaClient
