import SchemaClient.Schema.Model
import SchemaClient.Source.Encoding
import SchemaClient.Source.Entry
import SchemaClient.Source.Header

/-!
# Analysis of a schema

The model of a schema text. Root types give the operations and are no object types; an enum
without values is left out. Only a schema of which nothing remains is an error.
-/

namespace SchemaClient

open Source

namespace Source

def objectsIn (text : String) : List ObjectType :=
  ((definitionsIn .object text).filter fun d => !reservedTypeNames.contains d.name).map
    fun d => ⟨d.name, fieldsIn d.body.toList⟩

def inputsIn (text : String) : List InputType :=
  (definitionsIn .input text).map fun d => ⟨d.name, fieldsIn d.body.toList⟩

def enumsIn (text : String) : List EnumType :=
  ((definitionsIn .enum text).map fun d => ⟨d.name, valuesIn d.body.toList⟩).filter
    fun (e : EnumType) => !e.values.isEmpty

/-- The fields of the first definition of a root type. -/
def rootFieldsIn (kind : OperationKind) (text : String) : List OperationField :=
  match bodyOf? .object kind.rootType text with
  | some body => operationsIn body.toList
  | none => []

/-- The model of a text in normal form. -/
def modelOf (text : String) : SchemaModel :=
  .of (objectsIn text) (inputsIn text) (enumsIn text) (rootFieldsIn .query text)
    (rootFieldsIn .mutation text)

end Source

def analyse (text : String) : Except GenerationError SchemaModel :=
  (normalise text).map modelOf

end SchemaClient
