import SchemaClient.Bindings.Conversion

/-!
# Enums

A schema enum becomes an enum with a table from variants to raw values and one back, both in
schema order. The first value is the default; a value given twice counts once.
-/

namespace SchemaClient

open Code

structure EnumBinding where
  source : String
  name : String
  /-- Raw values with their variants. -/
  variants : List (String × String)
deriving DecidableEq, Repr

namespace EnumBinding

def of (e : EnumType) : EnumBinding where
  source := e.name
  name := Names.typeName e.name
  variants :=
    let values := distinctBy id e.values
    values.zip (Names.claimAll [] (values.map Names.variantName))

/-- One enum for each name, with the values of its last definition. -/
def all (m : SchemaModel) : List EnumBinding :=
  (distinctBy EnumType.name m.enums).filterMap fun e => (m.enumType? e.name).map .of

def ownPath (variant : String) : Path := .relative ["Self", variant]

def variantsOf : (isFirst : Bool) → List (String × String) → List Variant
  | _, [] => []
  | isFirst, (raw, name) :: rest =>
    ⟨(if isFirst then [.word "default"] else []) ++ [renamed raw], name⟩ :: variantsOf false rest

def allConstant (e : EnumBinding) : Constant where
  visible := true
  name := "ALL"
  type := .static (.slice (.path (.name "Self")))
  value := .borrow (.array (e.variants.map fun (_, v) => .path (ownPath v)))

/-- From variants to raw values. -/
def asStr (e : EnumBinding) : Function where
  visible := true
  name := "as_str"
  parameters := [.borrowedSelf]
  result := Lib.staticStr
  body := [.result (.cases (.path (.name "self"))
    (e.variants.map fun (raw, v) => .plain (.path (ownPath v)) (.literal raw)))]

def display : Function where
  visible := false
  name := "fmt"
  parameters := [.borrowedSelf,
    .typed "f" (.mutable (.apply (Lib.path ["fmt", "Formatter"]) (.lifetime "_")))]
  result := .path (Lib.path ["fmt", "Result"])
  body := [.result (.method (.path (.name "f")) "write_str"
    [.method (.path (.name "self")) "as_str" []])]

def resultOk : Path := Lib.path ["result", "Result", "Ok"]

def resultErr : Path := Lib.path ["result", "Result", "Err"]

/-- From raw values to variants, any other text being an error. -/
def fromStr (e : EnumBinding) : Function where
  visible := false
  name := "from_str"
  parameters := [.typed "value" (.reference (.path (.name "str")))]
  result := .apply2 (Lib.path ["result", "Result"]) (.path (.name "Self"))
    (.path (.relative ["Self", "Err"]))
  body := [.result (.cases valuePath
    (e.variants.map (fun (raw, v) =>
        .plain (.literal raw) (.call resultOk [.path (ownPath v)] false))
      ++ [.plain (.path (.name "other"))
        (.call resultErr
          [.format [.literal ("unknown " ++ e.source ++ " value: \x7b\x7d"),
            .path (.name "other")]]
          false)]))]

def items (e : EnumBinding) : List Item :=
  [.enum [.made (" The `" ++ e.source ++ "` enum.")]
      [derives ["Debug", "Clone", "Copy", "PartialEq", "Eq", "Hash", "Default"] true true]
      e.name (variantsOf true e.variants),
    .block none e.name
      [.documented [.comment " Every value, in schema order."] e.allConstant,
        .function [.comment " The raw schema value."] e.asStr],
    .block (some (Lib.path ["fmt", "Display"])) e.name [.function [] display],
    .block (some (Lib.path ["str", "FromStr"])) e.name
      [.type "Err" (.path Lib.string), .function [] e.fromStr]]

def module (m : SchemaModel) : Module where
  docs := [.comment " Enumerations defined by the schema."]
  attributes := [allowed [camelCaseAllowed]]
  items := (all m).flatMap items

end EnumBinding

end SchemaClient
