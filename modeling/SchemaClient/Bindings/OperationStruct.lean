import SchemaClient.Bindings.Conversion

/-!
# Structs of operations

An operation becomes a struct of its arguments. Required arguments are taken by `new`, the others
set one by one. When the result is an object, a selection set of the caller's own can take the
place of the built one between the document's head and tail.
-/

namespace SchemaClient

open Code

structure ArgumentMember where
  wire : String
  name : String
  nullable : Bool
  isList : Bool
  type : FieldType
  /-- The type of a value that is present. -/
  required : FieldType
  conversion : Conversion
  nullGuarded : Bool
deriving DecidableEq, Repr

structure OperationStruct where
  operation : Operation
  name : String
  arguments : List ArgumentMember

namespace OperationStruct

def argument (m : SchemaModel) (plan : VariablePlan) (name : String) : ArgumentMember where
  wire := plan.name
  name := name
  nullable := plan.type.nullable
  isList := plan.type.isList
  type := .of m .argument plan.type
  required := .of m .argument { plan.type with nullable := false }
  conversion := .ofStrategy plan.strategy
  nullGuarded := plan.nullGuarded

def of (m : SchemaModel) (op : Operation) (name : String) : OperationStruct where
  operation := op
  name := name
  arguments :=
    let plans := distinctBy VariablePlan.name op.plans
    List.zipWith (argument m) plans
      (Names.claimAll ["selection"] (plans.map (Names.fieldName ·.name)))

/-- The operations of a kind, each with a struct name of its own. -/
def all (m : SchemaModel) (style : SelectionStyle) (kind : OperationKind) :
    List OperationStruct :=
  let ops := (operations m style).filter (·.kind = kind)
  let names := ops.map fun op => Names.typeName (op.operationName ++ kind.rootType)
  List.zipWith (of m) ops (Names.claimAll [] names)

def hasSelection (s : OperationStruct) : Bool :=
  s.operation.selection.isSome

def noneValue : Path := Lib.optionNone

def someOf (e : Expr) : Expr := .call Lib.optionSome [e] false

def optionalString : CodeType := .apply Lib.option (.path Lib.string)

def selfType : CodeType := .path (.name "Self")

def selfPath : Expr := .path (.name "self")

/-! ## The struct and its setters -/

def docs (op : Operation) : List Doc :=
  [.made (" The `" ++ op.name ++ "` " ++ op.kind.name ++ "."), .made "", .made " ```graphql"]
    ++ docLines op.document ++ [.made " ```"]

def member (a : ArgumentMember) : Member :=
  ⟨[], [], true, a.name, a.type.codeAt .argument⟩

def selectionMember : Member :=
  ⟨[], [], false, "selection", optionalString⟩

def new (s : OperationStruct) : Function where
  visible := true
  name := "new"
  parameters := (s.arguments.filter (!·.nullable)).map fun a =>
    .typed a.name (a.type.codeAt .argument)
  result := selfType
  body := [.result (.construct
    (s.arguments.map (fun a => (a.name, if a.nullable then some noneValue else none))
      ++ if s.hasSelection then [("selection", some noneValue)] else []))]

/-- Stores a value in a member and returns the struct. -/
def storeBody (name : String) (value : Expr) : List Statement :=
  [.effect (.assign (ownField name) (someOf value)), .result selfPath]

def setterName (a : ArgumentMember) : String := "with_" ++ a.name

def setter (a : ArgumentMember) : Function where
  visible := true
  name := setterName a
  parameters := [.mutableSelf, .typed "value" (a.required.codeAt .argument)]
  result := selfType
  body := storeBody a.name valuePath

def selectionSetter : Function where
  visible := true
  name := "with_selection"
  parameters := [.mutableSelf,
    .typed "selection"
      (.some (.apply (Lib.path ["convert", "Into"]) (.path Lib.string)))]
  result := selfType
  body := storeBody "selection" (.method (.path (.name "selection")) "into" [])

def selectionItems (op : Operation) : List AssociatedItem :=
  [.constant ⟨false, "DOCUMENT_HEAD", Lib.staticStr, .literal op.head⟩,
    .constant ⟨false, "DOCUMENT_TAIL", Lib.staticStr, .literal op.tail⟩,
    .function
      [.comment " Replaces the synthesized selection set.", .comment "",
        .comment (" `selection` is the text that goes between the braces, e.g. `\"id name\"`,"),
        .comment
          " usually built with `graphgen::selection::fields`. Empty text selects `\x7b\x7d`."]
      selectionSetter]

/-! ## The operation's interface -/

def runtimePath (segments : List String) : Path := .root ("graphgen" :: segments)

/-- The format of a document with a selection of the caller's own. -/
def customFormat : SelectionStyle → String
  | .inline => "\x7b\x7d \x7b\x7b \x7b\x7d \x7d\x7d\x7b\x7d"
  | .indented => "\x7b\x7d \x7b\x7b\n\x7b\x7d\n    \x7d\x7d\x7b\x7d"

def documentHead : Expr := .path (.relative ["Self", "DOCUMENT_HEAD"])

def documentTail : Expr := .path (.relative ["Self", "DOCUMENT_TAIL"])

/-- The document with the caller's selection if there is one; blank text selects nothing. -/
def document (op : Operation) : Function where
  visible := false
  name := "document"
  parameters := [.borrowedSelf]
  result := .path Lib.string
  body :=
    let selection : Expr := .path (.name "selection")
    [.result (.cases (.borrow (ownField "selection"))
      [.guarded (.tuple Lib.optionSome "selection")
          (.method (.method selection "trim" []) "is_empty" [])
          (.format [.literal "\x7b\x7d \x7b\x7b\x7d\x7d\x7b\x7d", documentHead, documentTail]),
        .plain (.tuple Lib.optionSome "selection")
          (.format [.literal (customFormat op.style), documentHead, selection, documentTail]),
        .plain (.path Lib.optionNone)
          (stringOf (.qualified (runtimePath ["Operation"]) "DOCUMENT") true)])]

/-- The variable of an argument, `null` in place of an absent value that a conversion would not
take. -/
def variableValue (a : ArgumentMember) : Expr :=
  if a.nullGuarded then
    .cases (.borrow (ownField a.name))
      [.plain (.tuple Lib.optionSome "value") (a.conversion.apply a.isList valuePath),
        .plain (.path Lib.optionNone) (.path (.root ["serde_json", "Value", "Null"]))]
  else a.conversion.apply a.isList (ownField a.name)

def variablesFunction (s : OperationStruct) : Function where
  visible := false
  name := "variables"
  parameters := [.borrowedSelf]
  result := Lib.variableMap
  body := variablesBody (s.arguments.map fun a => insertVariable a.wire (variableValue a))

def kindPath : OperationKind → Path
  | .query => runtimePath ["OperationKind", "Query"]
  | .mutation => runtimePath ["OperationKind", "Mutation"]

def interface (s : OperationStruct) : List AssociatedItem :=
  let op := s.operation
  [.type "Response" (FieldType.ofResult op.result).code,
    .constant ⟨false, "KIND", .path (runtimePath ["OperationKind"]), .path (kindPath op.kind)⟩,
    .constant ⟨false, "FIELD", Lib.staticStr, .literal op.name⟩,
    .constant ⟨false, "GRAPHQL_TYPE", Lib.staticStr, .literal op.returnType.raw⟩,
    .constant ⟨false, "DOCUMENT", Lib.staticStr, .literal op.document⟩]
    ++ (if s.hasSelection then [.function [] (document op)] else [])
    ++ [.function [] s.variablesFunction]

def items (s : OperationStruct) : List Item :=
  [.struct (docs s.operation) [derives ["Debug", "Clone", "PartialEq"] false false] s.name
      (s.arguments.map member ++ if s.hasSelection then [selectionMember] else []),
    .block none s.name
      (.function [] s.new :: (s.arguments.filter (·.nullable)).map (fun a =>
          .function [] (setter a))
        ++ if s.hasSelection then selectionItems s.operation else []),
    .block (some (runtimePath ["Operation"])) s.name s.interface]

def moduleDoc : OperationKind → String
  | .query => " Query operations."
  | .mutation => " Mutation operations."

def module (m : SchemaModel) (style : SelectionStyle) (kind : OperationKind) : Module where
  docs := [.made (moduleDoc kind)]
  attributes := [allowed [camelCaseAllowed, .relative ["clippy", "new_without_default"],
    .relative ["clippy", "too_many_arguments"]]]
  items := (all m style kind).flatMap items

end OperationStruct

end SchemaClient
