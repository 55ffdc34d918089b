import SchemaClient.Proofs.Bindings.Distinct
import SchemaClient.Proofs.Code.Identifiers
import SchemaClient.Proofs.Names.Legal

/-!
# The names of generated code are legal

Generated code has words of its own, which are legal, and names made of schema names, which are
legal whatever these are. Members, constants, variants and setters have claimed names, types have
names as they are spelled.
-/

namespace SchemaClient

open Code Names

/-! ## Words of the generator's own -/

/-- Items of libraries and of the runtime. -/
@[simp]
theorem legal_library :
    Legal "std" ∧ Legal "option" ∧ Legal "Option" ∧ Legal "Some" ∧ Legal "None" ∧ Legal "vec" ∧
    Legal "Vec" ∧ Legal "boxed" ∧ Legal "Box" ∧ Legal "string" ∧ Legal "String" ∧ Legal "str" ∧
    Legal "i64" ∧ Legal "f64" ∧ Legal "bool" ∧ Legal "result" ∧ Legal "Result" ∧ Legal "Ok" ∧
    Legal "Err" ∧ Legal "fmt" ∧ Legal "Formatter" ∧ Legal "Display" ∧ Legal "FromStr" ∧
    Legal "convert" ∧ Legal "Into" ∧ Legal "serde_json" ∧ Legal "Value" ∧ Legal "Map" ∧
    Legal "Null" ∧ Legal "Array" ∧ Legal "Object" ∧ Legal "serde" ∧ Legal "Serialize" ∧
    Legal "Deserialize" ∧ Legal "graphgen" ∧ Legal "GraphQLClient" ∧ Legal "Operation" ∧
    Legal "OperationKind" ∧ Legal "Query" ∧ Legal "Mutation" := by
  decide

/-- Items, methods and variables of generated code. -/
@[simp]
theorem legal_template :
    Legal "new" ∧ Legal "from" ∧ Legal "to_value" ∧ Legal "unwrap_or_default" ∧ Legal "as_str" ∧
    Legal "to_variables" ∧ Legal "iter" ∧ Legal "map" ∧ Legal "collect" ∧ Legal "insert" ∧
    Legal "write_str" ∧ Legal "from_str" ∧ Legal "into" ∧ Legal "trim" ∧ Legal "is_empty" ∧
    Legal "document" ∧ Legal "with_selection" ∧ Legal "value" ∧ Legal "item" ∧ Legal "other" ∧
    Legal "f" ∧ Legal "variables" ∧ Legal "selection" ∧ Legal "ALL" ∧ Legal "DOCUMENT" ∧
    Legal "DOCUMENT_HEAD" ∧ Legal "DOCUMENT_TAIL" ∧ Legal "Response" ∧ Legal "KIND" ∧
    Legal "FIELD" ∧ Legal "GRAPHQL_TYPE" := by
  decide

/-- Modules and what stands in attributes. -/
@[simp]
theorem legal_attributes :
    Legal "enums" ∧ Legal "inputs" ∧ Legal "mutations" ∧ Legal "queries" ∧ Legal "types" ∧
    Legal "derive" ∧ Legal "Debug" ∧ Legal "Clone" ∧ Legal "Copy" ∧ Legal "PartialEq" ∧
    Legal "Eq" ∧ Legal "Hash" ∧ Legal "Default" ∧ Legal "default" ∧ Legal "rename" ∧
    Legal "skip_serializing_if" ∧ Legal "allow" ∧ Legal "non_camel_case_types" ∧ Legal "clippy" ∧
    Legal "new_without_default" ∧ Legal "too_many_arguments" := by
  decide

/-! ## Types and statements -/

@[simp]
theorem allLegal_lib : AllLegal Lib.option.identifiers ∧ AllLegal Lib.optionSome.identifiers ∧
    AllLegal Lib.optionNone.identifiers ∧ AllLegal Lib.vec.identifiers ∧
    AllLegal Lib.box.identifiers ∧ AllLegal Lib.string.identifiers ∧
    AllLegal Lib.json.identifiers ∧ AllLegal Lib.jsonMap.identifiers ∧
    AllLegal Lib.variableMap.identifiers ∧ AllLegal Lib.staticStr.identifiers := by
  simp [Lib.option, Lib.optionSome, Lib.optionNone, Lib.vec, Lib.box, Lib.string, Lib.json,
    Lib.jsonMap, Lib.variableMap, Lib.staticStr, Lib.path, CodeType.identifiers, pathKeywords]

namespace FieldType

/-- The names of generated items in a type. -/
def names : FieldType → List String
  | .scalar _ | .json => []
  | .enum name | .object name | .input name => [name]
  | .list t | .optional t | .boxed t => t.names

@[simp]
theorem allLegal_code {t : FieldType} : AllLegal t.code.identifiers ↔ AllLegal t.names := by
  induction t with
  | scalar kind =>
    cases kind <;> simp [code, CodeType.identifiers, names, scalarPath, pathKeywords]
  | enum name => simp [code, CodeType.identifiers, names, siblingPath, pathKeywords]
  | object name => simp [code, CodeType.identifiers, names, siblingPath, pathKeywords]
  | input name => simp [code, CodeType.identifiers, names, siblingPath, pathKeywords]
  | json => simp [code, CodeType.identifiers, names]
  | list t ih => simpa [code, CodeType.identifiers, names] using ih
  | optional t ih => simpa [code, CodeType.identifiers, names] using ih
  | boxed t ih => simpa [code, CodeType.identifiers, names] using ih

@[simp]
theorem allLegal_codeAt {position : Position} {t : FieldType} :
    AllLegal (t.codeAt position).identifiers ↔ AllLegal t.names := by
  unfold codeAt
  split
  · simp [CodeType.identifiers, names]
  · exact allLegal_code

theorem names_optionalIf (nullable : Bool) (t : FieldType) :
    (optionalIf nullable t).names = t.names := by
  cases nullable <;> rfl

@[simp]
theorem allLegal_of (m : SchemaModel) (position : Position) (t : TypeRef) :
    AllLegal (FieldType.of m position t).names := by
  have element : AllLegal (element (m.classOf t.base) t.base).names := by
    cases m.classOf t.base <;> simp [FieldType.element, names]
  unfold FieldType.of
  dsimp only
  split
  · rwa [names_optionalIf]
  · split
    · exact element
    · rwa [names_optionalIf]
    · rwa [names_optionalIf]

@[simp]
theorem allLegal_ofResult (r : ResultType) : AllLegal (ofResult r).names := by
  unfold ofResult
  cases r.element <;> cases r.isList <;> simp [names]

end FieldType

section Statements

@[simp]
theorem allLegal_apply {c : Conversion} {isList : Bool} {value : Expr} :
    AllLegal (exprIdentifiers (c.apply isList value)) ↔ AllLegal (exprIdentifiers value) := by
  cases c <;> cases isList <;>
    simp [Conversion.apply, Conversion.single, Conversion.jsonCall, exprIdentifiers,
      exprsIdentifiers, pathKeywords]

@[simp]
theorem allLegal_ownField {name : String} :
    AllLegal (exprIdentifiers (ownField name)) ↔ Legal name := by
  simp [ownField, exprIdentifiers, pathKeywords]

@[simp]
theorem allLegal_valuePath : AllLegal (exprIdentifiers valuePath) := by
  simp [valuePath, exprIdentifiers, pathKeywords]

@[simp]
theorem allLegal_insertVariable {wire : String} {value : Expr} :
    AllLegal (statementIdentifiers (insertVariable wire value)) ↔
      AllLegal (exprIdentifiers value) := by
  simp [insertVariable, stringOf, statementIdentifiers, exprIdentifiers, exprsIdentifiers,
    Lib.path, pathKeywords]

theorem allLegal_variablesBody {inserts : List Statement}
    (h : ∀ s ∈ inserts, AllLegal (statementIdentifiers s)) :
    AllLegal (statementsIdentifiers (variablesBody inserts)) := by
  rw [allLegal_statements, variablesBody]
  split
  · simp [statementIdentifiers, exprIdentifiers, exprsIdentifiers]
  · rw [List.forall_mem_cons, List.forall_mem_append]
    exact ⟨by simp [statementIdentifiers, exprIdentifiers, exprsIdentifiers], h,
      by simp [statementIdentifiers, exprIdentifiers, pathKeywords]⟩

theorem allLegal_renamedIfOther (wire name : String) :
    ∀ a ∈ renamedIfOther wire name, AllLegal a.identifiers := by
  rw [renamedIfOther]
  split <;> simp [renamed]

@[simp]
theorem allLegal_derives {names : List String} {serialised trailing : Bool} :
    AllLegal (derives names serialised trailing).identifiers ↔
      ∀ n ∈ names, AllLegal (Path.name n).identifiers := by
  cases serialised <;> simp [derives]

end Statements

/-! ## Bindings -/

theorem legal_claimAll {α : Type} {spelling : α → String} (h : ∀ x, Legal (spelling x))
    (taken : Scope) (xs : List α) : ∀ n ∈ claimAll taken (xs.map spelling), Legal n :=
  legal_of_mem_claimAll (List.forall_mem_map.mpr fun x _ => h x)

theorem legal_objectMembers (m : SchemaModel) (source : String) (fields : List Field) :
    ∀ f ∈ (ObjectStruct.of m source fields).members,
      Legal f.name ∧ Legal f.constant ∧ AllLegal f.type.names := by
  intro f hf
  obtain ⟨field, -, ⟨name, constant⟩, hclaimed, rfl⟩ := exists_of_mem_zipWith hf
  obtain ⟨hname, hconstant⟩ := List.of_mem_zip hclaimed
  exact ⟨legal_claimAll (fun _ => legal_fieldName _) _ _ _ hname,
    legal_claimAll (fun _ => legal_constantName _) _ _ _ hconstant, FieldType.allLegal_of _ _ _⟩

theorem legal_inputMembers (m : SchemaModel) (source : String) (fields : List Field) :
    ∀ f ∈ (InputStruct.of m source fields).members, Legal f.name ∧ AllLegal f.type.names := by
  intro f hf
  obtain ⟨field, -, name, hname, rfl⟩ := exists_of_mem_zipWith hf
  exact ⟨legal_claimAll (fun _ => legal_fieldName _) _ _ _ hname, FieldType.allLegal_of _ _ _⟩

theorem legal_variants (e : EnumType) : ∀ v ∈ (EnumBinding.of e).variants, Legal v.2 := by
  intro v hv
  exact legal_claimAll (fun _ => legal_variantName _) _ _ _ (List.of_mem_zip hv).2

theorem legal_arguments (m : SchemaModel) (op : Operation) (name : String) :
    ∀ a ∈ (OperationStruct.of m op name).arguments,
      Legal a.name ∧ AllLegal a.type.names ∧ AllLegal a.required.names := by
  intro a ha
  obtain ⟨plan, -, name, hname, rfl⟩ := exists_of_mem_zipWith ha
  have type := FieldType.allLegal_of m .argument plan.type
  have required := FieldType.allLegal_of m .argument { plan.type with nullable := false }
  exact ⟨legal_claimAll (fun _ => legal_fieldName _) _ _ _ hname, type, required⟩

theorem legal_operationName (m : SchemaModel) (style : SelectionStyle) (kind : OperationKind) :
    ∀ s ∈ OperationStruct.all m style kind,
      Legal s.name ∧ ∃ op, s = .of m op s.name := by
  intro s hs
  obtain ⟨op, -, name, hname, rfl⟩ := exists_of_mem_zipWith hs
  exact ⟨legal_claimAll (fun _ => legal_typeName _) _ _ _ hname, op, rfl⟩

/-! ## Items -/

theorem allLegal_objectItems {s : ObjectStruct} (hs : Legal s.name)
    (h : ∀ f ∈ s.members, Legal f.name ∧ Legal f.constant ∧ AllLegal f.type.names) :
    AllLegal (s.items.flatMap Item.identifiers) := by
  have members : ∀ f ∈ s.members, AllLegal (ObjectStruct.member f).identifiers := by
    intro f hf
    obtain ⟨hname, -, htype⟩ := h f hf
    rw [Member.identifiers, allLegal_cons, allLegal_append, allLegal_flatMap]
    exact ⟨hname, allLegal_renamedIfOther _ _, FieldType.allLegal_codeAt.mpr htype⟩
  have constants : ∀ f ∈ s.members,
      AllLegal (AssociatedItem.constant (ObjectStruct.constant f)).identifiers := by
    intro f hf
    simp [ObjectStruct.constant, AssociatedItem.identifiers, Constant.identifiers,
      exprIdentifiers, (h f hf).2.1]
  rw [ObjectStruct.items]
  split
  · simpa [Item.identifiers, pathKeywords, hs]
      using members
  · simpa [Item.identifiers, pathKeywords, hs]
      using ⟨members, constants⟩

theorem allLegal_inputItems {s : InputStruct} (hs : Legal s.name)
    (h : ∀ f ∈ s.members, Legal f.name ∧ AllLegal f.type.names) :
    AllLegal (s.items.flatMap Item.identifiers) := by
  have members : ∀ f ∈ s.members, AllLegal (InputStruct.member f).identifiers := by
    intro f hf
    have optional : ∀ a ∈ (if f.nullable then
        [Attribute.list "serde"
          [.value "skip_serializing_if" "::std::option::Option::is_none"] false]
        else []), AllLegal a.identifiers := by
      split <;> simp 
    have type : AllLegal (f.type.codeAt .inputField).identifiers :=
      FieldType.allLegal_codeAt.mpr (h f hf).2
    rw [Member.identifiers, allLegal_cons, allLegal_append, allLegal_flatMap]
    exact ⟨(h f hf).1, List.forall_mem_append.mpr ⟨allLegal_renamedIfOther _ _, optional⟩, type⟩
  have inserts : ∀ i ∈ s.members.map InputStruct.insert, AllLegal (statementIdentifiers i) := by
    rw [List.forall_mem_map]
    intro f hf
    rw [InputStruct.insert]
    split <;> simp [statementIdentifiers, statementsIdentifiers, exprIdentifiers,
      Pattern.identifiers, (h f hf).1]
  have toVariables : AllLegal s.toVariables.identifiers := by
    simpa [InputStruct.toVariables, AssociatedItem.identifiers, Function.identifiers,
      Parameter.identifiers] using allLegal_variablesBody inserts
  cases default : s.hasDefault <;>
    simpa [InputStruct.items, Item.identifiers, default, toVariables, pathKeywords, hs]
      using members

theorem allLegal_variantsOf (isFirst : Bool) {variants : List (String × String)}
    (h : ∀ v ∈ variants, Legal v.2) :
    ∀ v ∈ EnumBinding.variantsOf isFirst variants, AllLegal v.identifiers := by
  induction variants generalizing isFirst with
  | nil => exact List.forall_mem_nil _
  | cons v rest ih =>
    rw [List.forall_mem_cons] at h
    refine List.forall_mem_cons.mpr ⟨?_, ih false h.2⟩
    cases isFirst <;> simp [Variant.identifiers, renamed, h.1]

theorem allLegal_allConstant {e : EnumBinding} (h : ∀ v ∈ e.variants, Legal v.2) :
    AllLegal e.allConstant.identifiers := by
  have values : ∀ v ∈ e.variants.map fun v => Expr.path (EnumBinding.ownPath v.2),
      AllLegal (exprIdentifiers v) := by
    rw [List.forall_mem_map]
    intro v hv
    simp [exprIdentifiers, EnumBinding.ownPath, pathKeywords, h v hv]
  simpa [EnumBinding.allConstant, Constant.identifiers, CodeType.identifiers, exprIdentifiers,
    pathKeywords] using allLegal_exprs.mpr values

theorem allLegal_asStr {e : EnumBinding} (h : ∀ v ∈ e.variants, Legal v.2) :
    AllLegal e.asStr.identifiers := by
  have arms : ∀ a ∈ e.variants.map fun v =>
      Arm.plain (.path (EnumBinding.ownPath v.2)) (.literal v.1), AllLegal (armIdentifiers a) := by
    rw [List.forall_mem_map]
    intro v hv
    simp [armIdentifiers, exprIdentifiers, Pattern.identifiers, EnumBinding.ownPath, pathKeywords,
      h v hv]
  simpa [EnumBinding.asStr, Function.identifiers, Parameter.identifiers, statementsIdentifiers,
    statementIdentifiers, exprIdentifiers, pathKeywords] using allLegal_arms.mpr arms

theorem allLegal_display : AllLegal EnumBinding.display.identifiers := by
  simp [EnumBinding.display, Function.identifiers, Parameter.identifiers, CodeType.identifiers,
    statementsIdentifiers, statementIdentifiers, exprIdentifiers, exprsIdentifiers, Lib.path,
    pathKeywords]

theorem allLegal_fromStr {e : EnumBinding} (h : ∀ v ∈ e.variants, Legal v.2) :
    AllLegal e.fromStr.identifiers := by
  have arms : ∀ a ∈ e.variants.map fun v =>
      Arm.plain (.literal v.1) (.call EnumBinding.resultOk [.path (EnumBinding.ownPath v.2)] false),
      AllLegal (armIdentifiers a) := by
    rw [List.forall_mem_map]
    intro v hv
    simp [armIdentifiers, exprIdentifiers, exprsIdentifiers, Pattern.identifiers,
      EnumBinding.ownPath, EnumBinding.resultOk, Lib.path, pathKeywords, h v hv]
  have other : AllLegal (armIdentifiers (.plain (.path (.name "other")) (.call EnumBinding.resultErr
      [.format [.literal ("unknown " ++ e.source ++ " value: \x7b\x7d"), .path (.name "other")]]
      false))) := by
    simp [armIdentifiers, exprIdentifiers, exprsIdentifiers, Pattern.identifiers,
      EnumBinding.resultErr, Lib.path, pathKeywords]
  have body := allLegal_arms.mpr
    (List.forall_mem_append.mpr ⟨arms, List.forall_mem_singleton.mpr other⟩)
  simpa [EnumBinding.fromStr, Function.identifiers, Parameter.identifiers, CodeType.identifiers,
    statementsIdentifiers, statementIdentifiers, exprIdentifiers, Lib.path, pathKeywords] using body

theorem allLegal_enumItems {e : EnumBinding} (he : Legal e.name)
    (h : ∀ v ∈ e.variants, Legal v.2) : AllLegal (e.items.flatMap Item.identifiers) := by
  simpa [EnumBinding.items, Item.identifiers, AssociatedItem.identifiers, CodeType.identifiers,
    Lib.path, pathKeywords, he, allLegal_allConstant h, allLegal_asStr h, allLegal_display,
    allLegal_fromStr h] using allLegal_variantsOf true h

section Operations

variable {s : OperationStruct} {a : ArgumentMember}

theorem allLegal_new (h : ∀ a ∈ s.arguments, Legal a.name ∧ AllLegal a.type.names) :
    AllLegal (OperationStruct.new s).identifiers := by
  have parameters : ∀ p ∈ (s.arguments.filter (!·.nullable)).map fun a =>
      Parameter.typed a.name (a.type.codeAt .argument), AllLegal p.identifiers := by
    rw [List.forall_mem_map]
    intro a ha
    obtain ⟨hname, htype⟩ := h a (List.mem_filter.mp ha).1
    rw [Parameter.identifiers, allLegal_cons]
    exact ⟨hname, FieldType.allLegal_codeAt.mpr htype⟩
  have arguments : ∀ a ∈ s.arguments, AllLegal (a.name ::
      ((if a.nullable then some OperationStruct.noneValue else none).map
        Path.identifiers).getD []) := by
    intro a ha
    split <;> simp [OperationStruct.noneValue, (h a ha).1]
  have body : AllLegal (statementsIdentifiers (OperationStruct.new s).body) := by
    cases selection : s.hasSelection <;>
      simpa [OperationStruct.new, statementsIdentifiers, statementIdentifiers, exprIdentifiers,
        List.flatMap_map, selection, OperationStruct.noneValue] using arguments
  rw [Function.identifiers, allLegal_cons, allLegal_append, allLegal_append, allLegal_flatMap]
  exact ⟨by simp [OperationStruct.new], parameters,
    by simp [OperationStruct.new, OperationStruct.selfType, CodeType.identifiers, pathKeywords],
    body⟩

theorem allLegal_setter (h : Legal a.name) (required : AllLegal a.required.names) :
    AllLegal (OperationStruct.setter a).identifiers := by
  simpa [OperationStruct.setter, OperationStruct.setterName, OperationStruct.storeBody,
    OperationStruct.someOf, OperationStruct.selfPath, OperationStruct.selfType,
    Function.identifiers, Parameter.identifiers, CodeType.identifiers, statementsIdentifiers,
    statementIdentifiers, exprIdentifiers, exprsIdentifiers, pathKeywords, h, h.setter]
    using required

theorem allLegal_selectionItems (op : Operation) :
    ∀ i ∈ OperationStruct.selectionItems op, AllLegal i.identifiers := by
  simp [OperationStruct.selectionItems, OperationStruct.selectionSetter, OperationStruct.storeBody,
    OperationStruct.someOf, OperationStruct.selfPath, OperationStruct.selfType,
    AssociatedItem.identifiers, Constant.identifiers, Function.identifiers, Parameter.identifiers,
    CodeType.identifiers, statementsIdentifiers, statementIdentifiers, exprIdentifiers,
    exprsIdentifiers, Lib.path, pathKeywords]

theorem allLegal_document (op : Operation) :
    AllLegal (OperationStruct.document op).identifiers := by
  simp [OperationStruct.document, OperationStruct.documentHead, OperationStruct.documentTail,
    OperationStruct.runtimePath, stringOf, Function.identifiers, Parameter.identifiers,
    CodeType.identifiers, statementsIdentifiers, statementIdentifiers, exprIdentifiers,
    exprsIdentifiers, armsIdentifiers, armIdentifiers, Pattern.identifiers, Lib.path, pathKeywords]

theorem allLegal_variablesFunction (h : ∀ a ∈ s.arguments, Legal a.name) :
    AllLegal (OperationStruct.variablesFunction s).identifiers := by
  have inserts : ∀ i ∈ s.arguments.map
        fun a => insertVariable a.wire (OperationStruct.variableValue a),
      AllLegal (statementIdentifiers i) := by
    rw [List.forall_mem_map]
    intro a ha
    rw [allLegal_insertVariable, OperationStruct.variableValue]
    split <;> simp [exprIdentifiers, armsIdentifiers, armIdentifiers, Pattern.identifiers, h a ha]
  simpa [OperationStruct.variablesFunction, Function.identifiers, Parameter.identifiers] using
    allLegal_variablesBody inserts

theorem allLegal_interface (h : ∀ a ∈ s.arguments, Legal a.name) :
    ∀ i ∈ s.interface, AllLegal i.identifiers := by
  have kind : AllLegal (OperationStruct.kindPath s.operation.kind).identifiers := by
    cases s.operation.kind <;> simp [OperationStruct.kindPath, OperationStruct.runtimePath]
  rw [OperationStruct.interface]
  split <;> simp [AssociatedItem.identifiers, Constant.identifiers, CodeType.identifiers,
    exprIdentifiers, OperationStruct.runtimePath, kind, allLegal_document,
    allLegal_variablesFunction h]

theorem allLegal_operationItems (hs : Legal s.name)
    (h : ∀ a ∈ s.arguments,
      Legal a.name ∧ AllLegal a.type.names ∧ AllLegal a.required.names) :
    AllLegal (s.items.flatMap Item.identifiers) := by
  have member : ∀ a ∈ s.arguments, AllLegal (OperationStruct.member a).identifiers := by
    intro a ha
    obtain ⟨hname, htype, -⟩ := h a ha
    simpa [OperationStruct.member, Member.identifiers] using ⟨hname, htype⟩
  have members : ∀ p ∈ s.arguments.map OperationStruct.member ++
      (if s.hasSelection then [OperationStruct.selectionMember] else []),
      AllLegal p.identifiers := by
    refine List.forall_mem_append.mpr ⟨List.forall_mem_map.mpr member, ?_⟩
    split <;> simp [OperationStruct.selectionMember, OperationStruct.optionalString,
      Member.identifiers, CodeType.identifiers]
  have setter : ∀ a ∈ s.arguments.filter (·.nullable),
      AllLegal (AssociatedItem.function [] (OperationStruct.setter a)).identifiers := by
    intro a ha
    obtain ⟨hname, -, hrequired⟩ := h a (List.mem_filter.mp ha).1
    exact allLegal_setter hname hrequired
  have new : AllLegal (AssociatedItem.function [] (OperationStruct.new s)).identifiers :=
    allLegal_new fun a ha => ⟨(h a ha).1, (h a ha).2.1⟩
  have own : ∀ i ∈ AssociatedItem.function [] (OperationStruct.new s) ::
      (s.arguments.filter (·.nullable)).map (fun a => .function [] (OperationStruct.setter a)) ++
      (if s.hasSelection then OperationStruct.selectionItems s.operation else []),
      AllLegal i.identifiers := by
    refine List.forall_mem_append.mpr ⟨List.forall_mem_cons.mpr
      ⟨new, List.forall_mem_map.mpr setter⟩, ?_⟩
    split
    · exact allLegal_selectionItems s.operation
    · exact List.forall_mem_nil _
  rw [allLegal_flatMap, OperationStruct.items, List.forall_mem_cons, List.forall_mem_cons,
    List.forall_mem_singleton]
  simp only [Item.identifiers, allLegal_cons, allLegal_append, allLegal_flatMap]
  refine ⟨⟨hs, by simp [pathKeywords], members⟩, ⟨hs, allLegal_nil, own⟩, hs,
    by simp [OperationStruct.runtimePath], allLegal_interface fun a ha => (h a ha).1⟩

end Operations

/-! ## Modules -/

section Modules

variable {m : SchemaModel}

theorem allLegal_module {c : Module} {α : Type} (bindings : List α) {items : α → List Item}
    (attributes : ∀ a ∈ c.attributes, AllLegal a.identifiers)
    (holds : c.items = bindings.flatMap items)
    (h : ∀ b ∈ bindings, AllLegal ((items b).flatMap Item.identifiers)) :
    AllLegal c.identifiers := by
  rw [Module.identifiers, allLegal_append, allLegal_flatMap, holds, List.flatMap_assoc,
    allLegal_flatMap]
  exact ⟨attributes, h⟩

theorem allLegal_allowed {names : List Path} (h : ∀ p ∈ names, AllLegal p.identifiers) :
    ∀ a ∈ [allowed names], AllLegal a.identifiers := by
  simpa [allowed] using h

theorem allLegal_operations (m : SchemaModel) (style : SelectionStyle) (kind : OperationKind) :
    AllLegal (OperationStruct.module m style kind).identifiers := by
  refine allLegal_module (OperationStruct.all m style kind) (allLegal_allowed ?_) rfl ?_
  · simp [camelCaseAllowed, pathKeywords]
  · intro s hs
    obtain ⟨hname, op, hop⟩ := legal_operationName m style kind s hs
    exact allLegal_operationItems hname (hop ▸ legal_arguments m op s.name)

theorem allLegal_code (m : SchemaModel) (style : SelectionStyle) (c : ClientModule) :
    AllLegal (c.code m style).identifiers := by
  have camelCase : ∀ p ∈ [camelCaseAllowed], AllLegal p.identifiers := by
    simp [camelCaseAllowed, pathKeywords]
  cases c with
  | root =>
    simp [ClientModule.code, ClientModule.rootModule, Module.identifiers, Item.identifiers]
  | types =>
    refine allLegal_module (ObjectStruct.all m) (allLegal_allowed camelCase) rfl ?_
    intro s hs
    obtain ⟨t, -, rfl⟩ := List.mem_map.mp hs
    exact allLegal_objectItems (legal_typeName _) (legal_objectMembers m _ _)
  | inputs =>
    refine allLegal_module (InputStruct.all m) (allLegal_allowed camelCase) rfl ?_
    intro s hs
    obtain ⟨t, -, hs⟩ := List.mem_filterMap.mp hs
    obtain ⟨u, -, rfl⟩ := Option.map_eq_some_iff.mp hs
    exact allLegal_inputItems (legal_typeName _) (legal_inputMembers m _ _)
  | enums =>
    refine allLegal_module (EnumBinding.all m) (allLegal_allowed camelCase) rfl ?_
    intro e he
    obtain ⟨t, -, he⟩ := List.mem_filterMap.mp he
    obtain ⟨u, -, rfl⟩ := Option.map_eq_some_iff.mp he
    exact allLegal_enumItems (legal_typeName _) (legal_variants u)
  | queries => exact allLegal_operations m style .query
  | mutations => exact allLegal_operations m style .mutation

/-- Whatever the schema is, no maker of identifiers panics on a name of the generated code. -/
theorem names_make_identifiers {τ : Type} {makers : IdentifierMakers τ}
    (rejects : makers.RejectOnly) (m : SchemaModel) (style : SelectionStyle) (c : ClientModule) :
    ∀ n ∈ (c.code m style).identifiers, Legal n ∧ (makers.make n).isSome = true := by
  intro n hn
  have legal : Legal n := allLegal_code m style c n hn
  exact ⟨legal, legal.isSome_make rejects⟩

/-- A reserved name and a keyword. -/
def strangeModel : SchemaModel :=
  .of [⟨"self", [.of "type" "ID"]⟩] [] [] [] []

/-- Makers that reject all that they may. -/
def strictMakers : IdentifierMakers String where
  plain n := if isIdentifier n then some n else none
  raw n := if isIdentifier n && n ≠ "_" && !reservedNames.contains n then some ("r#" ++ n) else none

theorem strictMakers_rejectOnly : strictMakers.RejectOnly := by
  constructor
  · intro n h
    simpa [strictMakers] using h
  · intro n h
    have left : isIdentifier n = true → n ≠ "_" → n ∈ reservedNames := by
      simpa [strictMakers] using h
    by_cases foreign : isIdentifier n = false
    · exact .inl foreign
    · by_cases underscore : n = "_"
      · exact .inr (.inl underscore)
      · exact .inr (.inr (left (by simpa using foreign) underscore))

theorem names_make_identifiers_strange :
    (Legal "self_" ∧ (strictMakers.make "self_").isSome = true) ∧
      Legal "type" ∧ (strictMakers.make "type").isSome = true := by
  have made := names_make_identifiers strictMakers_rejectOnly strangeModel .inline .types
  exact ⟨made "self_" (by decide +kernel), made "type" (by decide +kernel)⟩

end Modules

end SchemaClient
