import SchemaClient.Proofs.Bindings.Declarations
import SchemaClient.Proofs.Code.Paths

/-!
# References between generated modules

The modules of a client refer to each other only in the types of members, parameters and responses,
and only to enums, structs of object types and structs of input types. Each of these is declared
where the reference looks for it.
-/

namespace SchemaClient

open Code

/-! ## Where references stand -/

@[simp]
theorem Lib.isSibling_path (segments : List String) : (Lib.path segments).isSibling = false :=
  rfl

@[simp]
theorem Lib.isSibling :
    Lib.option.isSibling = false ∧ Lib.optionSome.isSibling = false ∧
      Lib.optionNone.isSibling = false ∧ Lib.vec.isSibling = false ∧
      Lib.box.isSibling = false ∧ Lib.string.isSibling = false ∧ Lib.json.isSibling = false ∧
      Lib.jsonMap.isSibling = false := by
  decide

variable {S : Path → Prop}

@[simp]
theorem within_variableMap : Within S Lib.variableMap.paths := by
  simp [Lib.variableMap]

@[simp]
theorem within_staticStr : Within S Lib.staticStr.paths := by
  simp [Lib.staticStr]

namespace FieldType

/-- The generated item that a type refers to. -/
def targets : FieldType → List Path
  | .scalar _ | .json => []
  | .enum name => [siblingPath "enums" name]
  | .object name => [siblingPath "types" name]
  | .input name => [siblingPath "inputs" name]
  | .list t | .optional t | .boxed t => t.targets

variable {m : SchemaModel}

@[simp]
theorem within_code {t : FieldType} : Within S t.code.paths ↔ Within S t.targets := by
  induction t with
  | scalar kind => cases kind <;> simp [code, targets, scalarPath]
  | enum name => exact Iff.rfl
  | object name => exact Iff.rfl
  | input name => exact Iff.rfl
  | json => simp [code, targets]
  | list t ih => simpa [code, targets] using ih
  | optional t ih => simpa [code, targets] using ih
  | boxed t ih => simpa [code, targets] using ih

@[simp]
theorem within_codeAt {position : Position} {t : FieldType} :
    Within S (t.codeAt position).paths ↔ Within S t.targets := by
  unfold codeAt
  split
  · simp [targets]
  · exact within_code

theorem targets_optionalIf (nullable : Bool) (t : FieldType) :
    (optionalIf nullable t).targets = t.targets := by
  cases nullable <;> rfl

/-- Lists, options and boxes leave a reference as it is. -/
@[simp]
theorem targets_of (m : SchemaModel) (position : Position) (t : TypeRef) :
    (FieldType.of m position t).targets = (element (m.classOf t.base) t.base).targets := by
  unfold FieldType.of
  dsimp only
  split
  · exact targets_optionalIf ..
  · split
    · rfl
    · exact targets_optionalIf ..
    · exact targets_optionalIf ..

end FieldType

section Statements

@[simp]
theorem within_apply {c : Conversion} {isList : Bool} {value : Expr} :
    Within S (exprPaths (c.apply isList value)) ↔ Within S (exprPaths value) := by
  cases c <;> cases isList <;>
    simp [Conversion.apply, Conversion.single, Conversion.jsonCall, exprsPaths]

@[simp]
theorem within_ownField {name : String} : Within S (exprPaths (ownField name)) := by
  simp [ownField]

@[simp]
theorem within_valuePath : Within S (exprPaths valuePath) := by
  simp [valuePath]

@[simp]
theorem within_insertVariable {wire : String} {value : Expr} :
    Within S (statementPaths (insertVariable wire value)) ↔ Within S (exprPaths value) := by
  simp [insertVariable, stringOf, exprsPaths]

theorem within_variablesBody {inserts : List Statement}
    (h : ∀ s ∈ inserts, Within S (statementPaths s)) :
    Within S (statementsPaths (variablesBody inserts)) := by
  rw [within_statements, variablesBody]
  split
  · simp [exprsPaths]
  · rw [List.forall_mem_cons, List.forall_mem_append]
    exact ⟨by simp [exprsPaths], h, by simp⟩

theorem within_renamedIfOther (wire name : String) :
    ∀ a ∈ renamedIfOther wire name, Within S a.paths := by
  rw [renamedIfOther]
  split <;> simp [renamed]

end Statements

section Items

theorem within_objectItems {s : ObjectStruct} (h : ∀ f ∈ s.members, Within S f.type.targets) :
    Within S (s.items.flatMap Item.paths) := by
  have members : ∀ f ∈ s.members, Within S (ObjectStruct.member f).paths := by
    intro f hf
    rw [Member.paths, within_append, within_flatMap]
    exact ⟨within_renamedIfOther _ _, FieldType.within_codeAt.mpr (h f hf)⟩
  have constants : ∀ f ∈ s.members,
      Within S (AssociatedItem.constant (ObjectStruct.constant f)).paths := by
    simp [ObjectStruct.constant, AssociatedItem.paths, Constant.paths]
  rw [ObjectStruct.items]
  split
  · simpa [Item.paths, derives] using members
  · simpa [Item.paths, derives] using ⟨members, constants⟩

theorem within_inputItems {s : InputStruct} (h : ∀ f ∈ s.members, Within S f.type.targets) :
    Within S (s.items.flatMap Item.paths) := by
  have members : ∀ f ∈ s.members, Within S (InputStruct.member f).paths := by
    intro f hf
    have optional : ∀ a ∈ (if f.nullable then
        [Attribute.list "serde"
          [.value "skip_serializing_if" "::std::option::Option::is_none"] false]
        else []), Within S a.paths := by
      split <;> simp
    have type : Within S (f.type.codeAt .inputField).paths := FieldType.within_codeAt.mpr (h f hf)
    rw [Member.paths, within_append, within_flatMap]
    exact ⟨List.forall_mem_append.mpr ⟨within_renamedIfOther _ _, optional⟩, type⟩
  have inserts : ∀ i ∈ s.members.map InputStruct.insert, Within S (statementPaths i) := by
    rw [List.forall_mem_map]
    intro f _
    rw [InputStruct.insert]
    split <;> simp [statementsPaths, Pattern.paths]
  have toVariables : Within S s.toVariables.paths := by
    simpa [InputStruct.toVariables, AssociatedItem.paths, Function.paths, Parameter.paths] using
      within_variablesBody inserts
  cases default : s.hasDefault <;>
    simpa [InputStruct.items, Item.paths, derives, default, toVariables] using members

theorem within_variantsOf (isFirst : Bool) (variants : List (String × String)) :
    ∀ v ∈ EnumBinding.variantsOf isFirst variants, Within S v.paths := by
  induction variants generalizing isFirst with
  | nil => exact List.forall_mem_nil _
  | cons v rest ih =>
    refine List.forall_mem_cons.mpr ⟨?_, ih false⟩
    cases isFirst <;> simp [Variant.paths, renamed]

theorem within_allConstant (e : EnumBinding) : Within S e.allConstant.paths := by
  have values : ∀ v ∈ e.variants.map fun v => Expr.path (EnumBinding.ownPath v.2),
      Within S (exprPaths v) := by
    rw [List.forall_mem_map]
    simp [EnumBinding.ownPath]
  simpa [EnumBinding.allConstant, Constant.paths] using
    within_exprs.mpr values

theorem within_asStr (e : EnumBinding) : Within S e.asStr.paths := by
  have arms : ∀ a ∈ e.variants.map fun v =>
      Arm.plain (.path (EnumBinding.ownPath v.2)) (.literal v.1), Within S (armPaths a) := by
    rw [List.forall_mem_map]
    simp [armPaths, Pattern.paths, EnumBinding.ownPath]
  simpa [EnumBinding.asStr, Function.paths, Parameter.paths, statementsPaths] using
    within_arms.mpr arms

theorem within_display : Within S EnumBinding.display.paths := by
  simp [EnumBinding.display, Function.paths, Parameter.paths, statementsPaths, exprsPaths]

theorem within_fromStr (e : EnumBinding) : Within S e.fromStr.paths := by
  have arms : ∀ a ∈ e.variants.map fun v =>
      Arm.plain (.literal v.1) (.call EnumBinding.resultOk [.path (EnumBinding.ownPath v.2)] false),
      Within S (armPaths a) := by
    rw [List.forall_mem_map]
    simp [armPaths, exprsPaths, Pattern.paths, EnumBinding.ownPath, EnumBinding.resultOk]
  have other : Within S (armPaths (.plain (.path (.name "other")) (.call EnumBinding.resultErr
      [.format [.literal ("unknown " ++ e.source ++ " value: \x7b\x7d"), .path (.name "other")]]
      false))) := by
    simp [armPaths, exprsPaths, Pattern.paths, EnumBinding.resultErr]
  have body : Within S (armsPaths (e.variants.map (fun v =>
      Arm.plain (.literal v.1) (.call EnumBinding.resultOk [.path (EnumBinding.ownPath v.2)] false))
        ++ [.plain (.path (.name "other")) (.call EnumBinding.resultErr
      [.format [.literal ("unknown " ++ e.source ++ " value: \x7b\x7d"), .path (.name "other")]]
      false)])) :=
    within_arms.mpr (List.forall_mem_append.mpr ⟨arms, List.forall_mem_singleton.mpr other⟩)
  simpa [EnumBinding.fromStr, Function.paths, Parameter.paths, statementsPaths] using body

theorem within_enumItems (e : EnumBinding) : Within S (e.items.flatMap Item.paths) := by
  simp [EnumBinding.items, Item.paths, derives, AssociatedItem.paths, within_allConstant,
    within_asStr, within_display, within_fromStr]
  exact within_variantsOf true e.variants

section Operations

variable {s : OperationStruct} {a : ArgumentMember}

theorem within_new (h : ∀ a ∈ s.arguments, Within S a.type.targets) :
    Within S (OperationStruct.new s).paths := by
  have parameters : ∀ p ∈ (s.arguments.filter (!·.nullable)).map fun a =>
      Parameter.typed a.name (a.type.codeAt .argument), Within S p.paths := by
    rw [List.forall_mem_map]
    intro a ha
    exact FieldType.within_codeAt.mpr (h a (List.mem_filter.mp ha).1)
  have fields : Within S (exprPaths (.construct
      (s.arguments.map
          (fun a => (a.name, if a.nullable then some OperationStruct.noneValue else none))
        ++ if s.hasSelection then [("selection", some OperationStruct.noneValue)] else []))) := by
    intro p hp sibling
    obtain ⟨⟨name, value⟩, hmem, hvalue⟩ := List.mem_filterMap.mp hp
    have none : p = OperationStruct.noneValue := by
      rcases List.mem_append.mp hmem with hmem | hmem
      · obtain ⟨a, -, heq⟩ := List.mem_map.mp hmem
        cases heq
        dsimp only at hvalue
        split at hvalue
        · exact (Option.some.inj hvalue).symm
        · cases hvalue
      · split at hmem
        · rw [List.mem_singleton.mp hmem] at hvalue
          exact (Option.some.inj hvalue).symm
        · cases hmem
    rw [none] at sibling
    cases sibling
  have body : Within S (statementsPaths (OperationStruct.new s).body) := by
    simpa [OperationStruct.new, statementsPaths] using fields
  rw [Function.paths, within_append, within_append, within_flatMap]
  exact ⟨parameters, by simp [OperationStruct.new, OperationStruct.selfType], body⟩

theorem within_setter (h : Within S a.required.targets) :
    Within S (OperationStruct.setter a).paths := by
  simpa [OperationStruct.setter, OperationStruct.storeBody, OperationStruct.someOf,
    OperationStruct.selfPath, OperationStruct.selfType, Function.paths, Parameter.paths,
    statementsPaths, exprsPaths] using h

theorem within_selectionItems (op : Operation) :
    ∀ i ∈ OperationStruct.selectionItems op, Within S i.paths := by
  simp [OperationStruct.selectionItems, OperationStruct.selectionSetter, OperationStruct.storeBody,
    OperationStruct.someOf, OperationStruct.selfPath, OperationStruct.selfType,
    AssociatedItem.paths, Constant.paths, Function.paths, Parameter.paths, statementsPaths,
    exprsPaths]

theorem within_document (op : Operation) : Within S (OperationStruct.document op).paths := by
  simp [OperationStruct.document, OperationStruct.documentHead, OperationStruct.documentTail,
    OperationStruct.runtimePath, stringOf, Function.paths, Parameter.paths, statementsPaths,
    exprsPaths, armsPaths, armPaths, Pattern.paths]

theorem within_variablesFunction (s : OperationStruct) :
    Within S (OperationStruct.variablesFunction s).paths := by
  have inserts : ∀ i ∈ s.arguments.map
        fun a => insertVariable a.wire (OperationStruct.variableValue a),
      Within S (statementPaths i) := by
    rw [List.forall_mem_map]
    intro a _
    rw [within_insertVariable, OperationStruct.variableValue]
    split <;> simp [armsPaths, armPaths, Pattern.paths]
  simpa [OperationStruct.variablesFunction, Function.paths, Parameter.paths] using
    within_variablesBody inserts

theorem within_interface (result : Within S (FieldType.ofResult s.operation.result).targets) :
    ∀ i ∈ s.interface, Within S i.paths := by
  have kind : (OperationStruct.kindPath s.operation.kind).isSibling = false := by
    cases s.operation.kind <;> rfl
  rw [OperationStruct.interface]
  split
  · simpa [AssociatedItem.paths, Constant.paths, OperationStruct.runtimePath, kind, within_document,
      within_variablesFunction] using result
  · simpa [AssociatedItem.paths, Constant.paths, OperationStruct.runtimePath, kind,
      within_variablesFunction] using result

theorem within_operationItems
    (h : ∀ a ∈ s.arguments, Within S a.type.targets ∧ Within S a.required.targets)
    (result : Within S (FieldType.ofResult s.operation.result).targets) :
    Within S (s.items.flatMap Item.paths) := by
  have member : ∀ a ∈ s.arguments, Within S (OperationStruct.member a).paths := by
    intro a ha
    have type : Within S (a.type.codeAt .argument).paths := FieldType.within_codeAt.mpr (h a ha).1
    simpa [OperationStruct.member, Member.paths] using type
  have members : ∀ p ∈ s.arguments.map OperationStruct.member ++
      (if s.hasSelection then [OperationStruct.selectionMember] else []), Within S p.paths := by
    refine List.forall_mem_append.mpr ⟨List.forall_mem_map.mpr member, ?_⟩
    split <;> simp [OperationStruct.selectionMember, OperationStruct.optionalString, Member.paths]
  have setter : ∀ a ∈ s.arguments.filter (·.nullable),
      Within S (AssociatedItem.function [] (OperationStruct.setter a)).paths :=
    fun a ha => within_setter (h a (List.mem_filter.mp ha).1).2
  have own : ∀ i ∈ AssociatedItem.function [] (OperationStruct.new s) ::
      (s.arguments.filter (·.nullable)).map (fun a => .function [] (OperationStruct.setter a)) ++
      (if s.hasSelection then OperationStruct.selectionItems s.operation else []),
      Within S i.paths := by
    refine List.forall_mem_append.mpr ⟨List.forall_mem_cons.mpr
      ⟨within_new fun a ha => (h a ha).1, List.forall_mem_map.mpr setter⟩, ?_⟩
    split
    · exact within_selectionItems s.operation
    · exact List.forall_mem_nil _
  rw [within_flatMap, OperationStruct.items, List.forall_mem_cons, List.forall_mem_cons,
    List.forall_mem_singleton]
  refine ⟨?_, ?_, ?_⟩
  · simpa only [Item.paths, within_append, within_flatMap] using ⟨by simp [derives], members⟩
  · simpa only [Item.paths, within_append, within_flatMap] using ⟨within_nil, own⟩
  · simpa only [Item.paths, within_append, within_flatMap] using
      ⟨by simp [OperationStruct.runtimePath], within_interface result⟩

end Operations

end Items

/-! ## What references lead to -/

/-- A path into the module of enums, types or inputs, to an item that it declares. -/
def Declared (m : SchemaModel) (style : SelectionStyle) (p : Path) : Prop :=
  ∃ target ∈ [ClientModule.enums, .types, .inputs], ∃ name, p = siblingPath target.name name ∧
    ∃ item ∈ (target.code m style).items, item.declares = some name

section Closure

variable {m : SchemaModel} {base : String}

theorem declared_element (built : m.Built) (style : SelectionStyle) (base : String) :
    Within (Declared m style) (FieldType.element (m.classOf base) base).targets := by
  intro p hp _
  cases hclass : m.classOf base with
  | scalar kind =>
    rw [hclass] at hp
    cases hp
  | unknown =>
    rw [hclass] at hp
    cases hp
  | enum =>
    rw [hclass] at hp
    obtain rfl := List.mem_singleton.mp hp
    have name := definedNames_of_classOf built .enum hclass
    exact ⟨.enums, by decide, _, rfl, (emits_enums m style).exists_item name⟩
  | object =>
    rw [hclass] at hp
    obtain rfl := List.mem_singleton.mp hp
    have name := definedNames_of_classOf built .object hclass
    exact ⟨.types, by decide, _, rfl, (emits_types built style).exists_item name⟩
  | input =>
    rw [hclass] at hp
    obtain rfl := List.mem_singleton.mp hp
    have name := definedNames_of_classOf built .input hclass
    exact ⟨.inputs, by decide, _, rfl, (emits_inputs m style).exists_item name⟩

theorem declared_of (built : m.Built) (style : SelectionStyle) (position : Position) (t : TypeRef) :
    Within (Declared m style) (FieldType.of m position t).targets := by
  rw [FieldType.targets_of]
  exact declared_element built style t.base

/-- A response refers to what a member of its type would refer to, input types apart. -/
theorem declared_ofResult (built : m.Built) (style : SelectionStyle) (t : TypeRef) :
    Within (Declared m style) (FieldType.ofResult (.of m t)).targets := by
  have element := declared_element built style t.base
  have list : ∀ e : FieldType,
      (if (ResultType.of m t).isList then FieldType.list e else e).targets = e.targets := by
    intro e
    split <;> rfl
  rw [FieldType.ofResult, list, ResultType.of]
  cases hclass : m.classOf t.base with
  | scalar kind => exact within_nil
  | enum =>
    rw [hclass] at element
    exact element
  | object =>
    rw [hclass] at element
    exact element
  | input => exact within_nil
  | unknown => exact within_nil

theorem declared_operation (built : m.Built) (style : SelectionStyle) {kind : OperationKind}
    {s : OperationStruct} (hs : s ∈ OperationStruct.all m style kind) :
    Within (Declared m style) (s.items.flatMap Item.paths) := by
  obtain ⟨op, hop, name, -, rfl⟩ := exists_of_mem_zipWith hs
  refine within_operationItems (fun a ha => ?_) ?_
  · obtain ⟨plan, -, name, -, rfl⟩ := exists_of_mem_zipWith ha
    exact ⟨declared_of built style .argument plan.type, declared_of built style .argument _⟩
  · have operation : ∃ kind f, op = Operation.of m style kind f := by
      rcases List.mem_append.mp (List.mem_filter.mp hop).1 with hop | hop
      · obtain ⟨f, -, rfl⟩ := List.mem_map.mp hop
        exact ⟨.query, f, rfl⟩
      · obtain ⟨f, -, rfl⟩ := List.mem_map.mp hop
        exact ⟨.mutation, f, rfl⟩
    obtain ⟨kind, f, rfl⟩ := operation
    exact declared_ofResult built style f.returnType

theorem declared_module (built : m.Built) (style : SelectionStyle) (c : ClientModule) :
    Within (Declared m style) (c.code m style).paths := by
  have flat : ∀ {α : Type} {items : α → List Item} {xs : List α},
      (∀ x ∈ xs, Within (Declared m style) ((items x).flatMap Item.paths)) →
        Within (Declared m style) ((xs.flatMap items).flatMap Item.paths) := by
    intro α items xs h
    rw [List.flatMap_assoc, within_flatMap]
    exact h
  have allowance : Within (Declared m style) (allowed [camelCaseAllowed]).paths := by
    simp [allowed, camelCaseAllowed]
  have operations : ∀ kind,
      Within (Declared m style) (OperationStruct.module m style kind).paths := by
    intro kind
    have attributes : Within (Declared m style) (allowed [camelCaseAllowed,
        .relative ["clippy", "new_without_default"],
        .relative ["clippy", "too_many_arguments"]]).paths := by
      simp [allowed, camelCaseAllowed]
    exact within_append.mpr ⟨within_flatMap.mpr (List.forall_mem_singleton.mpr attributes),
      flat fun s hs => declared_operation built style hs⟩
  have attributes := within_flatMap.mpr (List.forall_mem_singleton.mpr allowance)
  cases c with
  | root => simp [ClientModule.code, ClientModule.rootModule, Module.paths, Item.paths]
  | types =>
    refine within_append.mpr ⟨attributes, flat fun s hs => within_objectItems fun f hf => ?_⟩
    obtain ⟨t, -, rfl⟩ := List.mem_map.mp hs
    obtain ⟨field, -, names, -, rfl⟩ := exists_of_mem_zipWith hf
    exact declared_of built style .objectField field.type
  | inputs =>
    refine within_append.mpr ⟨attributes, flat fun s hs => within_inputItems fun f hf => ?_⟩
    obtain ⟨t, -, hs⟩ := List.mem_filterMap.mp hs
    obtain ⟨t, -, rfl⟩ := Option.map_eq_some_iff.mp hs
    obtain ⟨field, -, name, -, rfl⟩ := exists_of_mem_zipWith hf
    exact declared_of built style .inputField field.type
  | enums => exact within_append.mpr ⟨attributes, flat fun e _ => within_enumItems e⟩
  | queries => exact operations .query
  | mutations => exact operations .mutation

/-- Every path from one generated module into another leads to an item that is declared there. The
modules of types, inputs and enums declare one item for each name that the schema defines, made of
the last definition of that name, which is the one that lookups by name return. -/
theorem modules_closed_under_references (built : m.Built) (style : SelectionStyle) :
    (∀ c : ClientModule, ∀ p ∈ (c.code m style).paths, p.isSibling = true → Declared m style p) ∧
    Emits (ClientModule.types.code m style) (m.definedNames .object) m.objectType?
      (fun t => .of m t.name t.fields) ObjectStruct.source ObjectStruct.items (ObjectStruct.all m) ∧
    (∀ n, m.fieldsOf? n = (m.objectType? n).map (·.fields)) ∧
    Emits (ClientModule.inputs.code m style) (m.definedNames .input) m.inputType?
      (fun t => .of m t.name t.fields) InputStruct.source InputStruct.items (InputStruct.all m) ∧
    Emits (ClientModule.enums.code m style) (m.definedNames .enum) m.enumType?
      EnumBinding.of EnumBinding.source EnumBinding.items (EnumBinding.all m) :=
  ⟨declared_module built style, emits_types built style, built.fieldsOf?, emits_inputs m style,
    emits_enums m style⟩

/-- `User` is defined twice, `Filter` both as an object type and as an input type. -/
def collidingModel : SchemaModel :=
  .of [⟨"User", [.of "id" "ID"]⟩, ⟨"Filter", []⟩, ⟨"User", [.of "filter" "[Filter]"]⟩]
    [⟨"Filter", [.of "text" "String"]⟩] []
    [⟨"user", [.of "by" "Filter!"], .parse "User"⟩] []

theorem modules_closed_under_references_colliding :
    (∀ p ∈ [siblingPath "types" "User", siblingPath "inputs" "Filter"],
      p ∈ (ClientModule.queries.code collidingModel .inline).paths ∧
        Declared collidingModel .inline p) ∧
    collidingModel.fieldsOf? "User" = some [.of "filter" "[Filter]"] := by
  have built : collidingModel.Built := .of _ _ _ _ _
  obtain ⟨closed, -, fields, -⟩ := modules_closed_under_references built .inline
  refine ⟨fun p hp => ?_, fields "User"⟩
  have occurs : p ∈ (ClientModule.queries.code collidingModel .inline).paths := by
    revert p
    decide +kernel
  have sibling : p.isSibling = true := by
    revert p
    decide
  exact ⟨occurs, closed .queries p occurs sibling⟩

end Closure

end SchemaClient
