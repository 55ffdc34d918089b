import Mathlib.Data.List.Forall2
import SchemaClient.Proofs.Bindings.Conversions
import SchemaClient.Proofs.Bindings.Methods
import SchemaClient.Proofs.Operation.BoundVariables

/-!
# Members and the variables made of them

What a struct stores and how it turns this into variables comes from different places of the
generator. They agree on every member: an option is one where the reference admits null, it is
converted as its type demands, and the keys are those that the document binds. The functions that
create a struct, set its members and make the variables are given in full.
-/

namespace SchemaClient

open Code

/-! ## Reading generated code -/

namespace Code

/-- An attribute leaves the member out where a function says so. -/
def Member.Skips (a : Member) (function : String) : Prop :=
  ∃ entries trailing, .list "serde" entries trailing ∈ a.attributes ∧
    .value "skip_serializing_if" function ∈ entries

/-- `variables.insert(String::from("key"), value)`. -/
def exprInsertions : Expr → List (String × Expr)
  | .method (.path map) name [.call function [.literal key] _, value] =>
    if map = .name "variables" ∧ name = "insert" ∧
        function = Lib.path ["string", "String", "from"] then [(key, value)]
    else []
  | _ => []

mutual

/-- The keys that a statement puts into the map of variables, with the values. -/
def insertions : Statement → List (String × Expr)
  | .effect e => exprInsertions e
  | .whenMatches _ _ body => insertionsAll body
  | .declare _ _ | .result _ => []

def insertionsAll : List Statement → List (String × Expr)
  | [] => []
  | s :: rest => insertions s ++ insertionsAll rest

end

def Statement.isConditional : Statement → Bool
  | .whenMatches _ _ _ => true
  | _ => false

/-- The keys that the functions put into maps of variables. -/
def insertedKeys (items : List Item) : List String :=
  (methods items).flatMap fun g => (insertionsAll g.function.body).map Prod.fst

end Code

/-! ## What is to agree -/

/-- `self.name`. -/
def ownMember (name : String) : Expr :=
  .field (.path (.name "self")) name

/-- A match on an option that gives null where there is no value. -/
def nullGuard (name : String) (present : Expr) : Expr :=
  .cases (.borrow (ownMember name))
    [.plain (.tuple Lib.optionSome "value") present,
      .plain (.path Lib.optionNone) (.path (.root ["serde_json", "Value", "Null"]))]

/-- `variables.insert(String::from("key"), value);`. -/
def putting (key : String) (value : Expr) : Statement :=
  .effect (.method (.path (.name "variables")) "insert"
    [.call (Lib.path ["string", "String", "from"]) [.literal key] false, value])

/-- Takes `self` and returns a new map, which the statements have filled if there are any. -/
def fillingFunction (visible : Bool) (name : String) (statements : List Statement) : Function where
  visible := visible
  name := name
  parameters := [.borrowedSelf]
  result := .apply2 Lib.jsonMap (.path Lib.string) (.path Lib.json)
  body :=
    let map : Expr := .call (.root ["serde_json", "Map", "new"]) [] false
    match statements with
    | [] => [.result map]
    | _ :: _ => .declare "variables" map :: (statements ++ [.result (.path (.name "variables"))])

/-- Takes the members that are no options and leaves the others empty. -/
def creatingFunction (members : List Member) : Function where
  visible := true
  name := "new"
  parameters := (members.filter (!·.type.content?.isSome)).map fun a => .typed a.name a.type
  result := .path (.name "Self")
  body := [.result (.construct (members.map fun a =>
    (a.name, if a.type.content?.isSome then some Lib.optionNone else none)))]

/-- Takes a value that is present, stores it in a member and returns the struct. -/
def settingFunction (member : Member) : Function where
  visible := true
  name := "with_" ++ member.name
  parameters := [.mutableSelf, .typed "value" member.type.present]
  result := .path (.name "Self")
  body := [.effect (.assign (ownMember member.name)
      (.call Lib.optionSome [.path (.name "value")] false)),
    .result (.path (.name "self"))]

/-- The member and the statement of an input's field. -/
structure InputAgrees (f : Field) (member : Member) (statement : Statement) : Prop where
  optional : member.type.IsOption ↔ f.type.nullable = true
  skipped : ∀ function, member.Skips function ↔
    f.type.nullable = true ∧ function = "::std::option::Option::is_none"
  conditional : statement.isConditional = true ↔ f.type.nullable = true
  matched : f.type.nullable = true → ∃ value, statement =
      .whenMatches (.tuple Lib.optionSome "value") (.borrow (ownMember member.name))
        [putting f.name value] ∧
    Converts member.type (.path (.name "value")) value
  inserted : f.type.nullable = false → ∃ value, statement = putting f.name value ∧
    Converts member.type (ownMember member.name) value

/-- The value of an operation's argument among the variables. -/
structure ValueAgrees (m : SchemaModel) (f : Field) (member : Member) (value : Expr) : Prop where
  guarded : (∃ e arms, value = .cases e arms) ↔
    f.type.nullable = true ∧ (m.classOf f.type.base = .enum ∨ m.classOf f.type.base = .input)
  plain : (¬ ∃ e arms, value = .cases e arms) →
    Converts member.type (ownMember member.name) value
  present : ∀ e arms, value = .cases e arms → ∃ inner, value = nullGuard member.name inner ∧
    Converts member.type (.path (.name "value")) inner

/-- The member and the statement of an operation's argument, and the functions that set it. -/
structure ArgumentAgrees (m : SchemaModel) (items : List Item) (type : String) (f : Field)
    (member : Member) (statement : Statement) : Prop where
  optional : member.type.IsOption ↔ f.type.nullable = true
  parameter : ∀ u, (∃ g ∈ methods items, g.function.name = "new" ∧
      .typed member.name u ∈ g.function.parameters) ↔ f.type.nullable = false ∧ u = member.type
  setter : f.type.nullable = true → OnlyMethod items ⟨none, type, settingFunction member⟩
  unset : f.type.nullable = false →
    ∀ g ∈ methods items, g.function.name ≠ "with_" ++ member.name
  inserted : ∃ value, statement = putting f.name value ∧ ValueAgrees m f member value

/-! ## Inputs -/

section Inputs

variable {m : SchemaModel} {f : Field} {name key : String} {value : Expr}

theorem skips_member {a : InputMember} {function : String} : (InputStruct.member a).Skips function ↔
    a.nullable = true ∧ function = "::std::option::Option::is_none" := by
  unfold Member.Skips InputStruct.member renamedIfOther
  cases a.nullable <;> split <;> simp [renamed]

/-- The member of a field of an input type. -/
def inputMember (m : SchemaModel) (f : Field) (name : String) : InputMember :=
  ⟨f.name, name, f.type.nullable, f.type.isList, .of m .inputField f.type,
    .ofClass (m.classOf f.type.base)⟩

theorem members_of (m : SchemaModel) (source : String) (fields : List Field) :
    (InputStruct.of m source fields).members =
      List.zipWith (inputMember m) (distinctBy Field.name fields)
        (Names.claimAll [] ((distinctBy Field.name fields).map (Names.fieldName ·.name))) :=
  rfl

theorem inputAgrees (m : SchemaModel) (f : Field) (name : String) :
    InputAgrees f (InputStruct.member (inputMember m f name))
      (InputStruct.insert (inputMember m f name)) := by
  have position : Position.inputField ≠ .objectField := by decide
  have option := isOption_iff (m := m) (t := f.type) position
  have skips (function : String) :
      (InputStruct.member (inputMember m f name)).Skips function ↔
        f.type.nullable = true ∧ function = "::std::option::Option::is_none" :=
    skips_member
  have value {place : Expr} (h : exprMethods place = []) := converts position m f.type h
  cases nullable : f.type.nullable with
  | true =>
    have hinsert : InputStruct.insert (inputMember m f name) =
        .whenMatches (.tuple Lib.optionSome "value") (.borrow (ownField name))
          [insertVariable f.name
            ((Conversion.ofClass (m.classOf f.type.base)).apply f.type.isList valuePath)] :=
      if_pos nullable
    refine ⟨option, skips, ?_, fun _ => ⟨_, hinsert, value rfl⟩, fun h => ?_⟩
    · rw [hinsert]
      exact iff_of_true rfl nullable
    · rw [nullable] at h
      cases h
  | false =>
    have required : ¬ f.type.nullable = true := by
      rw [nullable]
      exact Bool.false_ne_true
    have hinsert : InputStruct.insert (inputMember m f name) = insertVariable f.name
        ((Conversion.ofClass (m.classOf f.type.base)).apply f.type.isList (ownField name)) :=
      if_neg required
    refine ⟨option, skips, ?_, fun h => absurd h required, fun _ => ⟨_, hinsert, value rfl⟩⟩
    rw [hinsert]
    exact iff_of_false Bool.false_ne_true required

theorem publicMembers_inputItems (s : InputStruct) :
    publicMembers s.items = s.members.map InputStruct.member := by
  have all : members s.items = s.members.map InputStruct.member := List.append_nil _
  rw [publicMembers, all, List.filter_eq_self, List.forall_mem_map]
  exact fun _ _ => rfl

end Inputs

/-! ## Functions -/

section Functions

variable {s : OperationStruct} {a : ArgumentMember} {type : CodeType}

theorem fillingFunction_eq (visible : Bool) (name : String) (statements : List Statement) :
    fillingFunction visible name statements =
      ⟨visible, name, [.borrowedSelf], Lib.variableMap, variablesBody statements⟩ := by
  cases statements <;> rfl

theorem onlyMethod_inputItems (s : InputStruct) : OnlyMethod s.items
    ⟨none, s.name, fillingFunction true "to_variables" (s.members.map InputStruct.insert)⟩ := by
  rw [fillingFunction_eq]
  exact onlyMethod_of_mem (List.nodup_singleton _) (List.mem_singleton_self _)

theorem publicMembers_operationItems (s : OperationStruct) :
    publicMembers s.items = s.arguments.map OperationStruct.member := by
  have all : (s.arguments.map OperationStruct.member).filter (·.visible) =
      s.arguments.map OperationStruct.member := by
    refine List.filter_eq_self.mpr ?_
    rw [List.forall_mem_map]
    exact fun _ _ => rfl
  have selection : (if s.hasSelection then [OperationStruct.selectionMember] else []).filter
      (·.visible) = [] := by
    split <;> rfl
  rw [publicMembers, members_operationItems, List.filter_append, all, selection, List.append_nil]

/-- The member for a selection is an option like those of optional arguments. -/
theorem new_eq (options : ∀ a ∈ s.arguments,
    (OperationStruct.member a).type.content?.isSome = a.nullable) :
    s.new = creatingFunction (members s.items) := by
  have parameters : (members s.items).filter (!·.type.content?.isSome) =
      (s.arguments.filter (!·.nullable)).map OperationStruct.member := by
    have selection : (if s.hasSelection then [OperationStruct.selectionMember] else []).filter
        (!·.type.content?.isSome) = [] := by
      split <;> rfl
    rw [members_operationItems, List.filter_append, selection, List.append_nil, List.filter_map]
    congr 1
    exact List.filter_congr fun a ha => congrArg (!·) (options a ha)
  have fields : (members s.items).map (fun a =>
      (a.name, if a.type.content?.isSome then some Lib.optionNone else none)) =
      s.arguments.map (fun a => (a.name, if a.nullable then some OperationStruct.noneValue
        else none)) ++ if s.hasSelection then [("selection", some OperationStruct.noneValue)]
          else [] := by
    rw [members_operationItems, List.map_append, List.map_map]
    congr 1
    · refine List.map_congr_left fun a ha => ?_
      rw [Function.comp_apply, options a ha]
      rfl
    · split <;> rfl
  rw [creatingFunction, parameters, fields, List.map_map]
  rfl

/-- Only `new` takes a value by the name of a member. -/
theorem exists_parameter_iff (distinct : (s.arguments.map ArgumentMember.name).Nodup)
    (only : OnlyMethod s.items ⟨none, s.name, s.new⟩) (ha : a ∈ s.arguments) :
    (∃ g ∈ methods s.items, g.function.name = "new" ∧
      .typed a.name type ∈ g.function.parameters) ↔
        a.nullable = false ∧ type = a.type.codeAt .argument := by
  constructor
  · rintro ⟨g, hg, hname, hparameter⟩
    obtain rfl := only.2 g hg hname
    obtain ⟨b, hb, heq⟩ := List.mem_map.mp hparameter
    obtain ⟨hb, required⟩ := List.mem_filter.mp hb
    injection heq with sameName sameType
    obtain rfl := List.inj_on_of_nodup_map distinct hb ha sameName
    exact ⟨by simpa using required, sameType.symm⟩
  · rintro ⟨required, rfl⟩
    exact ⟨_, only.1, rfl, List.mem_map.mpr
      ⟨a, List.mem_filter.mpr ⟨ha, by simp [required]⟩, rfl⟩⟩

end Functions

/-! ## Arguments -/

section Arguments

variable {m : SchemaModel} {f : Field}

theorem ofStrategy_plan (m : SchemaModel) (f : Field) :
    Conversion.ofStrategy (VariablePlan.of m f).strategy =
      .ofClass (m.classOf f.type.base) := by
  unfold VariablePlan.of
  cases m.classOf f.type.base <;> rfl

theorem nullGuarded_plan : (VariablePlan.of m f).nullGuarded = true ↔
    f.type.nullable = true ∧ (m.classOf f.type.base = .enum ∨ m.classOf f.type.base = .input) := by
  unfold VariablePlan.nullGuarded VariablePlan.of
  cases m.classOf f.type.base <;> simp

theorem apply_ne_cases (c : Conversion) (isList : Bool) (place : Expr) :
    ¬ ∃ e arms, c.apply isList place = .cases e arms := by
  rintro ⟨e, arms, h⟩
  cases c <;> cases isList <;> cases h

theorem valueAgrees (m : SchemaModel) (f : Field) (name : String) :
    ValueAgrees m f (OperationStruct.member (OperationStruct.argument m (.of m f) name))
      (OperationStruct.variableValue (OperationStruct.argument m (.of m f) name)) := by
  have argument : Position.argument ≠ .objectField := by decide
  have value {place : Expr} (h : exprMethods place = []) := converts argument m f.type h
  rw [← ofStrategy_plan] at value
  unfold OperationStruct.variableValue
  cases guarded : (VariablePlan.of m f).nullGuarded with
  | true =>
    rw [if_pos (show (OperationStruct.argument m (.of m f) name).nullGuarded = true from guarded)]
    refine ⟨iff_of_true ⟨_, _, rfl⟩ (nullGuarded_plan.mp guarded), fun h => absurd ⟨_, _, rfl⟩ h,
      fun _ _ _ => ⟨_, rfl, value rfl⟩⟩
  | false =>
    have unguarded : ¬ (VariablePlan.of m f).nullGuarded = true := by
      rw [guarded]
      exact Bool.false_ne_true
    rw [if_neg (show ¬ (OperationStruct.argument m (.of m f) name).nullGuarded = true
      from unguarded)]
    have bare := apply_ne_cases (Conversion.ofStrategy (VariablePlan.of m f).strategy)
      f.type.isList (ownField name)
    refine ⟨iff_of_false bare fun h => unguarded (nullGuarded_plan.mpr h), fun _ => value rfl,
      fun e arms h => absurd ⟨e, arms, h⟩ bare⟩

end Arguments

/-! ## Emitted code -/

section Emitted

variable {m : SchemaModel} {style : SelectionStyle} {kind : OperationKind} {f : OperationField}
  {name : String}

theorem insertionsAll_append (before after : List Statement) :
    insertionsAll (before ++ after) = insertionsAll before ++ insertionsAll after := by
  induction before with
  | nil => rfl
  | cons s before ih => rw [List.cons_append, insertionsAll, ih, insertionsAll, List.append_assoc]

/-- What is put into the map is what the statements put there. -/
theorem insertionsAll_variablesBody (statements : List Statement) :
    insertionsAll (variablesBody statements) = insertionsAll statements := by
  unfold variablesBody
  split
  · rename_i none
    rw [List.isEmpty_iff.mp none]
    rfl
  · rw [insertionsAll, insertionsAll_append]
    exact List.append_nil _

theorem insertedKeys_inputItems (s : InputStruct) : insertedKeys s.items =
    (insertionsAll (s.members.map InputStruct.insert)).map Prod.fst := by
  rw [← insertionsAll_variablesBody]
  exact List.append_nil _

theorem insertedKeys_operationItems (s : OperationStruct) : insertedKeys s.items =
    (insertionsAll (s.arguments.map fun a =>
      insertVariable a.wire (OperationStruct.variableValue a))).map Prod.fst := by
  have own : (s.new :: (s.arguments.filter (·.nullable)).map OperationStruct.setter ++
      if s.hasSelection then [OperationStruct.selectionSetter] else []).flatMap
        (fun g => (insertionsAll g.body).map Prod.fst) = [] := by
    rw [List.flatMap_eq_nil_iff, List.cons_append, List.forall_mem_cons, List.forall_mem_append,
      List.forall_mem_map]
    refine ⟨rfl, fun _ _ => rfl, ?_⟩
    split
    · exact List.forall_mem_singleton.mpr rfl
    · exact List.forall_mem_nil _
  have document : (if s.hasSelection then [OperationStruct.document s.operation] else []).flatMap
      (fun g => (insertionsAll g.body).map Prod.fst) = [] := by
    split <;> rfl
  rw [insertedKeys, methods_operationItems, List.flatMap_append, List.flatMap_map,
    List.flatMap_map, own, List.flatMap_append, document, List.flatMap_singleton]
  exact congrArg (List.map Prod.fst) (insertionsAll_variablesBody _)

theorem keys_of_rows {kept : List Field} {rows : List (Member × Statement)}
    (h : List.Forall₂ (fun f row => ∃ value, insertions row.2 = [(f.name, value)]) kept rows) :
    (insertionsAll (rows.map Prod.snd)).map Prod.fst = kept.map Field.name := by
  induction h with
  | nil => rfl
  | cons inserted _ ih =>
    obtain ⟨value, inserted⟩ := inserted
    rw [List.map_cons, insertionsAll, inserted, List.map_append, ih]
    rfl

theorem InputAgrees.insertions {field : Field} {member : Member} {statement : Statement}
    (h : InputAgrees field member statement) :
    ∃ value, Code.insertions statement = [(field.name, value)] := by
  cases nullable : field.type.nullable with
  | true =>
    obtain ⟨value, rfl, -⟩ := h.matched nullable
    exact ⟨value, rfl⟩
  | false =>
    obtain ⟨value, rfl, -⟩ := h.inserted nullable
    exact ⟨value, rfl⟩

theorem exists_inputRows (m : SchemaModel) (source : String) (fields : List Field) :
    let items := (InputStruct.of m source fields).items
    ∃ rows : List (Member × Statement),
      publicMembers items = rows.map Prod.fst ∧
      OnlyMethod items ⟨none, Names.typeName source,
        fillingFunction true "to_variables" (rows.map Prod.snd)⟩ ∧
      insertedKeys items = (insertionsAll (rows.map Prod.snd)).map Prod.fst ∧
      List.Forall₂ (fun f row => InputAgrees f row.1 row.2)
        (distinctBy Field.name fields) rows := by
  refine ⟨(InputStruct.of m source fields).members.map fun a =>
    (InputStruct.member a, InputStruct.insert a), ?_, ?_, ?_, ?_⟩
  · rw [publicMembers_inputItems, List.map_map]
    rfl
  · rw [List.map_map]
    exact onlyMethod_inputItems _
  · rw [List.map_map]
    exact insertedKeys_inputItems _
  · rw [List.forall₂_map_right_iff, members_of]
    exact forall₂_zipWith (length_claimAll_map ..).symm fun f name _ => inputAgrees m f name

theorem arguments_of (m : SchemaModel) (style : SelectionStyle) (kind : OperationKind)
    (f : OperationField) (name : String) :
    (OperationStruct.of m (.of m style kind f) name).arguments =
      List.zipWith (fun a => OperationStruct.argument m (.of m a)) (distinctBy Field.name f.args)
        (Names.claimAll ["selection"]
          ((distinctBy Field.name f.args).map (Names.fieldName ·.name))) := by
  have plans : distinctBy VariablePlan.name (f.args.map (VariablePlan.of m)) =
      (distinctBy Field.name f.args).map (VariablePlan.of m) := distinctBy_map ..
  change List.zipWith _ (distinctBy VariablePlan.name (f.args.map (VariablePlan.of m)))
    (Names.claimAll _ ((distinctBy VariablePlan.name (f.args.map (VariablePlan.of m))).map _)) = _
  rw [plans, List.map_map, List.zipWith_map_left]
  rfl

theorem exists_argumentRows (m : SchemaModel) (style : SelectionStyle) (kind : OperationKind)
    (f : OperationField) (name : String) :
    let items := (OperationStruct.of m (.of m style kind f) name).items
    ∃ rows : List (Member × Statement),
      publicMembers items = rows.map Prod.fst ∧
      OnlyMethod items ⟨none, name, creatingFunction (members items)⟩ ∧
      OnlyMethod items ⟨some operationTrait, name,
        fillingFunction false "variables" (rows.map Prod.snd)⟩ ∧
      insertedKeys items = (insertionsAll (rows.map Prod.snd)).map Prod.fst ∧
      List.Forall₂ (fun a row => ArgumentAgrees m items name a row.1 row.2)
        (distinctBy Field.name f.args) rows := by
  intro items
  let s := OperationStruct.of m (.of m style kind f) name
  have position : Position.argument ≠ .objectField := by decide
  have distinct : (s.arguments.map ArgumentMember.name).Nodup := by
    rw [names_arguments]
    exact Names.claimAll_nodup _ _
  have free : "selection" ∉ s.arguments.map ArgumentMember.name := by
    rw [names_arguments]
    exact fun h => Names.claimAll_not_mem h List.mem_cons_self
  have only {g : Method} (h : g ∈ methods s.items) : OnlyMethod s.items g :=
    onlyMethod_of_mem (nodup_names_methods distinct free) h
  have options : ∀ a ∈ s.arguments,
      (OperationStruct.member a).type.content?.isSome = a.nullable := by
    intro a ha
    rw [arguments_of] at ha
    obtain ⟨field, -, member, -, rfl⟩ := exists_of_mem_zipWith ha
    exact Bool.eq_iff_iff.mpr (isOption_iff position)
  have new : OnlyMethod s.items ⟨none, s.name, s.new⟩ := only (mem_methods.mpr (.inl rfl))
  refine ⟨s.arguments.map fun a =>
    (OperationStruct.member a, insertVariable a.wire (OperationStruct.variableValue a)),
    ?_, ?_, ?_, ?_, ?_⟩
  · rw [publicMembers_operationItems, List.map_map]
    rfl
  · exact new_eq options ▸ new
  · rw [List.map_map, fillingFunction_eq]
    exact only (mem_methods.mpr (.inr (.inr (.inr rfl))))
  · rw [List.map_map]
    exact insertedKeys_operationItems s
  · rw [List.forall₂_map_right_iff, arguments_of]
    refine forall₂_zipWith (length_claimAll_map ..).symm fun a member hmem => ?_
    rw [← arguments_of m style kind f name] at hmem
    refine ⟨isOption_iff position, fun u => exists_parameter_iff distinct new hmem,
      fun nullable => ?_,
      fun required g hg => ne_setter_of_required distinct free hmem required hg,
      _, rfl, valueAgrees m a member⟩
    have setter : settingFunction (OperationStruct.member
        (OperationStruct.argument m (.of m a) member)) =
        OperationStruct.setter (OperationStruct.argument m (.of m a) member) := by
      have present :
          (OperationStruct.member (OperationStruct.argument m (.of m a) member)).type.present =
            (OperationStruct.argument m (.of m a) member).required.codeAt .argument :=
        present_codeAt position
      rw [settingFunction, present]
      rfl
    rw [setter]
    exact only (mem_methods.mpr (.inr (.inl ⟨_, hmem, nullable, rfl⟩)))

/-- For each field of an input type and each argument of an operation, of several with one name the
first, the emitted members and the emitted statements agree. The statements are those of the one
function that makes the variables, `to_variables` of an input and `variables` of an operation. The
keys of the variables are the names in their order, and an operation's document binds them. Where
all names are words, they can be read off the document. -/
theorem members_agree_with_variables (m : SchemaModel) :
    (∀ (source : String) (fields : List Field),
      let items := (InputStruct.of m source fields).items
      (∃ rows : List (Member × Statement),
        publicMembers items = rows.map Prod.fst ∧
        OnlyMethod items ⟨none, Names.typeName source,
          fillingFunction true "to_variables" (rows.map Prod.snd)⟩ ∧
        List.Forall₂ (fun f row => InputAgrees f row.1 row.2)
          (distinctBy Field.name fields) rows) ∧
      insertedKeys items = (distinctBy Field.name fields).map Field.name) ∧
    ∀ (style : SelectionStyle) (kind : OperationKind) (f : OperationField) (name : String),
      let op := Operation.of m style kind f
      let items := (OperationStruct.of m op name).items
      (∃ rows : List (Member × Statement),
        publicMembers items = rows.map Prod.fst ∧
        OnlyMethod items ⟨none, name, creatingFunction (members items)⟩ ∧
        OnlyMethod items ⟨some operationTrait, name,
          fillingFunction false "variables" (rows.map Prod.snd)⟩ ∧
        List.Forall₂ (fun a row => ArgumentAgrees m items name a row.1 row.2)
          (distinctBy Field.name f.args) rows) ∧
      insertedKeys items = (distinctBy Field.name f.args).map Field.name ∧
      ∃ c ∈ constants items, ∃ document, c.name = "DOCUMENT" ∧ c.value = .literal document ∧
        document = op.opening ++ argsPass f.args ++ op.selectionBlock ++ op.tail ∧
        (op.Named → DocumentContent.boundVariables document = f.args.map Field.name ∧
          insertedKeys items = distinctBy id (DocumentContent.boundVariables document)) := by
  refine ⟨fun source fields => ?_, fun style kind f name => ?_⟩
  · obtain ⟨rows, shown, only, keys, agree⟩ := exists_inputRows m source fields
    refine ⟨⟨rows, shown, only, agree⟩, ?_⟩
    exact keys.trans (keys_of_rows (agree.imp fun _ _ h => h.insertions))
  · intro op items
    obtain ⟨rows, shown, new, only, inserted, agree⟩ := exists_argumentRows m style kind f name
    have keys : insertedKeys items = (distinctBy Field.name f.args).map Field.name := by
      refine inserted.trans (keys_of_rows (agree.imp fun a row h => ?_))
      obtain ⟨value, statement, -⟩ := h.inserted
      exact ⟨value, statement ▸ rfl⟩
    let c : Constant := ⟨false, "DOCUMENT", Lib.staticStr, .literal op.document⟩
    refine ⟨⟨rows, shown, new, only, agree⟩, keys, c, ?_, op.document, rfl, rfl, rfl,
      fun named => ?_⟩
    · have inner : AssociatedItem.constant c ∈ (OperationStruct.of m op name).interface := by
        simp [c, OperationStruct.interface, OperationStruct.of]
      have associated : AssociatedItem.constant c ∈ associatedItems items :=
        List.mem_flatMap.mpr ⟨_,
          List.mem_cons_of_mem _ (List.mem_cons_of_mem _ List.mem_cons_self), inner⟩
      exact List.mem_filterMap.mpr ⟨.constant c, associated, rfl⟩
    · have bound : DocumentContent.boundVariables op.document = f.args.map Field.name :=
        DocumentContent.boundVariables_document named
      have kept := distinctBy_map Field.name id f.args
      rw [bound, kept, keys]
      exact ⟨rfl, rfl⟩

/-- An argument that is given twice. -/
def roleField : OperationField :=
  ⟨"role", [.of "id" "ID!", .of "or" "Role", .of "id" "Int"], .parse "String"⟩

def roleModel : SchemaModel :=
  .of [] [] [⟨"Role", ["ADMIN"]⟩] [roleField] []

theorem members_agree_with_variables_role :
    let op := Operation.of roleModel .inline .query roleField
    let items := (OperationStruct.of roleModel op "RoleQuery").items
    op.Named ∧ insertedKeys items = ["id", "or"] ∧
      DocumentContent.boundVariables op.document = ["id", "or", "id"] := by
  intro op items
  have named : op.Named := by
    constructor
    · exact ⟨by decide, by decide⟩
    · exact ⟨by decide, by decide⟩
    · show ∀ a ∈ roleField.args, a.WellFormed
      simp only [roleField, List.forall_mem_cons]
      refine ⟨⟨⟨by decide, by decide⟩, ⟨by decide, by decide⟩⟩,
        ⟨⟨by decide, by decide⟩, ⟨by decide, by decide⟩⟩,
        ⟨⟨by decide, by decide⟩, ⟨by decide, by decide⟩⟩, List.forall_mem_nil _⟩
    · intro ns h
      cases h
  obtain ⟨-, keys, c, -, document, -, -, text, bound⟩ :=
    (members_agree_with_variables roleModel).2 .inline .query roleField "RoleQuery"
  refine ⟨named, keys, ?_⟩
  have whole : document = op.document := text
  rw [← whole]
  exact (bound named).1

end Emitted

end SchemaClient
