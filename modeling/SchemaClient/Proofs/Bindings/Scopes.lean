import SchemaClient.Proofs.Bindings.Declarations
import SchemaClient.Proofs.Names.Claims
import SchemaClient.Proofs.Names.Spelling
import SchemaClient.Proofs.Source.WellFormed

/-!
# Scopes of generated code

Within an item every name is declared once, since members, variants, constants and setters have
claimed names. Structs of operations claim their names as well; structs of types, of input types and
enums do not, and share one where the names of their definitions are spelled alike.
-/

namespace SchemaClient

open Code Names Source

/-! ## Names inside items -/

def Code.AssociatedItem.name : AssociatedItem → String
  | .constant c => c.name
  | .function _ f => f.name
  | .documented _ c => c.name
  | .type name _ => name

/-- The names that an item declares in a scope of its own. -/
def Code.Item.innerNames : Item → List String
  | .struct _ _ _ members => members.map Member.name
  | .enum _ _ _ variants => variants.map Variant.name
  | .block _ _ items => items.map AssociatedItem.name
  | .submodule _ => []
  | .reexport _ names => names

section Members

variable {α β : Type}

theorem length_claimAll_map (taken : Scope) (spelling : α → String) (xs : List α) :
    (claimAll taken (xs.map spelling)).length = xs.length := by
  rw [claimAll_length, List.length_map]

/-- Things put together with claimed names have these names. -/
theorem map_zipWith_claimAll {f : α → String → β} {name : β → String}
    (hname : ∀ x n, name (f x n) = n) (taken : Scope) (spelling : α → String) (xs : List α) :
    (List.zipWith f xs (claimAll taken (xs.map spelling))).map name =
      claimAll taken (xs.map spelling) := by
  rw [map_zipWith_right hname (Nat.le_of_eq (length_claimAll_map taken spelling xs)), List.map_id']

theorem nodup_objectMembers (m : SchemaModel) (source : String) (fields : List Field) :
    ((ObjectStruct.of m source fields).members.map ObjectMember.name).Nodup ∧
      ((ObjectStruct.of m source fields).members.map ObjectMember.constant).Nodup := by
  have names := length_claimAll_map [] (fieldName ·.name) (distinctBy Field.name fields)
  have constants := length_claimAll_map [] (constantName ·.name) (distinctBy Field.name fields)
  have pairs := List.length_zip.trans (congrArg₂ min names constants)
  rw [Nat.min_self] at pairs
  have memberNames : (ObjectStruct.of m source fields).members.map ObjectMember.name =
      claimAll [] ((distinctBy Field.name fields).map (fieldName ·.name)) :=
    (map_zipWith_right (g := ObjectMember.name) (k := Prod.fst) (fun _ _ => rfl)
      (Nat.le_of_eq pairs)).trans
      (List.map_fst_zip (Nat.le_of_eq (names.trans constants.symm)))
  have memberConstants : (ObjectStruct.of m source fields).members.map ObjectMember.constant =
      claimAll [] ((distinctBy Field.name fields).map (constantName ·.name)) :=
    (map_zipWith_right (g := ObjectMember.constant) (k := Prod.snd) (fun _ _ => rfl)
      (Nat.le_of_eq pairs)).trans
      (List.map_snd_zip (Nat.le_of_eq (constants.trans names.symm)))
  rw [memberNames, memberConstants]
  exact ⟨claimAll_nodup _ _, claimAll_nodup _ _⟩

theorem nodup_inputMembers (m : SchemaModel) (source : String) (fields : List Field) :
    ((InputStruct.of m source fields).members.map InputMember.name).Nodup := by
  rw [InputStruct.of, map_zipWith_claimAll fun _ _ => rfl]
  exact claimAll_nodup _ _

theorem names_variants (e : EnumType) : (EnumBinding.of e).variants.map Prod.snd =
    claimAll [] ((distinctBy id e.values).map variantName) := by
  rw [EnumBinding.of, List.map_snd_zip (Nat.le_of_eq (length_claimAll_map ..))]

theorem names_variantsOf (isFirst : Bool) (variants : List (String × String)) :
    (EnumBinding.variantsOf isFirst variants).map Variant.name = variants.map Prod.snd := by
  induction variants generalizing isFirst with
  | nil => rfl
  | cons v rest ih => rw [EnumBinding.variantsOf, List.map_cons, List.map_cons, ih]

theorem names_arguments (m : SchemaModel) (op : Operation) (name : String) :
    (OperationStruct.of m op name).arguments.map ArgumentMember.name =
      claimAll ["selection"] ((distinctBy VariablePlan.name op.plans).map (fieldName ·.name)) := by
  rw [OperationStruct.of, map_zipWith_claimAll fun _ _ => rfl]

end Members

section Items

theorem nodup_objectItems (m : SchemaModel) (source : String) (fields : List Field) :
    ∀ item ∈ (ObjectStruct.of m source fields).items, item.innerNames.Nodup := by
  obtain ⟨members, constants⟩ := nodup_objectMembers m source fields
  intro item hitem
  rcases List.mem_cons.mp hitem with rfl | hitem
  · rw [Item.innerNames, List.map_map]
    exact members
  · split at hitem
    · cases hitem
    · rw [List.mem_singleton.mp hitem, Item.innerNames, List.map_map]
      exact constants

theorem nodup_inputItems (m : SchemaModel) (source : String) (fields : List Field) :
    ∀ item ∈ (InputStruct.of m source fields).items, item.innerNames.Nodup := by
  refine List.forall_mem_cons.mpr ⟨?_, List.forall_mem_singleton.mpr (List.nodup_singleton _)⟩
  rw [Item.innerNames, List.map_map]
  exact nodup_inputMembers m source fields

theorem nodup_enumItems (e : EnumType) :
    ∀ item ∈ (EnumBinding.of e).items, item.innerNames.Nodup := by
  have variants :
      ((EnumBinding.variantsOf true (EnumBinding.of e).variants).map Variant.name).Nodup := by
    rw [names_variantsOf, names_variants]
    exact claimAll_nodup _ _
  have own : ["ALL", "as_str"].Nodup := by decide
  have reading : ["Err", "from_str"].Nodup := by decide
  exact List.forall_mem_cons.mpr ⟨variants, List.forall_mem_cons.mpr ⟨own,
    List.forall_mem_cons.mpr ⟨List.nodup_singleton _, List.forall_mem_singleton.mpr reading⟩⟩⟩

theorem ne_setter (name : String) (h : name.toList.head? ≠ some 'w') (member : String) :
    name ≠ "with_" ++ member := by
  rintro rfl
  refine h ?_
  rw [String.toList_append]
  rfl

/-- What stands beside the setters of arguments is no setter, except for the setter of the
selection, and no argument has the name that it sets. -/
theorem nodup_methods {names before after : List String} (distinct : names.Nodup)
    (free : "selection" ∉ names) (others : (before ++ after).Nodup)
    (apart : ∀ name ∈ before ++ after, name = "with_selection" ∨ name.toList.head? ≠ some 'w') :
    (before ++ names.map ("with_" ++ ·) ++ after).Nodup := by
  have setters : (names.map ("with_" ++ ·)).Nodup :=
    distinct.map_on fun _ _ _ _ h => (String.append_right_inj "with_").mp h
  have disjoint : ∀ name ∈ before ++ after, name ∉ names.map ("with_" ++ ·) := by
    intro name hname hmem
    obtain ⟨n, hn, rfl⟩ := List.mem_map.mp hmem
    rcases apart _ hname with own | other
    · have own : n = "selection" := (String.append_right_inj "with_").mp own
      exact free (own ▸ hn)
    · exact ne_setter _ other n rfl
  rw [List.append_assoc, List.nodup_append_comm, List.append_assoc, List.nodup_append]
  refine ⟨setters, List.nodup_append_comm.mpr others, fun setter hsetter name hname heq => ?_⟩
  exact disjoint name (List.mem_append.mpr (List.mem_append.mp hname).symm) (heq ▸ hsetter)

section Operations

variable {s : OperationStruct}

theorem nodup_operationMembers (distinct : (s.arguments.map ArgumentMember.name).Nodup)
    (free : "selection" ∉ s.arguments.map ArgumentMember.name) :
    ((s.arguments.map OperationStruct.member ++
      if s.hasSelection then [OperationStruct.selectionMember] else []).map Member.name).Nodup := by
  have arguments : (s.arguments.map OperationStruct.member).map Member.name =
      s.arguments.map ArgumentMember.name := by
    rw [List.map_map]
    rfl
  rw [List.map_append, arguments]
  split
  · exact List.nodup_append_comm.mpr (List.nodup_cons.mpr ⟨free, distinct⟩)
  · rw [List.map_nil, List.append_nil]
    exact distinct

theorem nodup_operationMethods (distinct : (s.arguments.map ArgumentMember.name).Nodup)
    (free : "selection" ∉ s.arguments.map ArgumentMember.name) :
    ((AssociatedItem.function [] (OperationStruct.new s) ::
      (s.arguments.filter (·.nullable)).map
        (fun a => AssociatedItem.function [] (OperationStruct.setter a)) ++
      if s.hasSelection then OperationStruct.selectionItems s.operation else []).map
        AssociatedItem.name).Nodup := by
  -- Only optional arguments have setters.
  have optional : ((s.arguments.filter (·.nullable)).map ArgumentMember.name).Sublist
      (s.arguments.map ArgumentMember.name) := List.filter_sublist.map _
  have all : (["new"] ++ ((s.arguments.filter (·.nullable)).map ArgumentMember.name).map
      ("with_" ++ ·) ++ ["DOCUMENT_HEAD", "DOCUMENT_TAIL", "with_selection"]).Nodup :=
    nodup_methods (distinct.sublist optional) (fun h => free (optional.subset h)) (by decide)
      (by decide)
  rw [List.map_map] at all
  rw [List.map_append, List.map_cons, List.map_map]
  split
  · exact all
  · rw [List.map_nil, List.append_nil]
    exact all.sublist (List.sublist_append_left _ _)

theorem nodup_interface (s : OperationStruct) :
    (s.interface.map AssociatedItem.name).Nodup := by
  have selecting : ["Response", "KIND", "FIELD", "GRAPHQL_TYPE", "DOCUMENT", "document",
      "variables"].Nodup := by decide
  have plain : ["Response", "KIND", "FIELD", "GRAPHQL_TYPE", "DOCUMENT",
      "variables"].Nodup := by decide
  rw [OperationStruct.interface]
  split
  · exact selecting
  · exact plain

theorem nodup_operationItems (m : SchemaModel) (op : Operation) (name : String) :
    ∀ item ∈ (OperationStruct.of m op name).items, item.innerNames.Nodup := by
  have names := names_arguments m op name
  have distinct : ((OperationStruct.of m op name).arguments.map ArgumentMember.name).Nodup := by
    rw [names]
    exact claimAll_nodup _ _
  have free : "selection" ∉ (OperationStruct.of m op name).arguments.map ArgumentMember.name := by
    rw [names]
    exact fun h => claimAll_not_mem h List.mem_cons_self
  exact List.forall_mem_cons.mpr ⟨nodup_operationMembers distinct free,
    List.forall_mem_cons.mpr ⟨nodup_operationMethods distinct free,
      List.forall_mem_singleton.mpr (nodup_interface _)⟩⟩

end Operations

end Items

theorem nodup_innerNames (m : SchemaModel) (style : SelectionStyle) (c : ClientModule) :
    ∀ item ∈ (c.code m style).items, item.innerNames.Nodup := by
  have operations : ∀ kind, ∀ item ∈ (OperationStruct.module m style kind).items,
      item.innerNames.Nodup := by
    intro kind
    refine List.forall_mem_flatMap.mpr fun s hs => ?_
    obtain ⟨op, -, name, -, rfl⟩ := exists_of_mem_zipWith hs
    exact nodup_operationItems m op name
  cases c with
  | root => exact (by decide : ∀ item ∈ ClientModule.rootModule.items, item.innerNames.Nodup)
  | types =>
    refine List.forall_mem_flatMap.mpr fun s hs => ?_
    obtain ⟨t, -, rfl⟩ := List.mem_map.mp hs
    exact nodup_objectItems m t.name _
  | inputs =>
    refine List.forall_mem_flatMap.mpr fun s hs => ?_
    obtain ⟨t, -, hs⟩ := List.mem_filterMap.mp hs
    obtain ⟨u, -, rfl⟩ := Option.map_eq_some_iff.mp hs
    exact nodup_inputItems m u.name u.fields
  | enums =>
    refine List.forall_mem_flatMap.mpr fun e he => ?_
    obtain ⟨t, -, he⟩ := List.mem_filterMap.mp he
    obtain ⟨u, -, rfl⟩ := Option.map_eq_some_iff.mp he
    exact nodup_enumItems u
  | queries => exact operations .query
  | mutations => exact operations .mutation

/-! ## Names of items -/

variable {m : SchemaModel}

theorem nodup_operationNames (m : SchemaModel) (style : SelectionStyle) (kind : OperationKind) :
    ((OperationStruct.all m style kind).map OperationStruct.name).Nodup := by
  rw [OperationStruct.all, map_zipWith_claimAll fun _ _ => rfl]
  exact claimAll_nodup _ _

theorem nodup_operations (m : SchemaModel) (style : SelectionStyle) (kind : OperationKind) :
    ((OperationStruct.module m style kind).items.filterMap Item.declares).Nodup := by
  have names : (OperationStruct.module m style kind).items.filterMap Item.declares =
      (OperationStruct.all m style kind).map OperationStruct.name := by
    change ((OperationStruct.all m style kind).flatMap OperationStruct.items).filterMap _ = _
    rw [List.filterMap_flatMap, List.map_eq_flatMap]
    exact List.flatMap_congr fun s _ => declares_operationItems s
  rw [names]
  exact nodup_operationNames m style kind

/-- The module that declares the definitions of a kind. -/
def DefinitionKind.module : DefinitionKind → ClientModule
  | .object => .types
  | .input => .inputs
  | .enum => .enums

section Clashes

variable {α β : Type} {c : Module} {names : List String} {lookup : String → Option α}
  {make : α → β} {source : β → String} {items : β → List Item} {bindings : List β}

/-- Items are declared under one name only if the names of their definitions clash. -/
theorem Emits.nodup_iff (h : Emits c names lookup make source items bindings)
    (hnames : ∀ n ∈ names, IsName n.toList) : (c.items.filterMap Item.declares).Nodup ↔
      ∀ a ∈ names, ∀ b ∈ names, a ≠ b → ¬ TypesClash a b := by
  have declared : c.items.filterMap Item.declares = (bindings.map source).map typeName := by
    rw [h.declares_items, List.map_map]
    rfl
  rw [declared, List.nodup_map_iff_inj_on h.once]
  constructor
  · intro inj a ha b hb other clash
    exact other (inj a ((h.complete a).mpr ha) b ((h.complete b).mpr hb)
      ((typeName_eq_iff (hnames a ha) (hnames b hb)).mpr (.inr clash)))
  · intro apart a ha b hb heq
    rw [h.complete] at ha hb
    by_contra other
    exact apart a ha b hb other
      (((typeName_eq_iff (hnames a ha) (hnames b hb)).mp heq).resolve_left other)

end Clashes

/-- No number makes `ALL` of another name. -/
theorem mem_claimAll_all {names : List String} : "ALL" ∈ claimAll [] names ↔ "ALL" ∈ names := by
  refine ⟨fun h => ?_, fun h => mem_claimAll h List.not_mem_nil⟩
  obtain ⟨name, hname, heq | ⟨n, heq⟩⟩ := eq_of_mem_claimAll h
  · rw [heq]
    exact hname
  · have underscore : '_' ∈ "ALL".toList := by
      rw [heq, numbered_toList]
      exact List.mem_append_right _ List.mem_cons_self
    exact absurd underscore (by decide)

theorem all_mem_variants {e : EnumType} (he : ∀ v ∈ e.values, IsWord v.toList) :
    "ALL" ∈ (EnumBinding.of e).variants.map Prod.snd ↔ ∃ v ∈ e.values, SpellsAll v := by
  have distinct : ∀ v, v ∈ distinctBy id e.values ↔ v ∈ e.values := by
    intro v
    have h : v ∈ (distinctBy id e.values).map id ↔ v ∈ e.values.map id := mem_map_distinctBy
    rwa [List.map_id, List.map_id] at h
  rw [names_variants, mem_claimAll_all, List.mem_map]
  constructor
  · rintro ⟨v, hv, heq⟩
    rw [distinct] at hv
    exact ⟨v, hv, (variantName_eq_all_iff (he v hv)).mp heq⟩
  · rintro ⟨v, hv, spells⟩
    exact ⟨v, (distinct v).mpr hv, (variantName_eq_all_iff (he v hv)).mpr spells⟩

/-- An enum among the items is made of a definition that lookups by its name return. -/
theorem exists_of_enum {style : SelectionStyle} {docs : List Doc} {attributes : List Attribute}
    {name : String} {variants : List Variant}
    (h : Item.enum docs attributes name variants ∈ (ClientModule.enums.code m style).items) :
    ∃ e, m.enumType? e.name = some e ∧ name = typeName e.name ∧
      variants.map Variant.name = (EnumBinding.of e).variants.map Prod.snd := by
  rw [(emits_enums m style).holds] at h
  obtain ⟨b, hb, hitem⟩ := List.mem_flatMap.mp h
  obtain ⟨e, he, rfl⟩ := (emits_enums m style).made b hb
  obtain ⟨-, -, rfl, rfl⟩ : docs = _ ∧ attributes = _ ∧ name = (EnumBinding.of e).name ∧
      variants = EnumBinding.variantsOf true (EnumBinding.of e).variants := by
    simpa [EnumBinding.items] using hitem
  exact ⟨e, he, rfl, names_variantsOf true _⟩

/-- The names that generated code declares in one scope, for the schema of an analysed text. Inside
an item they are distinct, and so are the operations of a module. Two definitions of a kind declare
one name exactly if their names clash, and an enum has a variant `ALL` beside its constant of this
name exactly if a value is spelled so. -/
theorem scopes_distinct_iff {text : String} (h : analyse text = .ok m) (style : SelectionStyle) :
    (∀ c : ClientModule, ∀ item ∈ (c.code m style).items, item.innerNames.Nodup) ∧
    (∀ c ∈ [ClientModule.root, .queries, .mutations],
      ((c.code m style).items.filterMap Item.declares).Nodup) ∧
    (∀ kind : DefinitionKind, ((kind.module.code m style).items.filterMap Item.declares).Nodup ↔
      ∀ a ∈ m.definedNames kind, ∀ b ∈ m.definedNames kind, a ≠ b → ¬ TypesClash a b) ∧
    ∀ docs attributes name variants,
      Item.enum docs attributes name variants ∈ (ClientModule.enums.code m style).items →
        ∃ e, m.enumType? e.name = some e ∧ name = typeName e.name ∧
          variants.map Variant.name = (EnumBinding.of e).variants.map Prod.snd ∧
          ("ALL" ∈ variants.map Variant.name ↔ ∃ v ∈ e.values, SpellsAll v) := by
  have built := SchemaModel.built_of_analyse h
  have wellFormed := wellFormed_of_analyse h
  refine ⟨nodup_innerNames m style, ?_, fun kind => ?_,
    fun docs attributes name variants hitem => ?_⟩
  · have root : (ClientModule.rootModule.items.filterMap Item.declares).Nodup := by decide
    exact List.forall_mem_cons.mpr ⟨root, List.forall_mem_cons.mpr
      ⟨nodup_operations m style .query,
        List.forall_mem_singleton.mpr (nodup_operations m style .mutation)⟩⟩
  · cases kind with
    | object => exact (emits_types built style).nodup_iff (wellFormed.names .object)
    | input => exact (emits_inputs m style).nodup_iff (wellFormed.names .input)
    | enum => exact (emits_enums m style).nodup_iff (wellFormed.names .enum)
  · obtain ⟨e, he, hname, hvariants⟩ := exists_of_enum hitem
    have defined : e ∈ m.enums := List.mem_reverse.mp (List.mem_of_find?_eq_some he)
    have all := all_mem_variants (wellFormed.values e defined)
    rw [← hvariants] at all
    exact ⟨e, he, hname, hvariants, all⟩

/-- An object type is named as the default for the other, and an enum has a value of the letters of
`ALL`. -/
def clashingModel : SchemaModel :=
  .of [⟨"Type", [.of "id" "ID"]⟩, ⟨"_", [.of "name" "String"]⟩] [] [⟨"E", ["A_L_L"]⟩] [] []

theorem scopes_distinct_iff_clashing :
    analyse "type Type { id: ID } type _ { name: String } enum E { A_L_L }" = .ok clashingModel ∧
    ¬ ((ClientModule.types.code clashingModel .inline).items.filterMap Item.declares).Nodup ∧
    ∃ docs attributes variants,
      .enum docs attributes "E" variants ∈ (ClientModule.enums.code clashingModel .inline).items ∧
        "ALL" ∈ variants.map Variant.name := by
  have h : analyse "type Type { id: ID } type _ { name: String } enum E { A_L_L }" =
      .ok clashingModel := by rfl
  obtain ⟨-, -, declared, constants⟩ := scopes_distinct_iff h .inline
  refine ⟨h, ?_, _, _, _, List.mem_cons_self, ?_⟩
  · intro distinct
    exact (declared .object).mp distinct "Type" (by decide) "_" (by decide) (by decide)
      (.inl ⟨.inr rfl, .inl (by decide)⟩)
  · obtain ⟨e, he, -, -, all⟩ := constants _ _ _ _ List.mem_cons_self
    obtain rfl : e = ⟨"E", ["A_L_L"]⟩ :=
      List.mem_singleton.mp (List.mem_reverse.mp (List.mem_of_find?_eq_some he))
    refine all.mpr ⟨"A_L_L", List.mem_cons_self, ?_⟩
    rw [SpellsAll]
    decide +kernel

end SchemaClient
