import SchemaClient.Proofs.Source.HeaderScan
import SchemaClient.Proofs.Schema.Indices

/-!
# What analysis finds is well formed

Whatever text is analysed, definitions have names that start with no digit; fields, arguments,
operations and enum values are words; and a type is written with the characters of types. No root
type is among the object types, no enum is without values, and what a model holds beside its
definitions is derived from them.
-/

namespace SchemaClient

open Source Text

/-- The text of a type. -/
def IsTypeWord (w : List Char) : Prop :=
  w ≠ [] ∧ ∀ c ∈ w, isTypeChar c = true

structure Field.WellFormed (f : Field) : Prop where
  name : IsWord f.name.toList
  type : IsTypeWord f.type.raw.toList

structure OperationField.WellFormed (f : OperationField) : Prop where
  name : IsWord f.name.toList
  args : ∀ a ∈ f.args, a.WellFormed
  type : IsTypeWord f.returnType.raw.toList

structure SchemaModel.WellFormed (m : SchemaModel) : Prop where
  names : ∀ kind, ∀ n ∈ m.definedNames kind, IsName n.toList
  objectFields : ∀ t ∈ m.objectTypes, ∀ f ∈ t.fields, f.WellFormed
  inputFields : ∀ t ∈ m.inputTypes, ∀ f ∈ t.fields, f.WellFormed
  values : ∀ e ∈ m.enums, ∀ v ∈ e.values, IsWord v.toList
  operations : ∀ kind, ∀ f ∈ m.fieldsOfKind kind, f.WellFormed

theorem SchemaModel.WellFormed.fieldsOf? {m : SchemaModel} (h : m.WellFormed) (built : m.Built)
    {n : String} {fields : List Field} (hn : m.fieldsOf? n = some fields) :
    ∀ f ∈ fields, f.WellFormed := by
  rw [built.fieldsOf?] at hn
  obtain ⟨t, ht, rfl⟩ := Option.map_eq_some_iff.mp hn
  exact h.objectFields t (List.mem_reverse.mp (List.mem_of_find?_eq_some ht))

namespace Source

variable {cs w rest : List Char}

section Collect

variable {α : Type} {p : Pattern α} {P : α → Prop}

/-- What a scan collects is what its pattern finds somewhere. -/
theorem collect_forall (h : ∀ cs x n, p cs = some (x, n) → P x) : ∀ x ∈ collect p cs, P x := by
  suffices ∀ passed, ∀ x ∈ collectFrom p passed cs, P x from this 0
  induction cs with
  | nil =>
    intro passed x hx
    cases hx
  | cons c cs ih =>
    intro passed x hx
    cases passed with
    | succ passed => exact ih passed x hx
    | zero =>
      cases hp : p (c :: cs) with
      | none =>
        simp only [collectFrom, hp] at hx
        exact ih 0 x hx
      | some found =>
        obtain ⟨y, n⟩ := found
        simp only [collectFrom, hp] at hx
        rcases List.mem_cons.mp hx with rfl | hx
        · exact h _ _ _ hp
        · exact ih _ x hx

end Collect

section Entries

theorem isWord_of_run? (h : run? isNameChar cs = some (w, rest)) : IsWord w := by
  obtain ⟨-, nonempty, all, -⟩ := run?_eq_some h
  exact ⟨nonempty, all⟩

theorem isTypeWord_of_typeAfterColon? (h : typeAfterColon? cs = some (w, rest)) :
    IsTypeWord w := by
  unfold typeAfterColon? at h
  split at h
  · obtain ⟨-, nonempty, all, -⟩ := run?_eq_some h
    exact ⟨nonempty, all⟩
  · cases h

theorem fieldsIn_wellFormed (cs : List Char) : ∀ f ∈ fieldsIn cs, f.WellFormed := by
  refine collect_forall ?_
  intro cs f n h
  simp only [fieldPattern, Option.bind_eq_bind, Option.bind_eq_some_iff, Option.pure_def,
    Option.some.injEq, Prod.mk.injEq] at h
  obtain ⟨⟨name, rest⟩, hname, ⟨type, rest'⟩, htype, rfl, -⟩ := h
  refine ⟨?_, ?_⟩
  · rw [Field.of, String.toList_ofList]
    exact isWord_of_run? hname
  · rw [Field.of, TypeRef.parse, String.toList_ofList]
    exact isTypeWord_of_typeAfterColon? htype

theorem operationsIn_wellFormed (cs : List Char) : ∀ f ∈ operationsIn cs, f.WellFormed := by
  refine collect_forall ?_
  intro cs f n h
  simp only [operationPattern, Option.bind_eq_bind, Option.bind_eq_some_iff, Option.pure_def,
    Option.some.injEq, Prod.mk.injEq] at h
  obtain ⟨⟨name, rest⟩, hname, ⟨type, rest'⟩, htype, rfl, -⟩ := h
  refine ⟨?_, ?_, ?_⟩
  · rw [String.toList_ofList]
    exact isWord_of_run? hname
  · intro a ha
    dsimp only at ha
    split at ha
    · exact fieldsIn_wellFormed _ a ha
    · cases ha
  · rw [TypeRef.parse, String.toList_ofList]
    exact isTypeWord_of_typeAfterColon? htype

theorem valuesIn_isWord (cs : List Char) : ∀ v ∈ valuesIn cs, IsWord v.toList := by
  refine collect_forall ?_
  intro cs v n h
  simp only [valuePattern, Option.bind_eq_bind, Option.bind_eq_some_iff, Option.pure_def,
    Option.some.injEq, Prod.mk.injEq] at h
  obtain ⟨⟨word, rest⟩, hword, rfl, -⟩ := h
  rw [String.toList_ofList]
  exact isWord_of_run? hword

end Entries

section Headers

variable {keyword name block : List Char}

theorem isName_of_header? (h : header? keyword cs = some (name, block)) : IsName name := by
  rcases header?_eq_some h with h | ⟨_, _, _, _, _, h⟩
  · exact h.isName
  · exact h.isName

theorem isName_of_mem_headersFrom {previous : Option Char} {passed : Nat}
    (h : (name, block) ∈ headersFrom keyword previous passed cs) : IsName name := by
  induction cs generalizing previous passed with
  | nil => cases h
  | cons c cs ih =>
    cases passed with
    | succ passed => exact ih h
    | zero =>
      rw [headersFrom] at h
      split at h
      · rename_i found hfound
        split at h
        · rcases List.mem_cons.mp h with heq | h
          · cases heq
            exact isName_of_header? hfound
          · exact ih h
        · exact ih h
      · exact ih h

theorem isName_of_mem_definitionsIn {kind : DefinitionKind} {text : String} {d : RawDefinition}
    (h : d ∈ definitionsIn kind text) : IsName d.name.toList := by
  obtain ⟨⟨name, block⟩, hmem, hd⟩ := List.mem_filterMap.mp h
  obtain ⟨body, -, rfl⟩ := Option.map_eq_some_iff.mp hd
  rw [String.toList_ofList]
  exact isName_of_mem_headersFrom hmem

end Headers

/-- What holds of the operations in every body holds of those of a root type. -/
theorem rootFieldsIn_forall {P : OperationField → Prop} (h : ∀ cs, ∀ f ∈ operationsIn cs, P f)
    (text : String) (kind : OperationKind) : ∀ f ∈ rootFieldsIn kind text, P f := by
  intro f hf
  unfold rootFieldsIn at hf
  split at hf
  · exact h _ f hf
  · cases hf

theorem modelOf_wellFormed (text : String) : (modelOf text).WellFormed where
  names kind n hn := by
    cases kind with
    | object =>
      obtain ⟨t, ht, rfl⟩ := List.mem_map.mp hn
      obtain ⟨d, hd, rfl⟩ := List.mem_map.mp ht
      exact isName_of_mem_definitionsIn (List.mem_filter.mp hd).1
    | input =>
      obtain ⟨t, ht, rfl⟩ := List.mem_map.mp hn
      obtain ⟨d, hd, rfl⟩ := List.mem_map.mp ht
      exact isName_of_mem_definitionsIn hd
    | enum =>
      obtain ⟨t, ht, rfl⟩ := List.mem_map.mp hn
      obtain ⟨d, hd, rfl⟩ := List.mem_map.mp (List.mem_filter.mp ht).1
      exact isName_of_mem_definitionsIn hd
  objectFields t ht := by
    obtain ⟨d, -, rfl⟩ := List.mem_map.mp ht
    exact fieldsIn_wellFormed _
  inputFields t ht := by
    obtain ⟨d, -, rfl⟩ := List.mem_map.mp ht
    exact fieldsIn_wellFormed _
  values e he := by
    obtain ⟨d, -, rfl⟩ := List.mem_map.mp (List.mem_filter.mp he).1
    exact valuesIn_isWord _
  operations kind := by
    cases kind with
    | query => exact rootFieldsIn_forall operationsIn_wellFormed text .query
    | mutation => exact rootFieldsIn_forall operationsIn_wellFormed text .mutation

end Source

/-- A model that analysis gives is that of some text in normal form. -/
theorem eq_modelOf_of_analyse {text : String} {m : SchemaModel} (h : analyse text = .ok m) :
    ∃ t, m = modelOf t := by
  obtain ⟨t, -, rfl⟩ := map_eq_ok_iff.mp h
  exact ⟨t, rfl⟩

theorem wellFormed_of_analyse {text : String} {m : SchemaModel} (h : analyse text = .ok m) :
    m.WellFormed := by
  obtain ⟨t, rfl⟩ := eq_modelOf_of_analyse h
  exact modelOf_wellFormed t

/-! ## Names and types of a whole model -/

namespace SchemaModel

variable {m : SchemaModel}

/-- The fields of the object types and of the input types, and the arguments of the operations. -/
def allFields (m : SchemaModel) : List Field :=
  m.objectTypes.flatMap (·.fields) ++ m.inputTypes.flatMap (·.fields)
    ++ (m.queryFields ++ m.mutationFields).flatMap (·.args)

/-- Every name in the body of a definition: fields, arguments, operations and enum values. -/
def entryNames (m : SchemaModel) : List String :=
  m.allFields.map (·.name) ++ (m.queryFields ++ m.mutationFields).map (·.name)
    ++ m.enums.flatMap (·.values)

/-- Every type that a field, an argument or an operation has. -/
def typeRefs (m : SchemaModel) : List TypeRef :=
  m.allFields.map (·.type) ++ (m.queryFields ++ m.mutationFields).map (·.returnType)

theorem forall_allFields {P : Field → Prop} (objects : ∀ t ∈ m.objectTypes, ∀ f ∈ t.fields, P f)
    (inputs : ∀ t ∈ m.inputTypes, ∀ f ∈ t.fields, P f)
    (args : ∀ f ∈ m.queryFields ++ m.mutationFields, ∀ a ∈ f.args, P a) :
    ∀ f ∈ m.allFields, P f := by
  intro f hf
  rcases List.mem_append.mp hf with hf | hf
  · rcases List.mem_append.mp hf with hf | hf
    · obtain ⟨t, ht, hf⟩ := List.mem_flatMap.mp hf
      exact objects t ht f hf
    · obtain ⟨t, ht, hf⟩ := List.mem_flatMap.mp hf
      exact inputs t ht f hf
  · obtain ⟨operation, hoperation, hf⟩ := List.mem_flatMap.mp hf
    exact args operation hoperation f hf

theorem WellFormed.operation (h : m.WellFormed) :
    ∀ f ∈ m.queryFields ++ m.mutationFields, f.WellFormed :=
  List.forall_mem_append.mpr ⟨h.operations .query, h.operations .mutation⟩

theorem WellFormed.field (h : m.WellFormed) : ∀ f ∈ m.allFields, f.WellFormed :=
  forall_allFields h.objectFields h.inputFields fun f hf => (h.operation f hf).args

theorem WellFormed.entryName (h : m.WellFormed) : ∀ n ∈ m.entryNames, IsWord n.toList := by
  intro n hn
  rcases List.mem_append.mp hn with hn | hn
  · rcases List.mem_append.mp hn with hn | hn
    · obtain ⟨f, hf, rfl⟩ := List.mem_map.mp hn
      exact (h.field f hf).name
    · obtain ⟨f, hf, rfl⟩ := List.mem_map.mp hn
      exact (h.operation f hf).name
  · obtain ⟨e, he, hn⟩ := List.mem_flatMap.mp hn
    exact h.values e he n hn

theorem WellFormed.typeRef (h : m.WellFormed) : ∀ t ∈ m.typeRefs, IsTypeWord t.raw.toList := by
  intro t ht
  rcases List.mem_append.mp ht with ht | ht
  · obtain ⟨f, hf, rfl⟩ := List.mem_map.mp ht
    exact (h.field f hf).type
  · obtain ⟨f, hf, rfl⟩ := List.mem_map.mp ht
    exact (h.operation f hf).type

end SchemaModel

namespace Source

theorem fieldsIn_parsed (cs : List Char) : ∀ f ∈ fieldsIn cs, f.type = .parse f.type.raw := by
  refine collect_forall ?_
  intro cs f n h
  simp only [fieldPattern, Option.bind_eq_bind, Option.bind_eq_some_iff, Option.pure_def,
    Option.some.injEq, Prod.mk.injEq] at h
  obtain ⟨_, -, _, -, rfl, -⟩ := h
  rfl

theorem operationsIn_parsed (cs : List Char) : ∀ f ∈ operationsIn cs,
    f.returnType = .parse f.returnType.raw ∧ ∀ a ∈ f.args, a.type = .parse a.type.raw := by
  refine collect_forall ?_
  intro cs f n h
  simp only [operationPattern, Option.bind_eq_bind, Option.bind_eq_some_iff, Option.pure_def,
    Option.some.injEq, Prod.mk.injEq] at h
  obtain ⟨_, -, _, -, rfl, -⟩ := h
  refine ⟨rfl, fun a ha => ?_⟩
  dsimp only at ha
  split at ha
  · exact fieldsIn_parsed _ a ha
  · cases ha

theorem modelOf_typeRefs_parsed (text : String) :
    ∀ t ∈ (modelOf text).typeRefs, t = .parse t.raw := by
  have root := rootFieldsIn_forall operationsIn_parsed text
  have operations := List.forall_mem_append.mpr ⟨root .query, root .mutation⟩
  have fields : ∀ f ∈ (modelOf text).allFields, f.type = .parse f.type.raw := by
    refine SchemaModel.forall_allFields ?_ ?_ fun f hf => (operations f hf).2
    · intro t ht
      obtain ⟨d, -, rfl⟩ := List.mem_map.mp ht
      exact fieldsIn_parsed _
    · intro t ht
      obtain ⟨d, -, rfl⟩ := List.mem_map.mp ht
      exact fieldsIn_parsed _
  intro t ht
  rcases List.mem_append.mp ht with ht | ht
  · obtain ⟨f, hf, rfl⟩ := List.mem_map.mp ht
    exact fields f hf
  · obtain ⟨f, hf, rfl⟩ := List.mem_map.mp ht
    exact (operations f hf).1

theorem not_reserved_of_mem_objectsIn {text : String} {t : ObjectType} (h : t ∈ objectsIn text) :
    t.name ∉ reservedTypeNames := by
  obtain ⟨d, hd, rfl⟩ := List.mem_map.mp h
  simpa using (List.mem_filter.mp hd).2

theorem values_ne_nil_of_mem_enumsIn {text : String} {e : EnumType} (h : e ∈ enumsIn text) :
    e.values ≠ [] := by
  simpa using (List.mem_filter.mp h).2

end Source

/-- Whatever text is analysed, the model holds names and types as the grammar has them, and it is
derived from its definitions and operations. -/
theorem analysed_model_is_wellFormed {text : String} {m : SchemaModel} (h : analyse text = .ok m) :
    (∀ kind, ∀ n ∈ m.definedNames kind, IsName n.toList) ∧
    (∀ t ∈ m.objectTypes, t.name ∉ reservedTypeNames) ∧
    (∀ e ∈ m.enums, e.values ≠ []) ∧
    (∀ n ∈ m.entryNames, IsWord n.toList) ∧
    (∀ t ∈ m.typeRefs, IsTypeWord t.raw.toList ∧ t = .parse t.raw) ∧
    m = .of m.objectTypes m.inputTypes m.enums m.queryFields m.mutationFields := by
  have wellFormed := wellFormed_of_analyse h
  obtain ⟨text, rfl⟩ := eq_modelOf_of_analyse h
  refine ⟨wellFormed.names, ?_, ?_, wellFormed.entryName, ?_, rfl⟩
  · exact fun t ht => not_reserved_of_mem_objectsIn ht
  · exact fun e he => values_ne_nil_of_mem_enumsIn he
  · exact fun t ht => ⟨wellFormed.typeRef t ht, modelOf_typeRefs_parsed text t ht⟩

/-- A definition stands in another one, one has no values, one is left open, and braces are spare. -/
def brokenText : String :=
  "\x7dtype A\x7bx:[B!]! input C\x7b\x7did:[[]!\x7dtype Query\x7ba(b:C!,d):E!\x7d" ++
    "enum E\x7b9\x7denum F\x7b\x7dtype H\x7b\x7b"

def brokenModel : SchemaModel :=
  .of [⟨"A", [.of "x" "[B!]!", .of "id" "[[]!"]⟩] [⟨"C", []⟩] [⟨"E", ["9"]⟩]
    [⟨"a", [.of "b" "C!"], .parse "E!"⟩] []

theorem analysed_model_is_wellFormed_broken :
    analyse brokenText = .ok brokenModel ∧
    (∀ n ∈ ["x", "id", "b", "a", "9"], IsWord n.toList) ∧
    ∀ t ∈ brokenModel.typeRefs, IsTypeWord t.raw.toList ∧ t = .parse t.raw := by
  have h : analyse brokenText = .ok brokenModel := toOption_eq_some_iff.mp (by decide +kernel)
  obtain ⟨-, -, -, names, types, -⟩ := analysed_model_is_wellFormed h
  exact ⟨h, names, types⟩

end SchemaClient
