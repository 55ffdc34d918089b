import SchemaClient.Proofs.Dictionary
import SchemaClient.Proofs.Outcomes
import SchemaClient.Source.Analysis

/-!
# The indices of a model

Looking a name up in an index of a model that is built from definitions finds the last definition of
that name; between the kinds, enums come before input types and these before object types.
-/

namespace SchemaClient

namespace Dictionary

variable {α : Type}

/-- Of two entries with one key the later one is found. -/
theorem get?_ofList (entries : List (String × α)) (k : String) :
    (ofList entries).get? k = entries.reverse.lookup k := by
  suffices ∀ d : Dictionary α, (entries.foldl (fun d e => d.insert e.1 e.2) d).get? k =
      (entries.reverse.lookup k).or (d.get? k) by
    rw [ofList, this []]
    exact Option.or_none
  induction entries with
  | nil => exact fun d => rfl
  | cons e rest ih =>
    intro d
    obtain ⟨key, value⟩ := e
    have single : List.lookup k [(key, value)] = if k = key then some value else none :=
      get?_cons key value [] k
    rw [List.foldl_cons, ih, get?_insert, List.reverse_cons, List.lookup_append, Option.or_assoc,
      single]
    split
    · rfl
    · rfl

end Dictionary

section Lookup

variable {α β : Type} {name : α → String} {n : String}

theorem lookup_map (name : α → String) (value : α → β) (ts : List α) (n : String) :
    (ts.map fun t => (name t, value t)).lookup n = (ts.find? (name · = n)).map value := by
  induction ts with
  | nil => rfl
  | cons t ts ih =>
    have head := Dictionary.get?_cons (name t) (value t) (ts.map fun t => (name t, value t)) n
    rw [Dictionary.get?, Dictionary.get?] at head
    rw [List.map_cons, head, ih]
    by_cases h : name t = n
    · simp [h]
    · rw [if_neg fun hn => h hn.symm, List.find?_cons_of_neg (by simpa using h)]

theorem find?_name_isSome {ts : List α} :
    (ts.find? (name · = n)).isSome = true ↔ n ∈ ts.map name := by
  rw [List.find?_isSome, List.mem_map]
  constructor
  · rintro ⟨t, ht, hn⟩
    exact ⟨t, ht, of_decide_eq_true hn⟩
  · rintro ⟨t, ht, hn⟩
    exact ⟨t, ht, decide_eq_true hn⟩

end Lookup

namespace SchemaModel

variable {m : SchemaModel} {n : String}

/-- The last definition with this name. -/
def objectType? (m : SchemaModel) (name : String) : Option ObjectType :=
  m.objectTypes.reverse.find? (·.name = name)

/-- A model whose indices are derived from its definitions. -/
inductive Built : SchemaModel → Prop
  | of (objects : List ObjectType) (inputs : List InputType) (enums : List EnumType)
      (queries mutations : List OperationField) :
      Built (.of objects inputs enums queries mutations)
  | ofDefinitions (definitions : List Definition) (queries mutations : List OperationField) :
      Built (.ofDefinitions definitions queries mutations)

theorem Built.eq_of (h : m.Built) :
    m = .of m.objectTypes m.inputTypes m.enums m.queryFields m.mutationFields := by
  cases h with
  | of => rfl
  | ofDefinitions => rfl

theorem lookup_kind {α : Type} (name : α → String) (kind : DefinitionKind) (ts : List α)
    (n : String) : ((ts.map fun t => (name t, kind)).reverse).lookup n =
      if n ∈ ts.map name then some kind else none := by
  rw [← List.map_reverse, lookup_map]
  split
  · rename_i hn
    have found : (ts.reverse.find? (name · = n)).isSome = true := by
      rw [find?_name_isSome, List.map_reverse, List.mem_reverse]
      exact hn
    obtain ⟨t, ht⟩ := Option.isSome_iff_exists.mp found
    rw [ht, Option.map_some]
  · rename_i hn
    rw [Option.map_eq_none_iff, ← Option.not_isSome_iff_eq_none, find?_name_isSome,
      List.map_reverse, List.mem_reverse]
    exact hn

/-- The names of the definitions of a kind, in order. -/
def definedNames (m : SchemaModel) : DefinitionKind → List String
  | .object => m.objectTypes.map ObjectType.name
  | .input => m.inputTypes.map InputType.name
  | .enum => m.enums.map EnumType.name

/-- An enum wins over an input type, and an input type over an object type. -/
theorem Built.kindOf? (h : m.Built) (n : String) : m.kindOf? n =
    if n ∈ m.definedNames .enum then some .enum
    else if n ∈ m.definedNames .input then some .input
    else if n ∈ m.definedNames .object then some .object
    else none := by
  have index : m.kindIndex = .ofList (namedKinds m.objectTypes m.inputTypes m.enums) := by
    rw [h.eq_of]
    rfl
  have objects : ((m.objectTypes.map fun t => (t.name, DefinitionKind.object)).reverse).lookup n =
      if n ∈ m.definedNames .object then some .object else none := lookup_kind ..
  have inputs : ((m.inputTypes.map fun t => (t.name, DefinitionKind.input)).reverse).lookup n =
      if n ∈ m.definedNames .input then some .input else none := lookup_kind ..
  have enums : ((m.enums.map fun t => (t.name, DefinitionKind.enum)).reverse).lookup n =
      if n ∈ m.definedNames .enum then some .enum else none := lookup_kind ..
  rw [SchemaModel.kindOf?, index, Dictionary.get?_ofList, namedKinds, List.reverse_append,
    List.reverse_append, List.lookup_append, List.lookup_append, objects, inputs, enums]
  split
  · rfl
  · split
    · rfl
    · rfl

theorem Built.mem_definedNames {kind : DefinitionKind} (h : m.Built)
    (hn : m.kindOf? n = some kind) : n ∈ m.definedNames kind := by
  rw [h.kindOf?] at hn
  split at hn
  · cases hn
    assumption
  · split at hn
    · cases hn
      assumption
    · split at hn
      · cases hn
        assumption
      · cases hn

theorem Built.fieldsOf? (h : m.Built) (n : String) :
    m.fieldsOf? n = (m.objectType? n).map (·.fields) := by
  have index : m.fieldsByType = .ofList (m.objectTypes.map fun t => (t.name, t.fields)) := by
    rw [h.eq_of]
    rfl
  rw [SchemaModel.fieldsOf?, index, Dictionary.get?_ofList, ← List.map_reverse, lookup_map]
  rfl

theorem built_of_analyse {text : String} (h : analyse text = .ok m) : m.Built := by
  obtain ⟨t, -, rfl⟩ := map_eq_ok_iff.mp h
  exact .of _ _ _ _ _

end SchemaModel

/-- A name that resolves to a kind of definitions is the name of one. -/
theorem definedNames_of_classOf {m : SchemaModel} {base : String} (built : m.Built)
    (kind : DefinitionKind) (h : m.classOf base = match kind with
      | .object => .object
      | .input => .input
      | .enum => .enum) : base ∈ m.definedNames kind := by
  refine built.mem_definedNames ?_
  rw [SchemaModel.classOf] at h
  split at h
  · cases kind <;> cases h
  · split at h <;> cases kind <;> first | assumption | cases h

end SchemaClient
