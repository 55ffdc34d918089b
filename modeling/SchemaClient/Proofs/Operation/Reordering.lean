import SchemaClient.Operation.Document
import SchemaClient.Proofs.Schema.Lookups

/-!
# The order of definitions

A model is read through its lookups: two models with the same lookups resolve types, select fields
and make operations ready in the same way. Where no two definitions of one kind share a name, the
lookups do not depend on the order of the definitions, also for names that are defined as several
kinds.
-/

namespace SchemaClient

namespace SchemaModel

variable {m m' : SchemaModel}

/-- Nothing that resolves types or selects fields tells the two models apart. -/
structure SameLookups (m m' : SchemaModel) : Prop where
  kindOf : ∀ n, m.kindOf? n = m'.kindOf? n
  fieldsOf : ∀ n, m.fieldsOf? n = m'.fieldsOf? n
  inputType : ∀ n, m.inputType? n = m'.inputType? n

namespace SameLookups

theorem classOf (same : m.SameLookups m') (base : String) : m.classOf base = m'.classOf base := by
  rw [SchemaModel.classOf, SchemaModel.classOf, same.kindOf]

theorem resolve (same : m.SameLookups m') (type : TypeRef) : m.resolve type = m'.resolve type := by
  rw [SchemaModel.resolve, SchemaModel.resolve, same.classOf]

theorem isLeaf (same : m.SameLookups m') (base : String) : m.isLeaf base = m'.isLeaf base := by
  rw [SchemaModel.isLeaf, SchemaModel.isLeaf, same.kindOf]

theorem expands (same : m.SameLookups m') (base : String) :
    Selection.expands m base = Selection.expands m' base := by
  rw [Selection.expands, Selection.expands, same.isLeaf, same.fieldsOf]

theorem nodes (same : m.SameLookups m') (levels : Nat) (above : List String) (type : String) :
    Selection.nodes m levels above type = Selection.nodes m' levels above type := by
  induction levels generalizing above type with
  | zero => rfl
  | succ levels ih =>
    rw [Selection.nodes, Selection.nodes, same.isLeaf, same.fieldsOf]
    simp only [same.expands, ih]

theorem build (same : m.SameLookups m') (type : String) :
    Selection.build m type = Selection.build m' type :=
  same.nodes _ _ _

theorem resultType (same : m.SameLookups m') (type : TypeRef) :
    ResultType.of m type = ResultType.of m' type := by
  rw [ResultType.of, ResultType.of, same.classOf]

theorem variablePlan (same : m.SameLookups m') : VariablePlan.of m = VariablePlan.of m' := by
  funext arg
  rw [VariablePlan.of, VariablePlan.of, same.classOf, same.inputType]

theorem operation (same : m.SameLookups m') (style : SelectionStyle) (kind : OperationKind)
    (f : OperationField) : Operation.of m style kind f = Operation.of m' style kind f := by
  have selection : ∀ base, Selection.build m base = Selection.build m' base := same.build
  rw [Operation.of, Operation.of, same.resultType, same.variablePlan]
  simp only [selection]

end SameLookups

end SchemaModel

/-! ## Definitions in another order -/

section Shuffled

variable {ds ds' : List Definition} {queries mutations : List OperationField}

/-- No two definitions of one kind share a name. -/
def DistinctInKind (ds : List Definition) : Prop :=
  ds.Pairwise fun d e => d.kind = e.kind → d.name ≠ e.name

theorem DistinctInKind.perm (distinct : DistinctInKind ds) (shuffled : ds.Perm ds') :
    DistinctInKind ds' :=
  List.Pairwise.perm distinct shuffled fun apart same => (apart same.symm).symm

theorem DistinctInKind.isLast_iff_mem (distinct : DistinctInKind ds) {d : Definition} :
    IsLast ds d ↔ d ∈ ds := by
  constructor
  · rintro ⟨before, behind, rfl, -⟩
    exact List.mem_append_right _ List.mem_cons_self
  · intro hd
    obtain ⟨before, behind, rfl⟩ := List.append_of_mem hd
    refine ⟨before, behind, rfl, fun e he hkind hname => ?_⟩
    have later := (List.pairwise_append.mp distinct).2.1
    exact (List.pairwise_cons.mp later).1 e he hkind.symm hname.symm

theorem DistinctInKind.isLast_iff_of_perm (distinct : DistinctInKind ds) (shuffled : ds.Perm ds')
    (d : Definition) : IsLast ds d ↔ IsLast ds' d := by
  rw [distinct.isLast_iff_mem, (distinct.perm shuffled).isLast_iff_mem, shuffled.mem_iff]

theorem defines_iff_of_perm (shuffled : ds.Perm ds') (kind : DefinitionKind) (n : String) :
    Defines ds kind n ↔ Defines ds' kind n := by
  simp only [Defines, shuffled.mem_iff]

namespace SchemaModel

/-- The kind of a name is settled between the kinds, wherever the definitions stand. -/
theorem kindOf?_of_perm (shuffled : ds.Perm ds') (n : String) :
    (ofDefinitions ds queries mutations).kindOf? n =
      (ofDefinitions ds' queries mutations).kindOf? n := by
  simp only [kindOf?_ofDefinitions, defines_iff_of_perm shuffled]

theorem sameLookups_of_perm (shuffled : ds.Perm ds') (distinct : DistinctInKind ds) :
    (ofDefinitions ds queries mutations).SameLookups (ofDefinitions ds' queries mutations) where
  kindOf := kindOf?_of_perm shuffled
  fieldsOf n := by
    apply Option.ext
    intro fields
    simp only [fieldsOf?_eq_some_iff, distinct.isLast_iff_of_perm shuffled]
  inputType n := by
    apply Option.ext
    intro t
    simp only [inputType?_eq_some_iff, distinct.isLast_iff_of_perm shuffled]

theorem enumType?_of_perm (shuffled : ds.Perm ds') (distinct : DistinctInKind ds) (n : String) :
    (ofDefinitions ds queries mutations).enumType? n =
      (ofDefinitions ds' queries mutations).enumType? n := by
  apply Option.ext
  intro t
  simp only [enumType?_eq_some_iff, distinct.isLast_iff_of_perm shuffled]

/-- Definitions in another order give the same indices and lookups, and with them the same
operations: results, selections, documents and the plans of variables. -/
theorem ofDefinitions_in_any_order (shuffled : ds.Perm ds') (distinct : DistinctInKind ds)
    (queries mutations : List OperationField) :
    (ofDefinitions ds queries mutations).kindIndex =
      (ofDefinitions ds' queries mutations).kindIndex ∧
    (ofDefinitions ds queries mutations).fieldsByType =
      (ofDefinitions ds' queries mutations).fieldsByType ∧
    (∀ n, (ofDefinitions ds queries mutations).inputType? n =
        (ofDefinitions ds' queries mutations).inputType? n ∧
      (ofDefinitions ds queries mutations).enumType? n =
        (ofDefinitions ds' queries mutations).enumType? n) ∧
    (∀ type, (ofDefinitions ds queries mutations).resolve type =
      (ofDefinitions ds' queries mutations).resolve type) ∧
    (∀ type, Selection.build (ofDefinitions ds queries mutations) type =
      Selection.build (ofDefinitions ds' queries mutations) type) ∧
    (∀ style kind f, Operation.of (ofDefinitions ds queries mutations) style kind f =
      Operation.of (ofDefinitions ds' queries mutations) style kind f) ∧
    ∀ style, operations (ofDefinitions ds queries mutations) style =
      operations (ofDefinitions ds' queries mutations) style := by
  have same : (ofDefinitions ds queries mutations).SameLookups
      (ofDefinitions ds' queries mutations) := sameLookups_of_perm shuffled distinct
  refine ⟨?_, ?_, ?_, same.resolve, same.build, same.operation, ?_⟩
  · exact Dictionary.Sorted.ext (Dictionary.sorted_ofList _) (Dictionary.sorted_ofList _)
      same.kindOf
  · exact Dictionary.Sorted.ext (Dictionary.sorted_ofList _) (Dictionary.sorted_ofList _)
      same.fieldsOf
  · intro n
    exact ⟨same.inputType n, enumType?_of_perm shuffled distinct n⟩
  · intro style
    have compiled : ∀ kind, Operation.of (ofDefinitions ds queries mutations) style kind =
        Operation.of (ofDefinitions ds' queries mutations) style kind :=
      fun kind => funext (same.operation style kind)
    rw [operations, operations, compiled, compiled]
    rfl

/-- Names of two and of three kinds, and an object type that leads to them. -/
def crossed : List Definition :=
  [.object ⟨"Filter", [.of "id" "ID"]⟩, .enum ⟨"Filter", ["ALL"]⟩, .input ⟨"Filter", [.of "q" "ID"]⟩,
    .input ⟨"Post", [.of "id" "ID"]⟩, .object ⟨"Post", [.of "id" "ID"]⟩,
    .object ⟨"User", [.of "posts" "[Post]", .of "filter" "Filter"]⟩]

theorem ofDefinitions_in_any_order_crossed :
    crossed.Perm crossed.reverse ∧ DistinctInKind crossed ∧
    (ofDefinitions crossed.reverse [⟨"user", [], .parse "User"⟩] []).kindIndex =
      [("Filter", .enum), ("Post", .input), ("User", .object)] ∧
    ∀ style, operations (ofDefinitions crossed [⟨"user", [], .parse "User"⟩] []) style =
      operations (ofDefinitions crossed.reverse [⟨"user", [], .parse "User"⟩] []) style := by
  have shuffled : crossed.Perm crossed.reverse := (List.reverse_perm _).symm
  have distinct : DistinctInKind crossed := by
    simp [DistinctInKind, crossed, Definition.kind, Definition.name]
  have same := ofDefinitions_in_any_order shuffled distinct [⟨"user", [], .parse "User"⟩] []
  refine ⟨shuffled, distinct, same.1.symm.trans ?_, same.2.2.2.2.2.2⟩
  decide

end SchemaModel

end Shuffled

end SchemaClient
