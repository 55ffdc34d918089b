import Mathlib.Data.List.Induction
import SchemaClient.Proofs.Dictionary
import SchemaClient.Proofs.Schema.Indices

/-!
# Definitions and lookups

What the lookups of a model find among the definitions that it is built from. A lookup in one kind
finds the last definition with the name, whatever stands between the others. The kind of a name is
settled between the kinds, and the names with more than one kind are listed in ascending order.
-/

namespace SchemaClient

/-- Some definition of this kind has this name. -/
def Defines (ds : List Definition) (kind : DefinitionKind) (n : String) : Prop :=
  ∃ d ∈ ds, d.kind = kind ∧ d.name = n

instance (ds : List Definition) (kind : DefinitionKind) (n : String) :
    Decidable (Defines ds kind n) :=
  inferInstanceAs (Decidable (∃ d ∈ ds, d.kind = kind ∧ d.name = n))

/-- No definition behind this one has its kind and its name. -/
def IsLast (ds : List Definition) (d : Definition) : Prop :=
  ∃ before behind, ds = before ++ d :: behind ∧ ∀ e ∈ behind, e.kind = d.kind → e.name ≠ d.name

/-! ## One kind among the others -/

/-- The definitions of one kind: how they are made, and how they are picked out of a list. -/
structure KindSpace (α : Type) where
  kind : DefinitionKind
  name : α → String
  define : α → Definition
  pick : Definition → Option α
  pick_eq_some_iff : ∀ d t, pick d = some t ↔ d = define t
  exists_define : ∀ d, d.kind = kind → ∃ t, d = define t
  kind_define : ∀ t, (define t).kind = kind
  name_define : ∀ t, (define t).name = name t

def objectSpace : KindSpace ObjectType where
  kind := .object
  name := ObjectType.name
  define := .object
  pick := fun | .object t => some t | _ => none
  pick_eq_some_iff d t := by cases d <;> simp
  exists_define d h := by cases d <;> simp_all [Definition.kind]
  kind_define _ := rfl
  name_define _ := rfl

def inputSpace : KindSpace InputType where
  kind := .input
  name := InputType.name
  define := .input
  pick := fun | .input t => some t | _ => none
  pick_eq_some_iff d t := by cases d <;> simp
  exists_define d h := by cases d <;> simp_all [Definition.kind]
  kind_define _ := rfl
  name_define _ := rfl

def enumSpace : KindSpace EnumType where
  kind := .enum
  name := EnumType.name
  define := .enum
  pick := fun | .enum t => some t | _ => none
  pick_eq_some_iff d t := by cases d <;> simp
  exists_define d h := by cases d <;> simp_all [Definition.kind]
  kind_define _ := rfl
  name_define _ := rfl

theorem find?_reverse_eq_some_iff {α : Type} {p : α → Bool} {xs : List α} {x : α} :
    xs.reverse.find? p = some x ↔
      p x = true ∧ ∃ before behind, xs = before ++ x :: behind ∧ ∀ y ∈ behind, p y = false := by
  rw [List.find?_eq_some_iff_append]
  refine and_congr_right fun _ => ?_
  constructor
  · rintro ⟨first, later, hxs, hfirst⟩
    refine ⟨later.reverse, first.reverse, ?_, fun y hy => ?_⟩
    · rw [← List.reverse_inj, hxs]
      simp
    · simpa using hfirst y (List.mem_reverse.mp hy)
  · rintro ⟨before, behind, rfl, hbehind⟩
    refine ⟨behind.reverse, before.reverse, by simp, fun y hy => ?_⟩
    simpa using hbehind y (List.mem_reverse.mp hy)

namespace KindSpace

variable {α : Type} {ds : List Definition} {n : String}

theorem mem_names_iff (S : KindSpace α) :
    n ∈ (ds.filterMap S.pick).map S.name ↔ Defines ds S.kind n := by
  constructor
  · intro h
    obtain ⟨t, ht, rfl⟩ := List.mem_map.mp h
    obtain ⟨d, hd, hpick⟩ := List.mem_filterMap.mp ht
    obtain rfl := (S.pick_eq_some_iff d t).mp hpick
    exact ⟨_, hd, S.kind_define t, S.name_define t⟩
  · rintro ⟨d, hd, hkind, rfl⟩
    obtain ⟨t, rfl⟩ := S.exists_define d hkind
    have hpick := (S.pick_eq_some_iff _ t).mpr rfl
    exact List.mem_map.mpr ⟨t, List.mem_filterMap.mpr ⟨_, hd, hpick⟩, (S.name_define t).symm⟩

theorem named_iff (S : KindSpace α) (d : Definition) :
    (S.pick d).any (S.name · = n) = true ↔ d.kind = S.kind ∧ d.name = n := by
  rw [Option.any_eq_true]
  constructor
  · rintro ⟨t, hpick, hname⟩
    obtain rfl := (S.pick_eq_some_iff d t).mp hpick
    exact ⟨S.kind_define t, (S.name_define t).trans (of_decide_eq_true hname)⟩
  · rintro ⟨hkind, rfl⟩
    obtain ⟨t, rfl⟩ := S.exists_define d hkind
    exact ⟨t, (S.pick_eq_some_iff _ t).mpr rfl, decide_eq_true (S.name_define t).symm⟩

/-- The last of one kind is the last of its kind among all. -/
theorem find?_eq_some_iff (S : KindSpace α) {t : α} :
    (ds.filterMap S.pick).reverse.find? (S.name · = n) = some t ↔
      IsLast ds (S.define t) ∧ S.name t = n := by
  rw [← List.filterMap_reverse, List.find?_filterMap, Option.bind_eq_some_iff]
  constructor
  · rintro ⟨d, hfound, hpick⟩
    obtain rfl := (S.pick_eq_some_iff d t).mp hpick
    obtain ⟨hnamed, before, behind, rfl, later⟩ := find?_reverse_eq_some_iff.mp hfound
    obtain ⟨hkind, rfl⟩ := (S.named_iff _).mp hnamed
    refine ⟨⟨before, behind, rfl, fun e he hek hen => ?_⟩, (S.name_define t).symm⟩
    have unnamed := later e he
    rw [(S.named_iff e).mpr ⟨hek.trans hkind, hen⟩] at unnamed
    cases unnamed
  · rintro ⟨⟨before, behind, rfl, later⟩, rfl⟩
    refine ⟨_, find?_reverse_eq_some_iff.mpr ⟨?_, before, behind, rfl, fun e he => ?_⟩,
      (S.pick_eq_some_iff _ t).mpr rfl⟩
    · exact (S.named_iff _).mpr ⟨S.kind_define t, S.name_define t⟩
    · rw [← Bool.not_eq_true, S.named_iff]
      rintro ⟨hek, hen⟩
      exact later e he (hek.trans (S.kind_define t).symm) (hen.trans (S.name_define t).symm)

theorem find?_isSome_iff (S : KindSpace α) :
    ((ds.filterMap S.pick).reverse.find? (S.name · = n)).isSome = true ↔ Defines ds S.kind n := by
  rw [find?_name_isSome, List.map_reverse, List.mem_reverse, S.mem_names_iff]

end KindSpace

/-! ## The definitions of a model -/

namespace SchemaModel

variable {m : SchemaModel} {ds : List Definition} {queries mutations : List OperationField}
  {kind : DefinitionKind} {n : String}

theorem of_eq_ofDefinitions (objects : List ObjectType) (inputs : List InputType)
    (enums : List EnumType) : of objects inputs enums queries mutations =
      ofDefinitions (objects.map .object ++ inputs.map .input ++ enums.map .enum)
        queries mutations := by
  simp [ofDefinitions, List.filterMap_map]

theorem mem_definedNames_iff :
    n ∈ (ofDefinitions ds queries mutations).definedNames kind ↔ Defines ds kind n := by
  cases kind with
  | object => exact objectSpace.mem_names_iff
  | input => exact inputSpace.mem_names_iff
  | enum => exact enumSpace.mem_names_iff

theorem kindOf?_ofDefinitions : (ofDefinitions ds queries mutations).kindOf? n =
    if Defines ds .enum n then some .enum
    else if Defines ds .input n then some .input
    else if Defines ds .object n then some .object
    else none := by
  rw [(Built.ofDefinitions ds queries mutations).kindOf?]
  simp only [mem_definedNames_iff]

theorem objectType?_eq_some_iff {t : ObjectType} :
    (ofDefinitions ds queries mutations).objectType? n = some t ↔
      IsLast ds (.object t) ∧ t.name = n :=
  objectSpace.find?_eq_some_iff

theorem inputType?_eq_some_iff {t : InputType} :
    (ofDefinitions ds queries mutations).inputType? n = some t ↔
      IsLast ds (.input t) ∧ t.name = n :=
  inputSpace.find?_eq_some_iff

theorem enumType?_eq_some_iff {t : EnumType} :
    (ofDefinitions ds queries mutations).enumType? n = some t ↔
      IsLast ds (.enum t) ∧ t.name = n :=
  enumSpace.find?_eq_some_iff

theorem fieldsOf?_eq_some_iff {fields : List Field} :
    (ofDefinitions ds queries mutations).fieldsOf? n = some fields ↔
      ∃ t : ObjectType, (IsLast ds (.object t) ∧ t.name = n) ∧ t.fields = fields := by
  rw [(Built.ofDefinitions ds queries mutations).fieldsOf?, Option.map_eq_some_iff]
  simp only [objectType?_eq_some_iff]

theorem fieldsOf?_isSome_iff :
    ((ofDefinitions ds queries mutations).fieldsOf? n).isSome = true ↔ Defines ds .object n := by
  rw [(Built.ofDefinitions ds queries mutations).fieldsOf?, Option.isSome_map]
  exact objectSpace.find?_isSome_iff

theorem inputType?_isSome_iff :
    ((ofDefinitions ds queries mutations).inputType? n).isSome = true ↔ Defines ds .input n :=
  inputSpace.find?_isSome_iff

theorem enumType?_isSome_iff :
    ((ofDefinitions ds queries mutations).enumType? n).isSome = true ↔ Defines ds .enum n :=
  enumSpace.find?_isSome_iff

end SchemaModel

theorem scalarKind?_name (s : Scalar) : scalarKind? s.name = some s.kind := by
  cases s <;> decide

/-! ## Names of several kinds -/

namespace SchemaModel

variable {m : SchemaModel} {ds : List Definition} {queries mutations : List OperationField}
  {entries : List (String × DefinitionKind)} {d : Dictionary (List DefinitionKind)} {n : String}

/-- Notes the kind of an entry with its name, unless it is there. -/
def noteKind (d : Dictionary (List DefinitionKind)) (entry : String × DefinitionKind) :
    Dictionary (List DefinitionKind) :=
  let kinds := (d.get? entry.1).getD []
  d.insert entry.1 (if entry.2 ∈ kinds then kinds else kinds ++ [entry.2])

/-- Every name stands in the dictionary with the kinds that it is entered with, each once. -/
structure ListsKinds (entries : List (String × DefinitionKind))
    (d : Dictionary (List DefinitionKind)) : Prop where
  sorted : d.Sorted
  nodup : ∀ n, ((d.get? n).getD []).Nodup
  mem_iff : ∀ n kind, kind ∈ (d.get? n).getD [] ↔ (n, kind) ∈ entries

theorem getD_noteKind (d : Dictionary (List DefinitionKind)) (entry : String × DefinitionKind)
    (n : String) : ((noteKind d entry).get? n).getD [] =
      if n = entry.1 ∧ entry.2 ∉ (d.get? n).getD [] then (d.get? n).getD [] ++ [entry.2]
      else (d.get? n).getD [] := by
  rw [noteKind, Dictionary.get?_insert]
  by_cases hn : n = entry.1
  · subst hn
    by_cases noted : entry.2 ∈ (d.get? entry.1).getD []
    · simp [noted]
    · simp [noted]
  · simp [hn]

theorem ListsKinds.noteKind (h : ListsKinds entries d) (entry : String × DefinitionKind) :
    ListsKinds (entries ++ [entry]) (noteKind d entry) where
  sorted := h.sorted.insert _ _
  nodup n := by
    rw [getD_noteKind]
    split
    · rename_i fresh
      exact (h.nodup n).append (List.nodup_singleton _) (List.disjoint_singleton.mpr fresh.2)
    · exact h.nodup n
  mem_iff n kind := by
    rw [List.mem_append, List.mem_singleton, ← h.mem_iff, getD_noteKind]
    split
    · rename_i fresh
      obtain ⟨rfl, -⟩ := fresh
      rw [List.mem_append, List.mem_singleton, Prod.ext_iff]
      simp
    · rename_i old
      refine (or_iff_left_of_imp ?_).symm
      rintro rfl
      by_contra missing
      exact old ⟨rfl, missing⟩

theorem listsKinds_foldl (entries : List (String × DefinitionKind)) :
    ListsKinds entries (entries.foldl noteKind []) := by
  induction entries using List.reverseRecOn with
  | nil =>
    refine ⟨List.Pairwise.nil, fun _ => List.nodup_nil, fun _ _ => ?_⟩
    exact iff_of_false List.not_mem_nil List.not_mem_nil
  | append_singleton entries entry ih =>
    rw [List.foldl_append]
    exact ih.noteKind entry

theorem listsKinds (m : SchemaModel) :
    ListsKinds (namedKinds m.objectTypes m.inputTypes m.enums) m.kindsByName :=
  listsKinds_foldl _

theorem mem_namedKinds_iff {kind : DefinitionKind} :
    (n, kind) ∈ namedKinds m.objectTypes m.inputTypes m.enums ↔ n ∈ m.definedNames kind := by
  cases kind <;> simp [namedKinds, definedNames]

theorem one_lt_length_iff {α : Type} {xs : List α} (h : xs.Nodup) :
    1 < xs.length ↔ ∃ x y, x ≠ y ∧ x ∈ xs ∧ y ∈ xs := by
  constructor
  · intro hlen
    match xs with
    | [] | [_] => simp at hlen
    | x :: y :: _ =>
      have distinct : x ≠ y := fun hxy => (List.nodup_cons.mp h).1 (hxy ▸ List.mem_cons_self)
      exact ⟨x, y, distinct, List.mem_cons_self, List.mem_cons_of_mem _ List.mem_cons_self⟩
  · rintro ⟨x, y, distinct, hx, hy⟩
    match xs with
    | [] => cases hx
    | [_] => exact absurd ((List.mem_singleton.mp hx).trans (List.mem_singleton.mp hy).symm) distinct
    | _ :: _ :: _ => simp

theorem pairwise_kindCollisions (m : SchemaModel) : m.kindCollisions.Pairwise (· < ·) :=
  List.pairwise_map.mpr (m.listsKinds.sorted.sublist List.filter_sublist)

theorem mem_kindCollisions_iff : n ∈ m.kindCollisions ↔
    ∃ kind kind', kind ≠ kind' ∧ n ∈ m.definedNames kind ∧ n ∈ m.definedNames kind' := by
  have counted : n ∈ m.kindCollisions ↔ 1 < ((m.kindsByName.get? n).getD []).length := by
    rw [kindCollisions, List.mem_map]
    constructor
    · rintro ⟨⟨_, kinds⟩, hmem, rfl⟩
      obtain ⟨hmem, several⟩ := List.mem_filter.mp hmem
      rw [m.listsKinds.sorted.mem_iff.mp hmem]
      exact of_decide_eq_true several
    · intro several
      cases hget : m.kindsByName.get? n with
      | none => simp [hget] at several
      | some kinds =>
        rw [hget] at several
        refine ⟨(n, kinds), List.mem_filter.mpr ⟨?_, decide_eq_true several⟩, rfl⟩
        exact m.listsKinds.sorted.mem_iff.mpr hget
  rw [counted, one_lt_length_iff (m.listsKinds.nodup n)]
  simp only [m.listsKinds.mem_iff, mem_namedKinds_iff]

/-! ## What the lookups tell -/

/-- The indices, the lookups and the collisions of a model tell the same about its definitions. -/
structure Reflects (m : SchemaModel) (ds : List Definition) : Prop where
  /-- Enums come before input types, and these before object types. -/
  kind : ∀ n, m.kindOf? n =
    if Defines ds .enum n then some .enum
    else if Defines ds .input n then some .input
    else if Defines ds .object n then some .object
    else none
  fields_present : ∀ n, (m.fieldsOf? n).isSome = true ↔ Defines ds .object n
  fields_last : ∀ n fields, m.fieldsOf? n = some fields ↔
    ∃ t : ObjectType, (IsLast ds (.object t) ∧ t.name = n) ∧ t.fields = fields
  input_present : ∀ n, (m.inputType? n).isSome = true ↔ Defines ds .input n
  input_last : ∀ n t, m.inputType? n = some t ↔ IsLast ds (.input t) ∧ t.name = n
  enum_present : ∀ n, (m.enumType? n).isSome = true ↔ Defines ds .enum n
  enum_last : ∀ n t, m.enumType? n = some t ↔ IsLast ds (.enum t) ∧ t.name = n
  object_found : ∀ type, (m.resolve type).typeClass = .object → (m.fieldsOf? type.base).isSome = true
  input_found : ∀ type, (m.resolve type).typeClass = .input → (m.inputType? type.base).isSome = true
  enum_found : ∀ type, (m.resolve type).typeClass = .enum → (m.enumType? type.base).isSome = true
  /-- The scalar table comes before all definitions. -/
  scalar_first : ∀ (s : Scalar) (type : TypeRef), type.base = s.name →
    (m.resolve type).scalar = some s.kind ∧ (m.resolve type).typeClass = .scalar s.kind ∧
      (m.resolve type).isLeaf = true ∧ m.isLeaf type.base = true
  collisions_ascending : m.kindCollisions.Pairwise (· < ·)
  mem_collisions : ∀ n, n ∈ m.kindCollisions ↔
    ∃ kind kind', kind ≠ kind' ∧ Defines ds kind n ∧ Defines ds kind' n

theorem defines_of_classOf {base : String} (kind : DefinitionKind)
    (h : (ofDefinitions ds queries mutations).classOf base = match kind with
      | .object => .object
      | .input => .input
      | .enum => .enum) : Defines ds kind base :=
  mem_definedNames_iff.mp (definedNames_of_classOf (.ofDefinitions ds queries mutations) kind h)

theorem scalar_resolved (m : SchemaModel) {s : Scalar} {type : TypeRef} (h : type.base = s.name) :
    (m.resolve type).scalar = some s.kind ∧ (m.resolve type).typeClass = .scalar s.kind ∧
      (m.resolve type).isLeaf = true ∧ m.isLeaf type.base = true := by
  have scalar : scalarKind? type.base = some s.kind := by rw [h, scalarKind?_name]
  have class_eq : (m.resolve type).typeClass = .scalar s.kind := by
    rw [resolve, classOf, scalar]
  refine ⟨scalar, class_eq, ?_, ?_⟩
  · rw [TypeMapping.isLeaf, class_eq]
  · rw [isLeaf, scalar]
    rfl

theorem reflects_ofDefinitions (ds : List Definition) (queries mutations : List OperationField) :
    (ofDefinitions ds queries mutations).Reflects ds where
  kind _ := kindOf?_ofDefinitions
  fields_present _ := fieldsOf?_isSome_iff
  fields_last _ _ := fieldsOf?_eq_some_iff
  input_present _ := inputType?_isSome_iff
  input_last _ _ := inputType?_eq_some_iff
  enum_present _ := enumType?_isSome_iff
  enum_last _ _ := enumType?_eq_some_iff
  object_found _ h := fieldsOf?_isSome_iff.mpr (defines_of_classOf .object h)
  input_found _ h := inputType?_isSome_iff.mpr (defines_of_classOf .input h)
  enum_found _ h := enumType?_isSome_iff.mpr (defines_of_classOf .enum h)
  scalar_first _ _ h := scalar_resolved _ h
  collisions_ascending := pairwise_kindCollisions _
  mem_collisions _ := by
    rw [mem_kindCollisions_iff]
    simp only [mem_definedNames_iff]

/-- A model reflects the definitions that it is built from, in whatever order and however often
names are repeated, within a kind or between the kinds. -/
theorem lookups_reflect_definitions :
    (∀ ds queries mutations, (ofDefinitions ds queries mutations).Reflects ds) ∧
    ∀ objects inputs enums queries mutations, (of objects inputs enums queries mutations).Reflects
      (objects.map .object ++ inputs.map .input ++ enums.map .enum) := by
  refine ⟨reflects_ofDefinitions, fun objects inputs enums queries mutations => ?_⟩
  rw [of_eq_ofDefinitions]
  exact reflects_ofDefinitions _ _ _

end SchemaModel

end SchemaClient
