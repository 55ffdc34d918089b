import SchemaClient.Proofs.Bindings.References
import SchemaClient.Proofs.Names.Claims
import SchemaClient.Proofs.Operation.Expansion

/-!
# Selections and structs agree

What is selected of an object type has the names that the members of its struct are read from, and
a field has a block where the member has the struct of another object type. A field that is given
twice is selected twice and has one member. A name that stands for an object type and for an input
type is expanded as the first and decoded as the second.
-/

namespace SchemaClient

open Code

/-! ## Members as a response names them -/

namespace Code

/-- The name that an attribute gives to the values of its member. -/
def Attribute.rename? : Attribute → Option String
  | .list "serde" entries _ =>
    entries.findSome? fun
      | .value "rename" text => some text
      | _ => none
  | _ => none

/-- The key of a member in JSON: the name it is renamed to, or its own. -/
def Member.wireKey (m : Member) : String :=
  (m.attributes.findSome? Attribute.rename?).getD m.name

/-- Whether a type mentions the struct of an object type. -/
def CodeType.MentionsObject (t : CodeType) : Prop :=
  ∃ name, siblingPath "types" name ∈ t.paths

end Code

variable {m : SchemaModel} {type : String} {fields : List Field} {ns : List SelectionNode}

theorem wireKey_objectMember (f : ObjectMember) : (ObjectStruct.member f).wireKey = f.wire := by
  unfold Member.wireKey ObjectStruct.member renamedIfOther
  split
  · assumption
  · rfl

theorem FieldType.mem_codeAt {p : Path} (sibling : p.isSibling = true) {position : Position}
    {t : FieldType} : p ∈ (t.codeAt position).paths ↔ p ∈ t.targets := by
  rw [mem_iff_not_within sibling, mem_iff_not_within sibling, within_codeAt]

theorem mentionsObject_iff (m : SchemaModel) (position : Position) (t : TypeRef) :
    ((FieldType.of m position t).codeAt position).MentionsObject ↔ m.classOf t.base = .object := by
  have mentions : ((FieldType.of m position t).codeAt position).MentionsObject ↔
      ∃ name, siblingPath "types" name ∈
        (FieldType.element (m.classOf t.base) t.base).targets := by
    rw [CodeType.MentionsObject]
    refine exists_congr fun name => ?_
    rw [FieldType.mem_codeAt rfl, FieldType.targets_of]
  rw [mentions]
  cases m.classOf t.base <;>
    simp [FieldType.element, FieldType.targets, siblingPath, Path.relative]

/-! ## Fields with a block -/

/-- The name of an object type that resolves to an input type, which comes first. -/
def ResolvesToInput (m : SchemaModel) (base : String) : Prop :=
  m.classOf base = .input ∧ base ∈ m.definedNames .object

theorem isSome_fieldsOf? (built : m.Built) (base : String) :
    (m.fieldsOf? base).isSome = true ↔ base ∈ m.definedNames .object := by
  rw [built.fieldsOf?, Option.isSome_map, SchemaModel.objectType?, find?_name_isSome,
    List.map_reverse, List.mem_reverse]
  rfl

theorem expands_iff (built : m.Built) (base : String) :
    Selection.expands m base = true ↔ m.classOf base = .object ∨ ResolvesToInput m base := by
  rw [Selection.expands, Bool.and_eq_true, isSome_fieldsOf? built, ResolvesToInput,
    SchemaModel.classOf, SchemaModel.isLeaf, built.kindOf?]
  cases scalarKind? base with
  | some kind => simp
  | none =>
    by_cases enum : base ∈ m.definedNames .enum <;>
      by_cases input : base ∈ m.definedNames .input <;>
        by_cases object : base ∈ m.definedNames .object <;>
          simp [enum, input, object]

/-- `ns` is what is selected of a type where it is expanded, at the top of a selection or below. -/
inductive SelectedOf (m : SchemaModel) (type : String) (ns : List SelectionNode) : Prop
  | top : ns = Selection.build m type → SelectedOf m type ns
  | below {root : String} {above : List String} :
      Selection.Expanded m root (type :: above) ns → SelectedOf m type ns

/-- The node of a field, given what is selected inside. -/
def fieldNodeOf (m : SchemaModel) (children : Field → List SelectionNode) (f : Field) :
    SelectionNode :=
  if Selection.expands m f.type.base then .object f.name (children f) else .leaf f.name

theorem name_fieldNodeOf (m : SchemaModel) (children : Field → List SelectionNode) (f : Field) :
    (fieldNodeOf m children f).name = f.name := by
  rw [fieldNodeOf]
  split <;> rfl

/-- A type has the same fields wherever it is expanded. -/
theorem exists_children (object : m.classOf type = .object) (known : m.fieldsOf? type = some fields)
    (h : SelectedOf m type ns) : ∃ children, ns = fields.map (fieldNodeOf m children) := by
  cases h with
  | top h =>
    have open? : m.isLeaf type = false := by
      rw [SchemaModel.classOf] at object
      rw [SchemaModel.isLeaf]
      split at object
      · cases object
      · rename_i scalar
        split at object <;> simp_all
    exact ⟨_, h.trans (Selection.nodes_of_fields List.not_mem_nil open? known)⟩
  | below h =>
    obtain ⟨-, -, type', above, hbranch, -, rfl, hns⟩ := Selection.onBranch_of_expanded h
    obtain ⟨rfl, rfl⟩ := List.cons.inj hbranch
    obtain ⟨fields', levels, hlevels, fresh, open?, known'⟩ :=
      Selection.fields_of_nodes_ne_nil hns
    obtain rfl : fields = fields' := by simpa [known] using known'
    rw [hlevels]
    exact ⟨_, Selection.nodes_of_fields fresh open? known⟩

/-! ## Members and nodes -/

/-- Members of a struct that fit what is selected of a type with these fields. -/
structure Reads (m : SchemaModel) (fields : List Field) (members : List Member)
    (ns : List SelectionNode) : Prop where
  /-- The keys are the names, each of them once. -/
  keys : members.map Member.wireKey = (distinctBy SelectionNode.name ns).map SelectionNode.name
  keys_of_distinct : (ns.map SelectionNode.name).Nodup →
    members.map Member.wireKey = ns.map SelectionNode.name
  /-- A block is selected of what is read as an object. -/
  blocks : ∀ member ∈ members, ∃ f node,
    fields.find? (·.name = member.wireKey) = some f ∧
    ns.find? (·.name = member.wireKey) = some node ∧
    (¬ ResolvesToInput m f.type.base →
      ((∃ children, node = .object member.wireKey children) ↔ member.type.MentionsObject) ∧
      (node = .leaf member.wireKey ↔ ¬ member.type.MentionsObject))

theorem map_wire_members (m : SchemaModel) (type : String) (fields : List Field) :
    (ObjectStruct.of m type fields).members.map ObjectMember.wire =
      (distinctBy Field.name fields).map Field.name := by
  refine map_zipWith_left (fun _ _ => rfl) ?_
  simp [Names.claimAll_length]

theorem reads_fieldNodes (built : m.Built) (type : String) (fields : List Field)
    (children : Field → List SelectionNode) :
    Reads m fields ((ObjectStruct.of m type fields).members.map ObjectStruct.member)
      (fields.map (fieldNodeOf m children)) := by
  have keys : ((ObjectStruct.of m type fields).members.map ObjectStruct.member).map
      Member.wireKey = (distinctBy Field.name fields).map Field.name := by
    rw [List.map_map, ← map_wire_members m type fields]
    exact List.map_congr_left fun f _ => wireKey_objectMember f
  have names : (distinctBy SelectionNode.name (fields.map (fieldNodeOf m children))).map
      SelectionNode.name = (distinctBy Field.name fields).map Field.name := by
    rw [distinctBy_map, funext (name_fieldNodeOf m children), List.map_map]
    exact List.map_congr_left fun f _ => name_fieldNodeOf m children f
  refine ⟨keys.trans names.symm, fun distinct => ?_, ?_⟩
  · rw [keys, ← names, distinctBy_eq_self distinct]
  · rw [List.forall_mem_map]
    intro member hmember
    obtain ⟨f, hf, claimed, -, rfl⟩ := exists_of_mem_zipWith hmember
    rw [wireKey_objectMember]
    have first := find?_of_mem_distinctBy hf
    refine ⟨f, fieldNodeOf m children f, first, ?_, fun resolves => ?_⟩
    · have same : (fun n : SelectionNode => decide (n.name = f.name)) ∘ fieldNodeOf m children =
          fun g : Field => decide (g.name = f.name) := by
        funext g
        simp [name_fieldNodeOf]
      rw [List.find?_map, same]
      exact congrArg _ first
    · have expands := expands_iff built f.type.base
      rw [or_iff_left resolves, ← mentionsObject_iff m .objectField f.type] at expands
      have mentions : (ObjectStruct.member ⟨f.name, f.type.raw, claimed.1, claimed.2,
          .of m .objectField f.type⟩).type.MentionsObject ↔
            Selection.expands m f.type.base = true := expands.symm
      rw [mentions, fieldNodeOf]
      split
      · rename_i hx
        simp [hx]
      · rename_i hx
        simp [hx]

theorem exists_struct (s : ObjectStruct) : ∃ docs attributes,
    .struct docs attributes s.name (s.members.map ObjectStruct.member) ∈ s.items :=
  ⟨_, _, List.mem_cons_self⟩

/-- One struct is generated for a name that resolves to an object type. Its members are read from
what is selected of the type, wherever that is expanded; a field given twice is selected twice and
read once. -/
theorem struct_reads_selection (built : m.Built) (object : m.classOf type = .object)
    (style : SelectionStyle) :
    ∃ fields s, m.fieldsOf? type = some fields ∧
      s ∈ ObjectStruct.all m ∧ s.source = type ∧
      (∀ s' ∈ ObjectStruct.all m, s'.source = type → s' = s) ∧
      (∃ docs attributes, .struct docs attributes s.name (s.members.map ObjectStruct.member) ∈
        (ClientModule.types.code m style).items) ∧
      ∀ ns, SelectedOf m type ns → Reads m fields (s.members.map ObjectStruct.member) ns := by
  have emits := emits_types built style
  have defined := definedNames_of_classOf built .object object
  obtain ⟨s, hs, hsource⟩ := List.mem_map.mp ((emits.complete type).mpr defined)
  obtain ⟨t, ht, rfl⟩ := emits.made s hs
  have hname : t.name = type := hsource
  rw [hsource] at ht
  have known : m.fieldsOf? type = some t.fields := by
    rw [built.fieldsOf?, ht, Option.map_some]
  refine ⟨t.fields, .of m t.name t.fields, known, hs, hsource, ?_, ?_, ?_⟩
  · intro s' hs' hsource'
    exact List.inj_on_of_nodup_map emits.once hs' hs (hsource'.trans hsource.symm)
  · obtain ⟨docs, attributes, item⟩ := exists_struct (.of m t.name t.fields)
    rw [emits.holds]
    exact ⟨docs, attributes, List.mem_flatMap.mpr ⟨_, hs, item⟩⟩
  · intro ns hns
    obtain ⟨children, rfl⟩ := exists_children object known hns
    exact reads_fieldNodes built t.name t.fields children

theorem struct_reads_selection_ring :
    ∃ fields s, Selection.ring.fieldsOf? "Post" = some fields ∧
      s ∈ ObjectStruct.all Selection.ring ∧ s.source = "Post" ∧
      Reads Selection.ring fields (s.members.map ObjectStruct.member) [.object "author" []] := by
  have built : Selection.ring.Built := .of _ _ _ _ _
  have object : Selection.ring.classOf "Post" = .object := rfl
  obtain ⟨fields, s, known, hs, hsource, -, -, reads⟩ :=
    struct_reads_selection built object .inline
  have start : Selection.Expanded Selection.ring "User" ["User"]
      [.object "posts" [.object "author" []]] := .root (by decide)
  have below : SelectedOf Selection.ring "Post" [.object "author" []] :=
    .below (.field (i := 0) (f := .of "posts" "[Post]") start rfl rfl rfl (by simp))
  exact ⟨fields, s, known, hs, hsource, reads _ below⟩

/-- `id` is given twice, and `Filter` is an object type as well as an input type. -/
def repeatingModel : SchemaModel :=
  .of [⟨"User", [.of "id" "ID", .of "id" "ID", .of "filter" "Filter"]⟩,
      ⟨"Filter", [.of "a" "Int"]⟩] [⟨"Filter", [.of "b" "Int"]⟩] [] [] []

theorem struct_unlike_selection :
    ¬ (∀ s ∈ ObjectStruct.all repeatingModel, s.source = "User" →
      (Selection.build repeatingModel "User").map SelectionNode.name =
        s.members.map fun f => (ObjectStruct.member f).wireKey) ∧
    ¬ (∀ s ∈ ObjectStruct.all repeatingModel, s.source = "User" → ∀ f ∈ s.members,
      (∃ children, .object f.wire children ∈ Selection.build repeatingModel "User") →
        (ObjectStruct.member f).type.MentionsObject) := by
  let fields : List Field := [.of "id" "ID", .of "id" "ID", .of "filter" "Filter"]
  have user : ObjectStruct.of repeatingModel "User" fields ∈ ObjectStruct.all repeatingModel := by
    decide +kernel
  have nodes : Selection.build repeatingModel "User" =
      [.leaf "id", .leaf "id", .object "filter" [.leaf "a"]] := rfl
  refine ⟨fun h => ?_, fun h => ?_⟩
  · have names := h _ user rfl
    rw [nodes] at names
    revert names
    decide +kernel
  · let filter : ObjectMember :=
      ⟨"filter", "Filter", "filter", "FILTER", .of repeatingModel .objectField (.parse "Filter")⟩
    have member : filter ∈ (ObjectStruct.of repeatingModel "User" fields).members := by
      decide +kernel
    have mentions := h _ user rfl filter member ⟨[.leaf "a"], by simp [nodes, filter]⟩
    have resolved := (mentionsObject_iff repeatingModel .objectField (.parse "Filter")).mp mentions
    revert resolved
    decide +kernel

end SchemaClient
