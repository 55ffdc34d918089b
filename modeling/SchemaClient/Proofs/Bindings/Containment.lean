import Mathlib.Logic.Relation
import SchemaClient.Proofs.Bindings.Declarations
import SchemaClient.Proofs.Names.Claims

/-!
# Structs inside structs

A struct holds another one directly if a member has its type, or has an option of it: a value then
needs the room of the other value. A list or a box of the other struct does not. Objects inside
objects and inputs inside inputs are boxed, so that a struct holds none of its own module. An input
inside an object and an object inside an input are not, and a chain of these may close.
-/

namespace SchemaClient

open Code Relation

/-- A type whose values have room for a value of the type at a path. -/
inductive Code.CodeType.Embeds (p : Path) : CodeType → Prop
  | itself : Embeds p (.path p)
  | optional {t : CodeType} (h : Embeds p t) : Embeds p (.apply Lib.option t)

/-- A struct of the modules of types and inputs, by the path that other modules have to it. -/
def StructAt (m : SchemaModel) (style : SelectionStyle) (p : Path) (members : List Member) : Prop :=
  ∃ c : ClientModule, (c = .types ∨ c = .inputs) ∧ ∃ docs attributes name,
    .struct docs attributes name members ∈ (c.code m style).items ∧ p = siblingPath c.name name

/-- The struct at a path holds what is at another one. Only a struct holds anything, so that a chain
leads through structs until its end. -/
def Holds (m : SchemaModel) (style : SelectionStyle) (p q : Path) : Prop :=
  ∃ members, StructAt m style p members ∧ ∃ member ∈ members, member.type.Embeds q

/-! ## Fields -/

/-- A field that is no list, of a class and with a type of this generated name. Of several fields
with one name only the first counts. -/
def HasSingle (m : SchemaModel) (c : TypeClass) (fields : List Field) (name : String) : Prop :=
  ∃ f ∈ distinctBy Field.name fields,
    f.type.isList = false ∧ m.classOf f.type.base = c ∧ Names.typeName f.type.base = name

/-- An object type with a field for an input type, both by their generated names. -/
def ObjectHasInput (m : SchemaModel) (x y : String) : Prop :=
  ∃ t ∈ m.objectTypes, Names.typeName t.name = x ∧
    HasSingle m .input ((m.fieldsOf? t.name).getD []) y

/-- An input type with a field for an object type. -/
def InputHasObject (m : SchemaModel) (y x : String) : Prop :=
  ∃ t, m.inputType? t.name = some t ∧ Names.typeName t.name = y ∧
    HasSingle m .object t.fields x

/-- An object type with a field for an input type that has one for the other object type. -/
def ReachesObject (m : SchemaModel) : String → String → Prop :=
  Comp (ObjectHasInput m) (InputHasObject m)

/-! ## Types -/

section Types

variable {m : SchemaModel} {p : Path} {t : TypeRef} {x y : String}

@[simp]
theorem siblingPath_inj {c c' : String} :
    siblingPath c x = siblingPath c' y ↔ c = c' ∧ x = y := by
  simp [siblingPath, Path.relative]

@[simp]
theorem embeds_path {q : Path} : (CodeType.path q).Embeds p ↔ q = p := by
  constructor
  · rintro ⟨⟩
    rfl
  · rintro rfl
    exact .itself

@[simp]
theorem embeds_apply {head : Path} {u : CodeType} :
    (CodeType.apply head u).Embeds p ↔ head = Lib.option ∧ u.Embeds p := by
  constructor
  · rintro (_ | h)
    exact ⟨rfl, h⟩
  · rintro ⟨rfl, h⟩
    exact .optional h

@[simp]
theorem not_embeds_fused {outer inner : Path} {u : CodeType} :
    ¬ (CodeType.fused outer inner u).Embeds p := by
  rintro ⟨⟩

theorem embeds_optionalIf {nullable : Bool} {u : FieldType} :
    (FieldType.optionalIf nullable u).code.Embeds p ↔ u.code.Embeds p := by
  cases nullable with
  | false => exact Iff.rfl
  | true => simp [FieldType.optionalIf, FieldType.code]

/-- Whether a value of the class is boxed where it is no list. -/
def Position.boxes : Position → TypeClass → Bool
  | .objectField, .object | .inputField, .input => true
  | _, _ => false

theorem codeAt_optionalIf {position : Position} {nullable : Bool} {u : FieldType}
    (hboxed : ∀ v, u ≠ .boxed v) (hoptional : ∀ v, u ≠ .optional v) :
    (FieldType.optionalIf nullable u).codeAt position = (FieldType.optionalIf nullable u).code := by
  unfold FieldType.codeAt
  split
  · rename_i v h
    cases nullable with
    | false => exact absurd h (hoptional _)
    | true => exact absurd (FieldType.optional.inj h) (hboxed v)
  · rfl

/-- A member holds what its element is, unless that is in a list or in a box. -/
theorem embeds_of {position : Position} :
    ((FieldType.of m position t).codeAt position).Embeds p ↔
      t.isList = false ∧ position.boxes (m.classOf t.base) = false ∧
        (FieldType.element (m.classOf t.base) t.base).code.Embeds p := by
  have hvec : Lib.vec ≠ Lib.option := by decide
  have hbox : Lib.box ≠ Lib.option := by decide
  have hboxed (v : FieldType) : FieldType.element (m.classOf t.base) t.base ≠ .boxed v := by
    cases m.classOf t.base <;> simp [FieldType.element]
  have hoptional (v : FieldType) : FieldType.element (m.classOf t.base) t.base ≠ .optional v := by
    cases m.classOf t.base <;> simp [FieldType.element]
  unfold FieldType.of
  dsimp only
  split
  · rename_i hlist
    rw [codeAt_optionalIf (by simp) (by simp), embeds_optionalIf]
    simp [FieldType.code, hlist, hvec]
  · rename_i hlist
    split
    · simp [FieldType.codeAt, Position.boxes, *]
    · rename_i hc
      rw [hc]
      cases t.nullable <;> simp [FieldType.optionalIf, FieldType.codeAt, FieldType.code,
        Position.boxes, hbox]
    · rename_i position _ _ hobject hinput
      have unboxed : position.boxes (m.classOf t.base) = false := by
        unfold Position.boxes
        split
        · exact (hobject rfl ‹_›).elim
        · exact (hinput rfl ‹_›).elim
        · rfl
      rw [codeAt_optionalIf hboxed hoptional, embeds_optionalIf, unboxed]
      simp [hlist]

theorem embeds_element {c : TypeClass} {base : String} :
    ((FieldType.element c base).code.Embeds (siblingPath "types" x) ↔
      c = .object ∧ Names.typeName base = x) ∧
    ((FieldType.element c base).code.Embeds (siblingPath "inputs" x) ↔
      c = .input ∧ Names.typeName base = x) := by
  cases c with
  | scalar kind =>
    cases kind <;> simp [FieldType.element, FieldType.code, scalarPath, Lib.string, Lib.json,
      Lib.path, Path.root, Path.name, siblingPath, Path.relative]
  | unknown =>
    simp [FieldType.element, FieldType.code, Lib.json, Path.root, siblingPath, Path.relative]
  | _ => simp [FieldType.element, FieldType.code]

/-- A member holds a struct of a class that is not boxed at its position. -/
theorem embeds_struct {position : Position} {c : TypeClass}
    (h : (FieldType.element (m.classOf t.base) t.base).code.Embeds p ↔
      m.classOf t.base = c ∧ Names.typeName t.base = x) :
    ((FieldType.of m position t).codeAt position).Embeds p ↔
      position.boxes c = false ∧
        t.isList = false ∧ m.classOf t.base = c ∧ Names.typeName t.base = x := by
  rw [embeds_of, h]
  constructor
  · rintro ⟨hlist, hunboxed, hclass, hname⟩
    exact ⟨hclass ▸ hunboxed, hlist, hclass, hname⟩
  · rintro ⟨hunboxed, hlist, hclass, hname⟩
    exact ⟨hlist, hclass ▸ hunboxed, hclass, hname⟩

theorem embeds_object {position : Position} :
    ((FieldType.of m position t).codeAt position).Embeds (siblingPath "types" x) ↔
      position.boxes .object = false ∧
        t.isList = false ∧ m.classOf t.base = .object ∧ Names.typeName t.base = x :=
  embeds_struct embeds_element.1

theorem embeds_input {position : Position} :
    ((FieldType.of m position t).codeAt position).Embeds (siblingPath "inputs" x) ↔
      position.boxes .input = false ∧
        t.isList = false ∧ m.classOf t.base = .input ∧ Names.typeName t.base = x :=
  embeds_struct embeds_element.2

end Types

/-! ## Structs -/

section Structs

variable {m : SchemaModel} {style : SelectionStyle} {p q : Path} {x y : String}

theorem mem_objectStructs {s : ObjectStruct} : s ∈ ObjectStruct.all m ↔
    ∃ t ∈ m.objectTypes, s = .of m t.name ((m.fieldsOf? t.name).getD []) := by
  constructor
  · intro h
    obtain ⟨t, ht, rfl⟩ := List.mem_map.mp h
    exact ⟨t, mem_of_mem_distinctBy ht, rfl⟩
  · rintro ⟨t, ht, rfl⟩
    obtain ⟨u, hu, hname⟩ := List.mem_map.mp
      (mem_map_distinctBy.mpr (List.mem_map_of_mem (f := ObjectType.name) ht))
    exact List.mem_map.mpr ⟨u, hu, by rw [hname]⟩

theorem mem_inputStructs {s : InputStruct} : s ∈ InputStruct.all m ↔
    ∃ t, m.inputType? t.name = some t ∧ s = .of m t.name t.fields := by
  constructor
  · intro h
    obtain ⟨t, -, hs⟩ := List.mem_filterMap.mp h
    obtain ⟨u, hu, rfl⟩ := Option.map_eq_some_iff.mp hs
    have hname : u.name = t.name := name_of_find? hu
    exact ⟨u, by rw [hname, hu], rfl⟩
  · rintro ⟨t, ht, rfl⟩
    have hmem : t ∈ m.inputTypes := List.mem_reverse.mp (List.mem_of_find?_eq_some ht)
    obtain ⟨u, hu, hname⟩ := List.mem_map.mp
      (mem_map_distinctBy.mpr (List.mem_map_of_mem (f := InputType.name) hmem))
    exact List.mem_filterMap.mpr ⟨u, hu, by rw [hname, ht]; rfl⟩

theorem struct_mem_objectItems {s : ObjectStruct} {name : String} {members : List Member} :
    (∃ docs attributes, .struct docs attributes name members ∈ s.items) ↔
      name = s.name ∧ members = s.members.map ObjectStruct.member := by
  rw [ObjectStruct.items]
  constructor
  · rintro ⟨docs, attributes, h⟩
    rcases List.mem_cons.mp h with h | h
    · cases h
      exact ⟨rfl, rfl⟩
    · split at h
      · cases h
      · cases List.mem_singleton.mp h
  · rintro ⟨rfl, rfl⟩
    exact ⟨_, _, List.mem_cons_self⟩

theorem struct_mem_inputItems {s : InputStruct} {name : String} {members : List Member} :
    (∃ docs attributes, .struct docs attributes name members ∈ s.items) ↔
      name = s.name ∧ members = s.members.map InputStruct.member := by
  rw [InputStruct.items]
  constructor
  · rintro ⟨docs, attributes, h⟩
    rcases List.mem_cons.mp h with h | h
    · cases h
      exact ⟨rfl, rfl⟩
    · cases List.mem_singleton.mp h
  · rintro ⟨rfl, rfl⟩
    exact ⟨_, _, List.mem_cons_self⟩

theorem structAt_iff {members : List Member} : StructAt m style p members ↔
    (∃ s ∈ ObjectStruct.all m, p = siblingPath "types" s.name ∧
      members = s.members.map ObjectStruct.member) ∨
    ∃ s ∈ InputStruct.all m, p = siblingPath "inputs" s.name ∧
      members = s.members.map InputStruct.member := by
  constructor
  · rintro ⟨c, rfl | rfl, docs, attributes, name, h, rfl⟩
    · obtain ⟨s, hs, h⟩ := List.mem_flatMap.mp h
      obtain ⟨rfl, rfl⟩ := struct_mem_objectItems.mp ⟨_, _, h⟩
      exact .inl ⟨s, hs, rfl, rfl⟩
    · obtain ⟨s, hs, h⟩ := List.mem_flatMap.mp h
      obtain ⟨rfl, rfl⟩ := struct_mem_inputItems.mp ⟨_, _, h⟩
      exact .inr ⟨s, hs, rfl, rfl⟩
  · rintro (⟨s, hs, rfl, rfl⟩ | ⟨s, hs, rfl, rfl⟩)
    · obtain ⟨docs, attributes, h⟩ := struct_mem_objectItems.mpr ⟨rfl, rfl⟩
      exact ⟨.types, .inl rfl, _, _, _, List.mem_flatMap.mpr ⟨s, hs, h⟩, rfl⟩
    · obtain ⟨docs, attributes, h⟩ := struct_mem_inputItems.mpr ⟨rfl, rfl⟩
      exact ⟨.inputs, .inr rfl, _, _, _, List.mem_flatMap.mpr ⟨s, hs, h⟩, rfl⟩

theorem map_type_objectMembers (m : SchemaModel) (source : String) (fields : List Field) :
    ((ObjectStruct.of m source fields).members.map ObjectStruct.member).map Member.type =
      (distinctBy Field.name fields).map fun f =>
        (FieldType.of m .objectField f.type).codeAt .objectField := by
  rw [List.map_map]
  exact map_zipWith_left (fun _ _ => rfl) (by simp [Names.claimAll_length])

theorem map_type_inputMembers (m : SchemaModel) (source : String) (fields : List Field) :
    ((InputStruct.of m source fields).members.map InputStruct.member).map Member.type =
      (distinctBy Field.name fields).map fun f =>
        (FieldType.of m .inputField f.type).codeAt .inputField := by
  rw [List.map_map]
  exact map_zipWith_left (fun _ _ => rfl) (by simp [Names.claimAll_length])

theorem exists_embeds_iff {members : List Member} {fields : List Field} {type : Field → CodeType}
    (h : members.map Member.type = fields.map type) :
    (∃ member ∈ members, member.type.Embeds q) ↔ ∃ f ∈ fields, (type f).Embeds q := by
  constructor
  · rintro ⟨member, hmember, hq⟩
    have hmem : member.type ∈ fields.map type := h ▸ List.mem_map_of_mem hmember
    obtain ⟨f, hf, htype⟩ := List.mem_map.mp hmem
    exact ⟨f, hf, htype ▸ hq⟩
  · rintro ⟨f, hf, hq⟩
    have hmem : type f ∈ members.map Member.type := h ▸ List.mem_map_of_mem hf
    obtain ⟨member, hmember, htype⟩ := List.mem_map.mp hmem
    exact ⟨member, hmember, htype ▸ hq⟩

/-- A struct holds what a field of its type is, or has an option of. -/
theorem holds_iff : Holds m style p q ↔
    (∃ t ∈ m.objectTypes, p = siblingPath "types" (Names.typeName t.name) ∧
      ∃ f ∈ distinctBy Field.name ((m.fieldsOf? t.name).getD []),
        ((FieldType.of m .objectField f.type).codeAt .objectField).Embeds q) ∨
    ∃ t, m.inputType? t.name = some t ∧ p = siblingPath "inputs" (Names.typeName t.name) ∧
      ∃ f ∈ distinctBy Field.name t.fields,
        ((FieldType.of m .inputField f.type).codeAt .inputField).Embeds q := by
  constructor
  · rintro ⟨members, hstruct, h⟩
    rcases structAt_iff.mp hstruct with ⟨s, hs, rfl, rfl⟩ | ⟨s, hs, rfl, rfl⟩
    · obtain ⟨t, ht, rfl⟩ := mem_objectStructs.mp hs
      exact .inl ⟨t, ht, rfl, (exists_embeds_iff (map_type_objectMembers ..)).mp h⟩
    · obtain ⟨t, ht, rfl⟩ := mem_inputStructs.mp hs
      exact .inr ⟨t, ht, rfl, (exists_embeds_iff (map_type_inputMembers ..)).mp h⟩
  · rintro (⟨t, ht, rfl, h⟩ | ⟨t, ht, rfl, h⟩)
    · exact ⟨_, structAt_iff.mpr (.inl ⟨_, mem_objectStructs.mpr ⟨t, ht, rfl⟩, rfl, rfl⟩),
        (exists_embeds_iff (map_type_objectMembers ..)).mpr h⟩
    · exact ⟨_, structAt_iff.mpr (.inr ⟨_, mem_inputStructs.mpr ⟨t, ht, rfl⟩, rfl, rfl⟩),
        (exists_embeds_iff (map_type_inputMembers ..)).mpr h⟩

theorem Holds.eq_siblingPath (h : Holds m style p q) :
    (∃ x, p = siblingPath "types" x) ∨ ∃ y, p = siblingPath "inputs" y := by
  rcases holds_iff.mp h with ⟨t, -, rfl, -⟩ | ⟨t, -, rfl, -⟩
  · exact .inl ⟨_, rfl⟩
  · exact .inr ⟨_, rfl⟩

/-- Inside its own module a struct holds none. -/
theorem not_holds_sibling {c : String} : ¬ Holds m style (siblingPath c x) (siblingPath c y) := by
  rw [holds_iff]
  rintro (⟨t, -, hp, f, -, h⟩ | ⟨t, -, hp, f, -, h⟩)
  · obtain ⟨rfl, -⟩ := siblingPath_inj.mp hp
    cases (embeds_object.mp h).1
  · obtain ⟨rfl, -⟩ := siblingPath_inj.mp hp
    cases (embeds_input.mp h).1

theorem holds_input_iff :
    Holds m style (siblingPath "types" x) (siblingPath "inputs" y) ↔ ObjectHasInput m x y := by
  rw [holds_iff]
  constructor
  · rintro (⟨t, ht, hp, f, hf, h⟩ | ⟨t, -, hp, -⟩)
    · exact ⟨t, ht, (siblingPath_inj.mp hp).2.symm, f, hf, (embeds_input.mp h).2⟩
    · simp at hp
  · rintro ⟨t, ht, rfl, f, hf, h⟩
    exact .inl ⟨t, ht, rfl, f, hf, embeds_input.mpr ⟨rfl, h⟩⟩

theorem holds_object_iff :
    Holds m style (siblingPath "inputs" y) (siblingPath "types" x) ↔ InputHasObject m y x := by
  rw [holds_iff]
  constructor
  · rintro (⟨t, -, hp, -⟩ | ⟨t, ht, hp, f, hf, h⟩)
    · simp at hp
    · exact ⟨t, ht, (siblingPath_inj.mp hp).2.symm, f, hf, (embeds_object.mp h).2⟩
  · rintro ⟨t, ht, rfl, f, hf, h⟩
    exact .inr ⟨t, ht, rfl, f, hf, embeds_object.mpr ⟨rfl, h⟩⟩

end Structs

/-! ## Cycles -/

section Cycles

variable {m : SchemaModel} {style : SelectionStyle} {p q : Path} {x y : String}

/-- A chain of structs that starts at an object alternates between objects and inputs. -/
theorem alternates (h : TransGen (Holds m style) (siblingPath "types" x) q) :
    (∀ x', q = siblingPath "types" x' → TransGen (ReachesObject m) x x') ∧
      ∀ y, q = siblingPath "inputs" y →
        ∃ x', ReflTransGen (ReachesObject m) x x' ∧ ObjectHasInput m x' y := by
  induction h with
  | single h =>
    constructor
    · rintro x' rfl
      exact (not_holds_sibling h).elim
    · rintro y rfl
      exact ⟨x, .refl, holds_input_iff.mp h⟩
  | tail _ h ih =>
    rcases h.eq_siblingPath with ⟨x₁, rfl⟩ | ⟨y₁, rfl⟩
    · have chain := ih.1 x₁ rfl
      constructor
      · rintro x' rfl
        exact (not_holds_sibling h).elim
      · rintro y rfl
        exact ⟨x₁, chain.to_reflTransGen, holds_input_iff.mp h⟩
    · obtain ⟨x₁, chain, hinput⟩ := ih.2 y₁ rfl
      constructor
      · rintro x' rfl
        exact .tail' chain ⟨y₁, hinput, holds_object_iff.mp h⟩
      · rintro y rfl
        exact (not_holds_sibling h).elim

theorem transGen_holds (h : TransGen (ReachesObject m) x y) :
    TransGen (Holds m style) (siblingPath "types" x) (siblingPath "types" y) := by
  refine TransGen.lift' (siblingPath "types") ?_ x y h
  rintro x x' ⟨y, hinput, hobject⟩
  exact .tail (.single (holds_input_iff.mpr hinput)) (holds_object_iff.mpr hobject)

/-- A cycle leads through an object. -/
theorem exists_object_of_cycle (h : TransGen (Holds m style) p p) :
    ∃ x, TransGen (Holds m style) (siblingPath "types" x) (siblingPath "types" x) := by
  obtain ⟨q, hpq, hqp⟩ := TransGen.head'_iff.mp h
  rcases hpq.eq_siblingPath with ⟨x, rfl⟩ | ⟨y, rfl⟩
  · exact ⟨x, h⟩
  · cases hqp.cases_head with
    | inl same =>
      subst same
      exact (not_holds_sibling hpq).elim
    | inr next =>
      obtain ⟨r, hqr, -⟩ := next
      rcases hqr.eq_siblingPath with ⟨x, rfl⟩ | ⟨y', rfl⟩
      · exact ⟨x, .tail' hqp hpq⟩
      · exact (not_holds_sibling hpq).elim

/-- No struct holds another one of its module, and a chain of structs that hold each other leads
back to its start exactly if object types and input types lead back so, each by a field for one of
the other kind. -/
theorem holds_cycle_iff (m : SchemaModel) (style : SelectionStyle) :
    (∀ c x y, ¬ Holds m style (siblingPath c x) (siblingPath c y)) ∧
      ((∃ p, TransGen (Holds m style) p p) ↔ ∃ x, TransGen (ReachesObject m) x x) := by
  refine ⟨fun _ _ _ => not_holds_sibling, ?_⟩
  constructor
  · rintro ⟨p, h⟩
    obtain ⟨x, cycle⟩ := exists_object_of_cycle h
    exact ⟨x, (alternates cycle).1 x rfl⟩
  · rintro ⟨x, h⟩
    exact ⟨_, transGen_holds h⟩

/-- An object and an input that require each other. -/
def mutualModel : SchemaModel :=
  .of [⟨"A", [.of "b" "B!"]⟩] [⟨"B", [.of "a" "A!"]⟩] [] [] []

theorem holds_cycle_iff_mutual :
    analyse "type A { b: B! } input B { a: A! }" = .ok mutualModel ∧
      ∃ p, TransGen (Holds mutualModel .inline) p p := by
  refine ⟨by rfl, (holds_cycle_iff mutualModel .inline).2.mpr ⟨"A", .single ⟨"B", ?_, ?_⟩⟩⟩
  · exact ⟨_, List.mem_cons_self, by decide +kernel, _, List.mem_cons_self, by decide +kernel⟩
  · exact ⟨⟨"B", [.of "a" "A!"]⟩, rfl, by decide +kernel, _, List.mem_cons_self,
      by decide +kernel⟩

end Cycles

end SchemaClient
