import SchemaClient.Proofs.Bindings.Agreement
import SchemaClient.Proofs.Bindings.LegalNames
import SchemaClient.Proofs.Bindings.Methods

/-!
# Keys of members

A member goes by the name it is renamed to, and where no rename is written by its identifier, less
the mark of a raw one. The rename is left out exactly where the claimed name is that of the field.
Whatever fields are called, the keys of a struct are their names, each of them once and in order,
and the constants of an object type hold the same.
-/

namespace SchemaClient

open Code Names

/-! ## Reading structs -/

namespace Code

/-- The key of a member, read off its attributes and its identifier as it is written. -/
def Member.serdeKey (a : Member) : String :=
  (a.attributes.findSome? Attribute.rename?).getD (unmarked (written a.name))

theorem Member.serdeKey_eq {a : Member} (h : Legal a.name) : a.serdeKey = a.wireKey := by
  rw [serdeKey, wireKey, unmarked_written h]

/-- The members of each struct among the items. -/
def structs (items : List Item) : List (List Member) :=
  items.filterMap fun
    | .struct _ _ _ members => some members
    | _ => none

end Code

/-- The names of fields, each where it comes first. -/
def fieldNames (fields : List Field) : List String :=
  (fields.map Field.name).eraseDups

/-- The members are told apart by their identifiers and have these keys. -/
structure GoesBy (keys : List String) (members : List Member) : Prop where
  identifiers : DistinctIdentifiers (members.map Member.name)
  keys : members.map Member.serdeKey = keys

theorem goesBy {members : List Member} {keys : List String}
    (legal : ∀ a ∈ members, Legal a.name) (distinct : (members.map Member.name).Nodup)
    (h : members.map Member.wireKey = keys) : GoesBy keys members := by
  refine ⟨distinctIdentifiers (List.forall_mem_map.mpr legal) distinct, ?_⟩
  rw [← h]
  exact List.map_congr_left fun a ha => Member.serdeKey_eq (legal a ha)

/-! ## Members and constants -/

section Structs

variable (m : SchemaModel) (source : String) (fields : List Field)

theorem map_wire_objectMembers :
    (ObjectStruct.of m source fields).members.map ObjectMember.wire = fieldNames fields :=
  (map_wire_members m source fields).trans (map_distinctBy Field.name fields)

theorem map_wire_inputMembers :
    (InputStruct.of m source fields).members.map InputMember.wire = fieldNames fields := by
  have length := length_claimAll_map [] (fieldName ·.name) (distinctBy Field.name fields)
  calc (InputStruct.of m source fields).members.map InputMember.wire
      = (distinctBy Field.name fields).map Field.name :=
        map_zipWith_left (fun _ _ => rfl) (Nat.le_of_eq length.symm)
    _ = fieldNames fields := map_distinctBy Field.name fields

theorem wireKey_inputMember (f : InputMember) : (InputStruct.member f).wireKey = f.wire := by
  have plain : (if f.nullable then
      [Attribute.list "serde"
        [.value "skip_serializing_if" "::std::option::Option::is_none"] false]
      else []).findSome? Attribute.rename? = none := by
    split <;> rfl
  unfold Member.wireKey InputStruct.member renamedIfOther
  rw [List.findSome?_append, plain]
  split
  · assumption
  · rfl

theorem goesBy_objectMembers :
    GoesBy (fieldNames fields)
      ((ObjectStruct.of m source fields).members.map ObjectStruct.member) := by
  apply goesBy
  · exact List.forall_mem_map.mpr fun f hf => (legal_objectMembers m source fields f hf).1
  · rw [List.map_map]
    exact (nodup_objectMembers m source fields).1
  · rw [List.map_map, ← map_wire_objectMembers m source fields]
    exact List.map_congr_left fun f _ => wireKey_objectMember f

theorem goesBy_inputMembers :
    GoesBy (fieldNames fields)
      ((InputStruct.of m source fields).members.map InputStruct.member) := by
  apply goesBy
  · exact List.forall_mem_map.mpr fun f hf => (legal_inputMembers m source fields f hf).1
  · rw [List.map_map]
    exact nodup_inputMembers m source fields
  · rw [List.map_map, ← map_wire_inputMembers m source fields]
    exact List.map_congr_left fun f _ => wireKey_inputMember f

/-- Without members there is no block of constants either. -/
theorem constants_objectItems (s : ObjectStruct) :
    constants s.items = s.members.map ObjectStruct.constant := by
  cases h : s.members with
  | nil => simp [ObjectStruct.items, constants, associatedItems, h]
  | cons f rest =>
    simp [ObjectStruct.items, constants, associatedItems, h, List.filterMap_map]

theorem distinctIdentifiers_constants :
    DistinctIdentifiers
      ((ObjectStruct.of m source fields).members.map ObjectMember.constant) := by
  apply distinctIdentifiers
  · exact List.forall_mem_map.mpr fun f hf => (legal_objectMembers m source fields f hf).2.1
  · exact (nodup_objectMembers m source fields).2

theorem values_constants (s : ObjectStruct) :
    (s.members.map ObjectStruct.constant).map Constant.value =
      (s.members.map ObjectMember.wire).map .literal := by
  rw [List.map_map, List.map_map]
  rfl

/-- The struct of an object type and that of an input type have a member for each name among the
fields, which goes by that name. The constants of an object type are these names. -/
theorem members_keep_field_names :
    (∃ members, structs (ObjectStruct.of m source fields).items = [members] ∧
      GoesBy (fieldNames fields) members) ∧
    (∃ members, structs (InputStruct.of m source fields).items = [members] ∧
      GoesBy (fieldNames fields) members) ∧
    DistinctIdentifiers
      ((constants (ObjectStruct.of m source fields).items).map Constant.name) ∧
    (constants (ObjectStruct.of m source fields).items).map Constant.value =
      (fieldNames fields).map .literal := by
  refine ⟨⟨_, ?_, goesBy_objectMembers m source fields⟩,
    ⟨_, rfl, goesBy_inputMembers m source fields⟩, ?_, ?_⟩
  · rw [ObjectStruct.items]
    split <;> rfl
  · rw [constants_objectItems, List.map_map]
    exact distinctIdentifiers_constants m source fields
  · rw [constants_objectItems, values_constants, map_wire_objectMembers]

/-- A claimed name may be that of another field, which then gets a rename of its own. -/
example : let fields : List Field :=
      [.of "userId" "ID", .of "user_id" "ID", .of "user_id_2" "ID", .of "type" "ID",
        .of "self" "ID", .of "userId" "Int"]
    (InputStruct.of (.of [] [] [] [] []) "Item" fields).members.map
        (fun f => (f.wire, written f.name)) =
      [("userId", "user_id"), ("user_id", "user_id_2"), ("user_id_2", "user_id_2_2"),
        ("type", "r#type"), ("self", "self_")] := by
  decide +kernel

end Structs

end SchemaClient
