import SchemaClient.Proofs.Bindings.Scopes

/-!
# Functions of generated types

What the items generated for one type declare: its members, its constants, and its functions with
the blocks in which they stand. A function is looked up by its name, and no type has two of a name.
-/

namespace SchemaClient

open Code

namespace Code

def members (items : List Item) : List Member :=
  items.flatMap fun
    | .struct _ _ _ members => members
    | _ => []

def publicMembers (items : List Item) : List Member :=
  (members items).filter (·.visible)

def associatedItems (items : List Item) : List AssociatedItem :=
  items.flatMap fun
    | .block _ _ inner => inner
    | _ => []

def constants (items : List Item) : List Constant :=
  (associatedItems items).filterMap fun
    | .constant c => some c
    | _ => none

/-- A function of a type, its own or one of a trait. -/
structure Method where
  owner : Option Path
  type : String
  function : Function

def methodsIn (owner : Option Path) (type : String) (inner : List AssociatedItem) : List Method :=
  inner.filterMap fun
    | .function _ f => some ⟨owner, type, f⟩
    | _ => none

def methods (items : List Item) : List Method :=
  items.flatMap fun
    | .block owner type inner => methodsIn owner type inner
    | _ => []

/-- The method is there, and no other has its name. -/
def OnlyMethod (items : List Item) (g : Method) : Prop :=
  g ∈ methods items ∧ ∀ h ∈ methods items, h.function.name = g.function.name → h = g

theorem onlyMethod_of_mem {items : List Item} {g : Method}
    (distinct : ((methods items).map (·.function.name)).Nodup) (h : g ∈ methods items) :
    OnlyMethod items g :=
  ⟨h, fun _ hg' same => List.inj_on_of_nodup_map distinct hg' h same⟩

end Code

section Operations

variable {s : OperationStruct} {g : Method}

/-- The trait of operations. -/
def operationTrait : Path :=
  .root ["graphgen", "Operation"]

theorem members_operationItems (s : OperationStruct) : members s.items =
    s.arguments.map OperationStruct.member ++
      if s.hasSelection then [OperationStruct.selectionMember] else [] :=
  List.append_nil _

theorem methods_operationItems (s : OperationStruct) : methods s.items =
    (s.new :: (s.arguments.filter (·.nullable)).map OperationStruct.setter ++
        if s.hasSelection then [OperationStruct.selectionSetter] else []).map
          (⟨none, s.name, ·⟩) ++
      ((if s.hasSelection then [OperationStruct.document s.operation] else []) ++
        [s.variablesFunction]).map (⟨some operationTrait, s.name, ·⟩) := by
  unfold methods OperationStruct.items OperationStruct.interface
  cases s.hasSelection <;>
    simp [methodsIn, List.filterMap_append, List.filterMap_map, OperationStruct.selectionItems,
      operationTrait, OperationStruct.runtimePath]

theorem mem_methods : g ∈ methods s.items ↔ g = ⟨none, s.name, s.new⟩ ∨
    (∃ a ∈ s.arguments, a.nullable = true ∧ ⟨none, s.name, OperationStruct.setter a⟩ = g) ∨
      (s.hasSelection = true ∧ (g = ⟨none, s.name, OperationStruct.selectionSetter⟩ ∨
        g = ⟨some operationTrait, s.name, OperationStruct.document s.operation⟩)) ∨
      g = ⟨some operationTrait, s.name, s.variablesFunction⟩ := by
  rw [methods_operationItems]
  cases s.hasSelection <;> simp [and_assoc, or_assoc]

theorem names_methods (s : OperationStruct) : (methods s.items).map (·.function.name) =
    ["new"] ++ ((s.arguments.filter (·.nullable)).map ArgumentMember.name).map ("with_" ++ ·) ++
      if s.hasSelection then ["with_selection", "document", "variables"] else ["variables"] := by
  rw [methods_operationItems]
  cases s.hasSelection <;>
    simp [OperationStruct.new, OperationStruct.setter, OperationStruct.setterName,
      OperationStruct.selectionSetter, OperationStruct.document, OperationStruct.variablesFunction]

theorem nodup_names_methods (distinct : (s.arguments.map ArgumentMember.name).Nodup)
    (free : "selection" ∉ s.arguments.map ArgumentMember.name) :
    ((methods s.items).map (·.function.name)).Nodup := by
  -- Only optional arguments have setters.
  have optional : ((s.arguments.filter (·.nullable)).map ArgumentMember.name).Sublist
      (s.arguments.map ArgumentMember.name) := List.filter_sublist.map _
  rw [names_methods]
  refine nodup_methods (distinct.sublist optional) (fun h => free (optional.subset h)) ?_ ?_
  · split <;> decide
  · split <;> decide

/-- An argument that has to be given cannot be set. -/
theorem ne_setter_of_required (distinct : (s.arguments.map ArgumentMember.name).Nodup)
    (free : "selection" ∉ s.arguments.map ArgumentMember.name) {a : ArgumentMember}
    (ha : a ∈ s.arguments) (required : a.nullable = false) (h : g ∈ methods s.items) :
    g.function.name ≠ "with_" ++ a.name := by
  rcases mem_methods.mp h with rfl | ⟨b, hb, optional, rfl⟩ | ⟨-, rfl | rfl⟩ | rfl
  · exact ne_setter "new" (by decide) a.name
  · intro same
    have same : b.name = a.name := (String.append_right_inj "with_").mp same
    obtain rfl := List.inj_on_of_nodup_map distinct hb ha same
    simp [required] at optional
  · intro same
    have same : "selection" = a.name := (String.append_right_inj "with_").mp same
    exact free (same ▸ List.mem_map_of_mem ha)
  · exact ne_setter "document" (by decide) a.name
  · exact ne_setter "variables" (by decide) a.name

end Operations

end SchemaClient
