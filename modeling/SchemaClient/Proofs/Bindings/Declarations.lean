import SchemaClient.Bindings.Client
import SchemaClient.Proofs.Bindings.Distinct
import SchemaClient.Proofs.Schema.Indices

/-!
# What generated modules declare

The modules of types, inputs and enums hold one binding for every defined name, made of the last
definition of that name, and each binding declares one item.
-/

namespace SchemaClient

open Code

variable {α β : Type} {m : SchemaModel} {n : String}

/-- A module holds one binding for each of the names, made of what is looked up under the name, and
the binding declares the name of its type. -/
structure Emits (c : Module) (names : List String) (lookup : String → Option α) (make : α → β)
    (source : β → String) (items : β → List Item) (bindings : List β) : Prop where
  holds : c.items = bindings.flatMap items
  once : (bindings.map source).Nodup
  complete : ∀ n, n ∈ bindings.map source ↔ n ∈ names
  made : ∀ b ∈ bindings, ∃ t, lookup (source b) = some t ∧ b = make t
  declares : ∀ b ∈ bindings, (items b).filterMap Item.declares = [Names.typeName (source b)]

section Lookup

variable {name : α → String} {ts : List α} {make : α → β} {source : β → String}

theorem name_of_find? {t : α} (h : ts.find? (name · = n) = some t) : name t = n := by
  simpa using List.find?_some h

theorem find?_reverse (h : n ∈ ts.map name) :
    ∃ t, ts.reverse.find? (name · = n) = some t ∧ name t = n := by
  have found : (ts.reverse.find? (name · = n)).isSome = true := by
    rw [find?_name_isSome, List.map_reverse, List.mem_reverse]
    exact h
  obtain ⟨t, ht⟩ := Option.isSome_iff_exists.mp found
  exact ⟨t, ht, name_of_find? ht⟩

/-- Looking up the last definition of each distinct name. -/
def lastBindings (name : α → String) (make : α → β) (ts : List α) : List β :=
  (distinctBy name ts).filterMap fun t => (ts.reverse.find? (name · = name t)).map make

theorem map_source_lastBindings (hsource : ∀ t, source (make t) = name t) (ts : List α) :
    (lastBindings name make ts).map source = (distinctBy name ts).map name := by
  rw [lastBindings, List.map_filterMap, ← List.filterMap_eq_map]
  refine List.filterMap_congr fun t ht => ?_
  obtain ⟨u, hu, hname⟩ := find?_reverse (List.mem_map_of_mem (mem_of_mem_distinctBy ht))
  rw [hu, Option.map_some, Option.map_some, hsource, hname, Function.comp_apply]

theorem emits_lastBindings (name : α → String) {c : Module} {items : β → List Item}
    (holds : c.items = (lastBindings name make ts).flatMap items)
    (hsource : ∀ t, source (make t) = name t)
    (declares : ∀ b, b ∈ lastBindings name make ts →
      (items b).filterMap Item.declares = [Names.typeName (source b)]) :
    Emits c (ts.map name) (fun n => ts.reverse.find? (name · = n)) make source items
      (lastBindings name make ts) where
  holds := holds
  once := by
    rw [map_source_lastBindings hsource]
    exact nodup_distinctBy name ts
  complete n := by
    rw [map_source_lastBindings hsource]
    exact mem_map_distinctBy
  made b hb := by
    obtain ⟨t, ht, hb⟩ := List.mem_filterMap.mp hb
    obtain ⟨u, hu, rfl⟩ := Option.map_eq_some_iff.mp hb
    exact ⟨u, by rw [hsource, name_of_find? hu, hu], rfl⟩
  declares := declares

end Lookup

section Bindings

theorem declares_objectItems (s : ObjectStruct) : s.items.filterMap Item.declares = [s.name] := by
  rw [ObjectStruct.items]
  split <;> rfl

theorem declares_inputItems (s : InputStruct) : s.items.filterMap Item.declares = [s.name] :=
  rfl

theorem declares_enumItems (e : EnumBinding) : e.items.filterMap Item.declares = [e.name] :=
  rfl

theorem declares_operationItems (s : OperationStruct) :
    s.items.filterMap Item.declares = [s.name] :=
  rfl

/-- The fields of the last definition are those that the index gives. -/
theorem objectStructs_eq (built : m.Built) : ObjectStruct.all m =
    lastBindings ObjectType.name (fun t => ObjectStruct.of m t.name t.fields) m.objectTypes := by
  rw [ObjectStruct.all, lastBindings, ← List.filterMap_eq_map]
  refine List.filterMap_congr fun t ht => ?_
  obtain ⟨u, hu, hname⟩ := find?_reverse (List.mem_map_of_mem (mem_of_mem_distinctBy ht))
  have hlookup : m.objectType? t.name = some u := hu
  rw [hu, Function.comp_apply, built.fieldsOf?, hlookup, Option.map_some, Option.map_some,
    Option.getD_some, hname]

theorem emits_types (built : m.Built) (style : SelectionStyle) :
    Emits (ClientModule.types.code m style) (m.definedNames .object) m.objectType?
      (fun t => .of m t.name t.fields) ObjectStruct.source ObjectStruct.items
      (ObjectStruct.all m) := by
  rw [objectStructs_eq built]
  refine emits_lastBindings ObjectType.name ?_ (fun _ => rfl) fun s hs => ?_
  · rw [← objectStructs_eq built]
    rfl
  · obtain ⟨t, -, hs⟩ := List.mem_filterMap.mp hs
    obtain ⟨u, -, rfl⟩ := Option.map_eq_some_iff.mp hs
    exact declares_objectItems _

theorem emits_inputs (m : SchemaModel) (style : SelectionStyle) :
    Emits (ClientModule.inputs.code m style) (m.definedNames .input) m.inputType?
      (fun t => .of m t.name t.fields) InputStruct.source InputStruct.items
      (InputStruct.all m) := by
  refine emits_lastBindings InputType.name rfl (fun _ => rfl) fun s hs => ?_
  obtain ⟨t, -, hs⟩ := List.mem_filterMap.mp hs
  obtain ⟨u, -, rfl⟩ := Option.map_eq_some_iff.mp hs
  exact declares_inputItems _

theorem emits_enums (m : SchemaModel) (style : SelectionStyle) :
    Emits (ClientModule.enums.code m style) (m.definedNames .enum) m.enumType?
      EnumBinding.of EnumBinding.source EnumBinding.items (EnumBinding.all m) := by
  refine emits_lastBindings EnumType.name rfl (fun _ => rfl) fun e he => ?_
  obtain ⟨t, -, he⟩ := List.mem_filterMap.mp he
  obtain ⟨u, -, rfl⟩ := Option.map_eq_some_iff.mp he
  exact declares_enumItems _

end Bindings

namespace Emits

variable {c : Module} {names : List String} {lookup : String → Option α} {make : α → β}
  {source : β → String} {items : β → List Item} {bindings : List β}

theorem declares_items (h : Emits c names lookup make source items bindings) :
    c.items.filterMap Item.declares = bindings.map fun b => Names.typeName (source b) := by
  rw [h.holds, List.filterMap_flatMap, List.map_eq_flatMap]
  exact List.flatMap_congr h.declares

theorem exists_item (h : Emits c names lookup make source items bindings) (hn : n ∈ names) :
    ∃ item ∈ c.items, item.declares = some (Names.typeName n) := by
  have declared : Names.typeName n ∈ c.items.filterMap Item.declares := by
    rw [h.declares_items, List.mem_map]
    obtain ⟨b, hb, hsource⟩ := List.mem_map.mp ((h.complete n).mpr hn)
    exact ⟨b, hb, by rw [hsource]⟩
  exact List.mem_filterMap.mp declared

end Emits

end SchemaClient
