import Mathlib.Data.List.Forall2
import SchemaClient.Operation.Selection

/-!
# Selections follow the branches of the type graph

A branch lists the types that are expanded one inside the other, the innermost first. What stands at
the end of a branch is settled by the branch alone: one node for every field of the innermost type,
closed where the branch already holds the type of the field, where it is five types long, or where
that type has no fields. The type graph may be cyclic and may name types that are not defined.
-/

namespace SchemaClient.Selection

variable {m : SchemaModel} {root type : String} {branch above : List String}
  {ns children : List SelectionNode} {fields : List Field} {f : Field} {n : SelectionNode}

/-- `ns` is the selection of the innermost type of a branch that starts at `root`. -/
inductive Expanded (m : SchemaModel) (root : String) : List String → List SelectionNode → Prop
  | root : build m root ≠ [] → Expanded m root [root] (build m root)
  | field {type : String} {above : List String} {ns children : List SelectionNode}
      {fields : List Field} {i : Nat} {f : Field} {name : String} :
      Expanded m root (type :: above) ns → m.fieldsOf? type = some fields →
      fields[i]? = some f → ns[i]? = some (.object name children) → children ≠ [] →
      Expanded m root (f.type.base :: type :: above) children

/-- The base type has no fields to select, or none are known. -/
def IsLeafBase (m : SchemaModel) (base : String) : Prop :=
  m.isLeaf base = true ∨ m.fieldsOf? base = none

/-- What stands for a field of the innermost type of a branch. -/
inductive NodeOf (m : SchemaModel) (branch : List String) (f : Field) : SelectionNode → Prop
  | leaf : IsLeafBase m f.type.base → NodeOf m branch f (.leaf f.name)
  | object {children : List SelectionNode} : ¬ IsLeafBase m f.type.base →
      (children = [] ↔ f.type.base ∈ branch ∨ branch.length = 5 ∨
        m.fieldsOf? f.type.base = some []) →
      NodeOf m branch f (.object f.name children)

theorem expands_eq_false_iff (m : SchemaModel) (base : String) :
    expands m base = false ↔ IsLeafBase m base := by
  cases hl : m.isLeaf base <;> cases hf : m.fieldsOf? base <;> simp [expands, IsLeafBase, hl, hf]

section Levels

variable {levels : Nat}

theorem nodes_of_fields (fresh : type ∉ above) (open? : m.isLeaf type = false)
    (known : m.fieldsOf? type = some fields) :
    nodes m (levels + 1) above type = fields.map fun f =>
      if expands m f.type.base then
        .object f.name (nodes m levels (type :: above) f.type.base)
      else .leaf f.name := by
  simp [nodes, fresh, open?, known]

theorem nodes_eq_nil_iff : nodes m levels above type = [] ↔
    levels = 0 ∨ type ∈ above ∨ IsLeafBase m type ∨ m.fieldsOf? type = some [] := by
  cases levels with
  | zero => simp [nodes]
  | succ levels =>
    by_cases fresh : type ∈ above
    · simp [nodes, fresh]
    · cases open? : m.isLeaf type with
      | true => simp [nodes, IsLeafBase, open?]
      | false =>
        cases known : m.fieldsOf? type with
        | none => simp [nodes, IsLeafBase, fresh, open?, known]
        | some fields =>
          simp [nodes_of_fields fresh open? known, IsLeafBase, fresh, open?, known]

/-- A selection with nodes comes from a type that is new on its branch and has known fields. -/
theorem fields_of_nodes_ne_nil (h : nodes m levels above type ≠ []) :
    ∃ fields rest, levels = rest + 1 ∧ type ∉ above ∧ m.isLeaf type = false ∧
      m.fieldsOf? type = some fields := by
  rw [Ne, nodes_eq_nil_iff] at h
  simp only [IsLeafBase, not_or, Bool.not_eq_true] at h
  obtain ⟨hlevels, fresh, ⟨open?, known⟩, -⟩ := h
  obtain ⟨fields, known⟩ := Option.ne_none_iff_exists'.mp known
  exact ⟨fields, levels - 1, by omega, fresh, open?, known⟩

end Levels

/-- What holds on every branch: its types differ, five at most, and the nodes at its end are those
that the types above the innermost one leave room for. -/
structure OnBranch (m : SchemaModel) (root : String) (branch : List String)
    (ns : List SelectionNode) : Prop where
  distinct : branch.Nodup
  starts : branch.getLast? = some root
  ends : ∃ type above, branch = type :: above ∧ above.length < maxDepth ∧
    ns = nodes m (maxDepth - above.length) above type ∧ ns ≠ []

theorem onBranch_of_expanded (h : Expanded m root branch ns) : OnBranch m root branch ns := by
  induction h with
  | root hne => exact ⟨by simp, rfl, root, [], rfl, by decide, rfl, hne⟩
  | @field type above ns children fields i f name _ known hf hnode hne ih =>
    obtain ⟨distinct, starts, type', above', hbranch, short, rfl, hns⟩ := ih
    obtain ⟨rfl, rfl⟩ := List.cons.inj hbranch
    obtain ⟨fields', levels, hlevels, fresh, open?, known'⟩ := fields_of_nodes_ne_nil hns
    obtain rfl : fields = fields' := by simpa [known] using known'
    rw [hlevels, nodes_of_fields fresh open? known, List.getElem?_map, hf, Option.map_some,
      Option.some.injEq] at hnode
    split at hnode
    · obtain ⟨-, rfl⟩ := SelectionNode.object.inj hnode
      have hlevels' : levels = maxDepth - (type :: above).length := by
        rw [List.length_cons]
        omega
      obtain ⟨-, rest, hrest, fresh', -⟩ := fields_of_nodes_ne_nil hne
      refine ⟨List.nodup_cons.mpr ⟨fresh', distinct⟩, ?_, _, _, rfl, ?_, by rw [hlevels'], hne⟩
      · rw [List.getLast?_cons_cons]
        exact starts
      · rw [List.length_cons]
        omega
    · cases hnode

theorem nodeOf_of_levels {levels : Nat} (room : levels = maxDepth - branch.length)
    (short : branch.length ≤ maxDepth) (f : Field) :
    NodeOf m branch f (if expands m f.type.base then
      .object f.name (nodes m levels branch f.type.base) else .leaf f.name) := by
  cases hx : expands m f.type.base with
  | false => exact .leaf ((expands_eq_false_iff m _).mp hx)
  | true =>
    have hleaf : ¬ IsLeafBase m f.type.base := by
      rw [← expands_eq_false_iff, hx]
      simp
    refine .object hleaf ?_
    have full : levels = 0 ↔ branch.length = 5 := by
      simp only [maxDepth] at room short
      omega
    rw [nodes_eq_nil_iff, full]
    simp only [hleaf, false_or]
    exact or_left_comm

/-- A selection is empty exactly for a type without known fields. Otherwise it has one node for
every field, in order, and so has every selection inside it; which of these are left empty, and what
stands in the others, depends on the branch that leads there and on nothing else. -/
theorem build_eq_expansion (m : SchemaModel) (root : String) :
    (build m root = [] ↔ IsLeafBase m root ∨ m.fieldsOf? root = some []) ∧
    (∀ branch ns, Expanded m root branch ns →
      branch.Nodup ∧ branch.length ≤ 5 ∧ branch.getLast? = some root ∧
      ∃ type above fields, branch = type :: above ∧ m.fieldsOf? type = some fields ∧
        List.Forall₂ (NodeOf m branch) fields ns) ∧
    (∀ branch ns ns', Expanded m root branch ns → Expanded m root branch ns' → ns = ns') := by
  refine ⟨?_, ?_, ?_⟩
  · rw [build, nodes_eq_nil_iff]
    simp [maxDepth]
  · intro branch ns h
    obtain ⟨distinct, starts, type, above, rfl, short, rfl, hne⟩ := onBranch_of_expanded h
    obtain ⟨fields, levels, hlevels, fresh, open?, known⟩ := fields_of_nodes_ne_nil hne
    have room : (type :: above).length ≤ maxDepth := short
    refine ⟨distinct, room, starts, type, above, fields, rfl, known, ?_⟩
    rw [hlevels, nodes_of_fields fresh open? known, List.forall₂_map_right_iff]
    apply List.forall₂_same.mpr
    intro f _
    refine nodeOf_of_levels ?_ room f
    rw [List.length_cons]
    omega
  · intro branch ns ns' h h'
    obtain ⟨-, -, type, above, hbranch, -, rfl, -⟩ := onBranch_of_expanded h
    obtain ⟨-, -, type', above', hbranch', -, rfl, -⟩ := onBranch_of_expanded h'
    rw [hbranch] at hbranch'
    obtain ⟨rfl, rfl⟩ := List.cons.inj hbranch'
    rfl

/-- Two types whose fields lead to each other. -/
def ring : SchemaModel :=
  .of [⟨"User", [.of "posts" "[Post]"]⟩, ⟨"Post", [.of "author" "User!"]⟩] [] [] [] []

theorem build_eq_expansion_ring :
    Expanded ring "User" ["Post", "User"] [.object "author" []] ∧
      ∃ type above fields, ["Post", "User"] = type :: above ∧ ring.fieldsOf? type = some fields ∧
        List.Forall₂ (NodeOf ring ["Post", "User"]) fields [.object "author" []] := by
  have built : build ring "User" = [.object "posts" [.object "author" []]] := rfl
  have start : Expanded ring "User" ["User"] [.object "posts" [.object "author" []]] := by
    rw [← built]
    exact .root (by simp [built])
  have branch : Expanded ring "User" ["Post", "User"] [.object "author" []] :=
    .field (i := 0) (f := .of "posts" "[Post]") start rfl rfl rfl (by simp)
  exact ⟨branch, ((build_eq_expansion ring "User").2.1 _ _ branch).2.2.2⟩

end SchemaClient.Selection
