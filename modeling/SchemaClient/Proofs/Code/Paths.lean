import SchemaClient.Bindings.Client

/-!
# Paths in generated code

All paths that a tree of code holds, in types, in expressions and in attributes. Of interest are
those that lead out of a module into one of its siblings; most of what generated code is made of has
none.
-/

namespace SchemaClient.Code

/-- Whether a path leads through the parent of the module in which it stands. -/
def Path.isSibling (p : Path) : Bool :=
  p.segments.head? = some "super"

@[simp]
theorem Path.isSibling_root (s : String) (rest : List String) :
    (Path.root (s :: rest)).isSibling = decide (s = "super") := by
  simp [isSibling, root]

@[simp]
theorem Path.isSibling_relative (s : String) (rest : List String) :
    (Path.relative (s :: rest)).isSibling = decide (s = "super") := by
  simp [isSibling, relative]

@[simp]
theorem Path.isSibling_name (n : String) : (Path.name n).isSibling = decide (n = "super") := by
  simp [isSibling, name]

def CodeType.paths : CodeType → List Path
  | .path p => [p]
  | .apply head argument => head :: argument.paths
  | .apply2 head first second => head :: (first.paths ++ second.paths)
  | .fused outer inner argument => outer :: inner :: argument.paths
  | .lifetime _ => []
  | .static target => target.paths
  | .reference target => target.paths
  | .mutable target => target.paths
  | .slice element => element.paths
  | .some bound => bound.paths

def Pattern.paths : Pattern → List Path
  | .path p => [p]
  | .literal _ => []
  | .tuple p _ => [p]

mutual

def exprPaths : Expr → List Path
  | .path p => [p]
  | .qualified owner _ => [owner]
  | .literal _ => []
  | .borrow e => exprPaths e
  | .field e _ => exprPaths e
  | .method e _ args => exprPaths e ++ exprsPaths args
  | .call function args _ => function :: exprsPaths args
  | .closure _ body => exprPaths body
  | .construct fields => fields.filterMap (·.2)
  | .assign target value => exprPaths target ++ exprPaths value
  | .array items => exprsPaths items
  | .format args => exprsPaths args
  | .cases e arms => exprPaths e ++ armsPaths arms

def exprsPaths : List Expr → List Path
  | [] => []
  | e :: es => exprPaths e ++ exprsPaths es

def armPaths : Arm → List Path
  | .plain pattern body => pattern.paths ++ exprPaths body
  | .guarded pattern condition body => pattern.paths ++ (exprPaths condition ++ exprPaths body)

def armsPaths : List Arm → List Path
  | [] => []
  | a :: rest => armPaths a ++ armsPaths rest

end

mutual

def statementPaths : Statement → List Path
  | .declare _ value => exprPaths value
  | .effect e => exprPaths e
  | .result e => exprPaths e
  | .whenMatches pattern e body => pattern.paths ++ (exprPaths e ++ statementsPaths body)

def statementsPaths : List Statement → List Path
  | [] => []
  | s :: rest => statementPaths s ++ statementsPaths rest

end

attribute [simp] CodeType.paths exprPaths statementPaths

def Parameter.paths : Parameter → List Path
  | .borrowedSelf | .mutableSelf => []
  | .typed _ type => type.paths

def AttributeEntry.paths : AttributeEntry → List Path
  | .path p => [p]
  | .value _ _ => []

def Attribute.paths : Attribute → List Path
  | .word _ => []
  | .list _ entries _ => entries.flatMap (·.paths)

@[simp]
theorem Attribute.paths_word (name : String) : (Attribute.word name).paths = [] :=
  rfl

@[simp]
theorem Attribute.paths_list (name : String) (entries : List AttributeEntry) (trailing : Bool) :
    (Attribute.list name entries trailing).paths = entries.flatMap (·.paths) :=
  rfl

@[simp]
theorem AttributeEntry.paths_path (p : Path) : (AttributeEntry.path p).paths = [p] :=
  rfl

@[simp]
theorem AttributeEntry.paths_value (key text : String) :
    (AttributeEntry.value key text).paths = [] :=
  rfl

def Function.paths (f : Function) : List Path :=
  f.parameters.flatMap (·.paths) ++ (f.result.paths ++ statementsPaths f.body)

def Constant.paths (c : Constant) : List Path :=
  c.type.paths ++ exprPaths c.value

def AssociatedItem.paths : AssociatedItem → List Path
  | .constant c => c.paths
  | .function _ f => f.paths
  | .documented _ c => c.paths
  | .type _ named => named.paths

def Member.paths (m : Member) : List Path :=
  m.attributes.flatMap (·.paths) ++ m.type.paths

def Variant.paths (v : Variant) : List Path :=
  v.attributes.flatMap (·.paths)

def Item.paths : Item → List Path
  | .struct _ attributes _ members =>
    attributes.flatMap (·.paths) ++ members.flatMap (·.paths)
  | .enum _ attributes _ variants =>
    attributes.flatMap (·.paths) ++ variants.flatMap (·.paths)
  | .block owner _ items => owner.toList ++ items.flatMap (·.paths)
  | .submodule _ => []
  | .reexport root names => names.map fun n => .relative [root, n]

def Module.paths (m : Module) : List Path :=
  m.attributes.flatMap (·.paths) ++ m.items.flatMap (·.paths)

/-! ## Paths to siblings -/

/-- Every path to a sibling satisfies `S`. -/
def Within (S : Path → Prop) (ps : List Path) : Prop :=
  ∀ p ∈ ps, p.isSibling = true → S p

section Within

variable {S : Path → Prop} {α : Type}

@[simp]
theorem within_nil : Within S [] :=
  List.forall_mem_nil _

@[simp]
theorem within_cons {p : Path} {ps : List Path} :
    Within S (p :: ps) ↔ (p.isSibling = true → S p) ∧ Within S ps :=
  List.forall_mem_cons

@[simp]
theorem within_append {ps qs : List Path} :
    Within S (ps ++ qs) ↔ Within S ps ∧ Within S qs :=
  List.forall_mem_append

@[simp]
theorem within_flatMap {f : α → List Path} {xs : List α} :
    Within S (xs.flatMap f) ↔ ∀ x ∈ xs, Within S (f x) :=
  List.forall_mem_flatMap

theorem within_exprs {es : List Expr} :
    Within S (exprsPaths es) ↔ ∀ e ∈ es, Within S (exprPaths e) := by
  induction es with
  | nil => simp [exprsPaths]
  | cons e es ih => rw [exprsPaths, within_append, ih, List.forall_mem_cons]

theorem within_arms {arms : List Arm} :
    Within S (armsPaths arms) ↔ ∀ a ∈ arms, Within S (armPaths a) := by
  induction arms with
  | nil => simp [armsPaths]
  | cons a arms ih => rw [armsPaths, within_append, ih, List.forall_mem_cons]

theorem within_statements {statements : List Statement} :
    Within S (statementsPaths statements) ↔ ∀ s ∈ statements, Within S (statementPaths s) := by
  induction statements with
  | nil => simp [statementsPaths]
  | cons s statements ih => rw [statementsPaths, within_append, ih, List.forall_mem_cons]

theorem mem_iff_not_within {p : Path} (sibling : p.isSibling = true) {ps : List Path} :
    p ∈ ps ↔ ¬ Within (· ≠ p) ps := by
  rw [Within]
  constructor
  · exact fun hp h => h p hp sibling rfl
  · refine fun h => Classical.byContradiction fun hp => h fun q hq _ hqp => hp ?_
    rwa [← hqp]

end Within

end SchemaClient.Code
