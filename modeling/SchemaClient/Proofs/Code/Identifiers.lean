import SchemaClient.Bindings.Client
import SchemaClient.Proofs.Names.Legal

/-!
# Identifiers in generated code

All names that a tree of code holds: those that it declares and those in paths, fields, calls and
attributes. The words `self`, `Self` and `super` at the head of a path that is not absolute are
keywords there and no names; nor are lifetimes. Of interest is whether all of them are legal.
-/

namespace SchemaClient.Code

open Names

/-- Keywords that a path may start with. -/
def pathKeywords : List String :=
  ["self", "Self", "super"]

def Path.identifiers (p : Path) : List String :=
  match p.segments with
  | [] => []
  | s :: rest => if !p.absolute && pathKeywords.contains s then rest else s :: rest

@[simp]
theorem Path.identifiers_root (segments : List String) :
    (Path.root segments).identifiers = segments := by
  cases segments <;> simp [identifiers, root]

@[simp]
theorem Path.identifiers_relative (s : String) (rest : List String) :
    (Path.relative (s :: rest)).identifiers = if s ∈ pathKeywords then rest else s :: rest := by
  simp [identifiers, relative]

@[simp]
theorem Path.identifiers_name (n : String) :
    (Path.name n).identifiers = if n ∈ pathKeywords then [] else [n] := by
  simp [identifiers, name]

def CodeType.identifiers : CodeType → List String
  | .path p => p.identifiers
  | .apply head argument => head.identifiers ++ argument.identifiers
  | .apply2 head first second => head.identifiers ++ (first.identifiers ++ second.identifiers)
  | .fused outer inner argument => outer.identifiers ++ (inner.identifiers ++ argument.identifiers)
  | .lifetime _ => []
  | .static target => target.identifiers
  | .reference target => target.identifiers
  | .mutable target => target.identifiers
  | .slice element => element.identifiers
  | .some bound => bound.identifiers

def Pattern.identifiers : Pattern → List String
  | .path p => p.identifiers
  | .literal _ => []
  | .tuple p binder => binder :: p.identifiers

mutual

def exprIdentifiers : Expr → List String
  | .path p => p.identifiers
  | .qualified owner name => name :: owner.identifiers
  | .literal _ => []
  | .borrow e => exprIdentifiers e
  | .field e name => name :: exprIdentifiers e
  | .method e name args => name :: (exprIdentifiers e ++ exprsIdentifiers args)
  | .call function args _ => function.identifiers ++ exprsIdentifiers args
  | .closure parameter body => parameter :: exprIdentifiers body
  | .construct fields =>
    fields.flatMap fun (name, value) => name :: (value.map Path.identifiers).getD []
  | .assign target value => exprIdentifiers target ++ exprIdentifiers value
  | .array items => exprsIdentifiers items
  | .format args => exprsIdentifiers args
  | .cases e arms => exprIdentifiers e ++ armsIdentifiers arms

def exprsIdentifiers : List Expr → List String
  | [] => []
  | e :: es => exprIdentifiers e ++ exprsIdentifiers es

def armIdentifiers : Arm → List String
  | .plain pattern body => pattern.identifiers ++ exprIdentifiers body
  | .guarded pattern condition body =>
    pattern.identifiers ++ (exprIdentifiers condition ++ exprIdentifiers body)

def armsIdentifiers : List Arm → List String
  | [] => []
  | a :: rest => armIdentifiers a ++ armsIdentifiers rest

end

mutual

def statementIdentifiers : Statement → List String
  | .declare name value => name :: exprIdentifiers value
  | .effect e => exprIdentifiers e
  | .result e => exprIdentifiers e
  | .whenMatches pattern e body =>
    pattern.identifiers ++ (exprIdentifiers e ++ statementsIdentifiers body)

def statementsIdentifiers : List Statement → List String
  | [] => []
  | s :: rest => statementIdentifiers s ++ statementsIdentifiers rest

end

def Parameter.identifiers : Parameter → List String
  | .borrowedSelf | .mutableSelf => []
  | .typed name type => name :: type.identifiers

def AttributeEntry.identifiers : AttributeEntry → List String
  | .path p => p.identifiers
  | .value key _ => [key]

def Attribute.identifiers : Attribute → List String
  | .word name => [name]
  | .list name entries _ => name :: entries.flatMap (·.identifiers)

@[simp]
theorem AttributeEntry.identifiers_path (p : Path) :
    (AttributeEntry.path p).identifiers = p.identifiers :=
  rfl

@[simp]
theorem AttributeEntry.identifiers_value (key text : String) :
    (AttributeEntry.value key text).identifiers = [key] :=
  rfl

@[simp]
theorem Attribute.identifiers_word (name : String) : (Attribute.word name).identifiers = [name] :=
  rfl

@[simp]
theorem Attribute.identifiers_list (name : String) (entries : List AttributeEntry)
    (trailing : Bool) :
    (Attribute.list name entries trailing).identifiers =
      name :: entries.flatMap (·.identifiers) :=
  rfl

def Function.identifiers (f : Function) : List String :=
  f.name :: (f.parameters.flatMap (·.identifiers) ++
    (f.result.identifiers ++ statementsIdentifiers f.body))

def Constant.identifiers (c : Constant) : List String :=
  c.name :: (c.type.identifiers ++ exprIdentifiers c.value)

def AssociatedItem.identifiers : AssociatedItem → List String
  | .constant c => c.identifiers
  | .function _ f => f.identifiers
  | .documented _ c => c.identifiers
  | .type name named => name :: named.identifiers

def Member.identifiers (m : Member) : List String :=
  m.name :: (m.attributes.flatMap (·.identifiers) ++ m.type.identifiers)

def Variant.identifiers (v : Variant) : List String :=
  v.name :: v.attributes.flatMap (·.identifiers)

def Item.identifiers : Item → List String
  | .struct _ attributes name members =>
    name :: (attributes.flatMap (·.identifiers) ++ members.flatMap (·.identifiers))
  | .enum _ attributes name variants =>
    name :: (attributes.flatMap (·.identifiers) ++ variants.flatMap (·.identifiers))
  | .block owner name items =>
    name :: ((owner.map Path.identifiers).getD [] ++ items.flatMap (·.identifiers))
  | .submodule name => [name]
  | .reexport root names => root :: names

def Module.identifiers (m : Module) : List String :=
  m.attributes.flatMap (·.identifiers) ++ m.items.flatMap (·.identifiers)

/-! ## Legal names -/

def AllLegal (ns : List String) : Prop :=
  ∀ n ∈ ns, Legal n

section Lists

variable {α : Type}

@[simp]
theorem allLegal_nil : AllLegal [] :=
  List.forall_mem_nil _

@[simp]
theorem allLegal_cons {n : String} {ns : List String} :
    AllLegal (n :: ns) ↔ Legal n ∧ AllLegal ns :=
  List.forall_mem_cons

@[simp]
theorem allLegal_append {ns ms : List String} :
    AllLegal (ns ++ ms) ↔ AllLegal ns ∧ AllLegal ms :=
  List.forall_mem_append

@[simp]
theorem allLegal_flatMap {f : α → List String} {xs : List α} :
    AllLegal (xs.flatMap f) ↔ ∀ x ∈ xs, AllLegal (f x) :=
  List.forall_mem_flatMap

theorem allLegal_exprs {es : List Expr} :
    AllLegal (exprsIdentifiers es) ↔ ∀ e ∈ es, AllLegal (exprIdentifiers e) := by
  induction es with
  | nil => simp [exprsIdentifiers]
  | cons e es ih => rw [exprsIdentifiers, allLegal_append, ih, List.forall_mem_cons]

theorem allLegal_arms {arms : List Arm} :
    AllLegal (armsIdentifiers arms) ↔ ∀ a ∈ arms, AllLegal (armIdentifiers a) := by
  induction arms with
  | nil => simp [armsIdentifiers]
  | cons a arms ih => rw [armsIdentifiers, allLegal_append, ih, List.forall_mem_cons]

theorem allLegal_statements {statements : List Statement} :
    AllLegal (statementsIdentifiers statements) ↔
      ∀ s ∈ statements, AllLegal (statementIdentifiers s) := by
  induction statements with
  | nil => simp [statementsIdentifiers]
  | cons s statements ih =>
    rw [statementsIdentifiers, allLegal_append, ih, List.forall_mem_cons]

end Lists

end SchemaClient.Code
