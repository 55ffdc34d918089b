import SchemaClient.Proofs.Bindings.Scopes

/-!
# Running generated code

The values that methods of generated structs compute with, and what their expressions, statements
and functions give. This covers texts, options and the members of a struct; other code has no value
here. A reference is read as what it refers to.
-/

namespace SchemaClient.Evaluation

open Code

inductive Value
  | text (s : String)
  | truth (b : Bool)
  | absent
  | present (content : Value)
  /-- A struct with its members. -/
  | record (members : List (String × Value))

namespace Value

def text? : Value → Option String
  | text s => some s
  | _ => none

def member? (name : String) : Value → Option Value
  | record members => members.lookup name
  | _ => none

/-- Stores a value in a member that the struct has. -/
def store? (name : String) (value : Value) : Value → Option Value
  | record members =>
    if name ∈ members.map Prod.fst then
      some (record (members.map fun e => if e.1 = name then (name, value) else e))
    else none
  | _ => none

/-- A value that is stored is the one that is found. -/
theorem store?_record {name : String} {members : List (String × Value)}
    (h : name ∈ members.map Prod.fst) (value : Value) :
    ∃ members', store? name value (record members) = some (record members') ∧
      members'.lookup name = some value := by
  refine ⟨_, if_pos h, ?_⟩
  induction members with
  | nil => cases h
  | cons e members ih =>
    by_cases he : e.1 = name
    · rw [List.map_cons, if_pos he, List.lookup_cons_self]
    · rw [List.map_cons, List.mem_cons] at h
      have other : (name == e.1) = false := beq_false_of_ne (Ne.symm he)
      rw [List.map_cons, if_neg he, List.lookup_cons, other]
      exact ih (h.resolve_left (Ne.symm he))

/-- A text from a template: empty braces take the next argument, and a doubled brace is one. -/
def fill : List Char → List String → Option (List Char)
  | [], [] => some []
  | [], _ :: _ => none
  | '\x7b' :: '\x7d' :: cs, arg :: args => (fill cs args).map (arg.toList ++ ·)
  | '\x7b' :: '\x7b' :: cs, args => (fill cs args).map ('\x7b' :: ·)
  | '\x7d' :: '\x7d' :: cs, args => (fill cs args).map ('\x7d' :: ·)
  | c :: cs, args => if c = '\x7b' ∨ c = '\x7d' then none else (fill cs args).map (c :: ·)

def format? : List Value → Option Value
  | text template :: args => do
    pure (text (String.ofList (← fill template.toList (← args.mapM text?))))
  | _ => none

def method? (name : String) (args : List Value) (receiver : Value) : Option Value :=
  match receiver, name, args with
  | text s, "trim", [] => some (text (String.ofList (Text.trim s.toList)))
  | text s, "is_empty", [] => some (truth s.toList.isEmpty)
  | text s, "into", [] => some (text s)
  | _, _, _ => none

def call? (function : Path) (args : List Value) : Option Value :=
  match args with
  | [value] =>
    if function = Lib.optionSome then some (present value)
    else if function = Lib.path ["string", "String", "from"] then value.text?.map text
    else none
  | _ => none

end Value

abbrev Locals := List (String × Value)

/-- The variables that a pattern binds, if it matches the value. -/
def bindings? : Pattern → Value → Option Locals
  | .path p, .absent => if p = Lib.optionNone then some [] else none
  | .tuple p binder, .present content =>
    if p = Lib.optionSome then some [(binder, content)] else none
  | .literal text, .text s => if s = text then some [] else none
  | _, _ => none

/-! ## Expressions and statements -/

/-- The value of a constant of the type itself or of one of its traits. -/
abbrev Constants := Option Path → String → Option Value

/-- A path to a variable, to a constant of `Self` or to the absent value. -/
def pathValue? (constants : Constants) (locals : Locals) (p : Path) : Option Value :=
  if p = Lib.optionNone then some .absent
  else if p.absolute then none
  else
    match p.segments with
    | [name] => locals.lookup name
    | ["Self", name] => constants none name
    | _ => none

mutual

def evaluate (constants : Constants) (locals : Locals) : Expr → Option Value
  | .path p => pathValue? constants locals p
  | .qualified owner name => constants (some owner) name
  | .literal text => some (.text text)
  | .borrow e => evaluate constants locals e
  | .field e name => (evaluate constants locals e).bind (Value.member? name)
  | .method e name args =>
    (evaluate constants locals e).bind fun receiver =>
      (evaluateAll constants locals args).bind fun args => receiver.method? name args
  | .call function args _ => (evaluateAll constants locals args).bind (Value.call? function)
  | .format args => (evaluateAll constants locals args).bind Value.format?
  | .cases e arms =>
    (evaluate constants locals e).bind fun value => choose constants locals value arms
  | .closure _ _ | .construct _ | .assign _ _ | .array _ => none

def evaluateAll (constants : Constants) (locals : Locals) : List Expr → Option (List Value)
  | [] => some []
  | e :: es =>
    (evaluate constants locals e).bind fun value =>
      (evaluateAll constants locals es).map (value :: ·)

/-- The first arm that matches and whose condition holds. -/
def choose (constants : Constants) (locals : Locals) (value : Value) : List Arm → Option Value
  | [] => none
  | .plain pattern body :: arms =>
    match bindings? pattern value with
    | some bound => evaluate constants (bound ++ locals) body
    | none => choose constants locals value arms
  | .guarded pattern condition body :: arms =>
    match bindings? pattern value with
    | some bound =>
      match evaluate constants (bound ++ locals) condition with
      | some (.truth true) => evaluate constants (bound ++ locals) body
      | some (.truth false) => choose constants locals value arms
      | _ => none
    | none => choose constants locals value arms

end

def run (constants : Constants) (locals : Locals) : List Statement → Option Value
  | [.result e] => evaluate constants locals e
  | .effect (.assign (.field (.path ⟨false, [owner]⟩) member) e) :: rest =>
    (evaluate constants locals e).bind fun value =>
      ((locals.lookup owner).bind (Value.store? member value)).bind fun stored =>
        run constants ((owner, stored) :: locals) rest
  | _ => none

section Paths

variable (constants : Constants) (locals : Locals)

@[simp] theorem pathValue?_variable (name : String) :
    pathValue? constants locals (.name name) = locals.lookup name := by
  rw [pathValue?, if_neg (by simp [Path.name, Lib.optionNone, Lib.path, Path.root])]
  rfl

@[simp] theorem pathValue?_ownConstant (name : String) :
    pathValue? constants locals (.relative ["Self", name]) = constants none name := by
  rw [pathValue?, if_neg (by simp [Path.relative, Lib.optionNone, Lib.path, Path.root])]
  rfl

theorem evaluate_ownField (name : String) : evaluate constants locals (ownField name) =
    (locals.lookup "self").bind (Value.member? name) := by
  rw [ownField, evaluate, evaluate, pathValue?_variable]

end Paths

section Arms

variable {constants : Constants} {locals bound : Locals} {value : Value} {pattern : Pattern}
  {condition body : Expr} {arms : List Arm}

theorem choose_plain (matching : bindings? pattern value = some bound) :
    choose constants locals value (.plain pattern body :: arms) =
      evaluate constants (bound ++ locals) body := by
  rw [choose, matching]

theorem choose_guarded {b : Bool} (matching : bindings? pattern value = some bound)
    (h : evaluate constants (bound ++ locals) condition = some (.truth b)) :
    choose constants locals value (.guarded pattern condition body :: arms) =
      if b then evaluate constants (bound ++ locals) body
      else choose constants locals value arms := by
  rw [choose, matching]
  cases b with
  | true => simp only [h, if_true]
  | false => simp only [h, Bool.false_eq_true, if_false]

end Arms

/-! ## Functions and constants of a type -/

def parameterName : Parameter → String
  | .borrowedSelf | .mutableSelf => "self"
  | .typed name _ => name

def callFunction (constants : Constants) (f : Function) (args : List Value) : Option Value :=
  if f.parameters.length = args.length then
    run constants ((f.parameters.map parameterName).zip args) f.body
  else none

/-- What the blocks of a type hold for itself or for a trait. -/
def associated (items : List Item) (owner : Option Path) (type : String) : List AssociatedItem :=
  items.flatMap fun
    | .block owner' type' inner => if owner' = owner ∧ type' = type then inner else []
    | _ => []

def function? (name : String) : AssociatedItem → Option Function
  | .function _ f => if f.name = name then some f else none
  | _ => none

def constant? (name : String) : AssociatedItem → Option Constant
  | .constant c | .documented _ c => if c.name = name then some c else none
  | _ => none

/-- Constants are given by expressions without variables. -/
def constantsOf (items : List Item) (type : String) : Constants := fun owner name =>
  ((associated items owner type).findSome? (constant? name)).bind fun c =>
    evaluate (fun _ _ => none) [] c.value

/-- Calls a function of a type, or of the type for a trait. -/
def callOf (items : List Item) (owner : Option Path) (type name : String) (args : List Value) :
    Option Value :=
  ((associated items owner type).findSome? (function? name)).bind fun f =>
    callFunction (constantsOf items type) f args

section Associated

variable {inner : List AssociatedItem} {item : AssociatedItem} {items : List Item}
  {owner : Option Path} {type name : String}

theorem function?_eq_none (h : item.name ≠ name) : function? name item = none := by
  cases item with
  | function docs f => exact if_neg h
  | constant => rfl
  | documented => rfl
  | type => rfl

theorem constant?_eq_none (h : item.name ≠ name) : constant? name item = none := by
  cases item with
  | constant c => exact if_neg h
  | documented docs c => exact if_neg h
  | function => rfl
  | type => rfl

/-- Where names are declared once, a lookup by name finds the item that has it. -/
theorem findSome?_of_mem {α : Type} {pick : AssociatedItem → Option α} {x : α}
    (distinct : (inner.map AssociatedItem.name).Nodup) (h : item ∈ inner)
    (found : pick item = some x) (others : ∀ other, other.name ≠ item.name → pick other = none) :
    inner.findSome? pick = some x := by
  induction inner with
  | nil => cases h
  | cons first inner ih =>
    rw [List.map_cons, List.nodup_cons] at distinct
    rcases List.mem_cons.mp h with rfl | h
    · rw [List.findSome?_cons, found]
    · have other : first.name ≠ item.name := fun heq =>
        distinct.1 (heq ▸ List.mem_map_of_mem h)
      rw [List.findSome?_cons, others first other]
      exact ih distinct.2 h

theorem callOf_of_mem {docs : List Doc} {f : Function}
    (distinct : ((associated items owner type).map AssociatedItem.name).Nodup)
    (h : .function docs f ∈ associated items owner type) (args : List Value) :
    callOf items owner type f.name args = callFunction (constantsOf items type) f args := by
  have found : (associated items owner type).findSome? (function? f.name) = some f :=
    findSome?_of_mem distinct h (if_pos rfl) fun _ => function?_eq_none
  rw [callOf, found, Option.bind_some]

theorem constantsOf_of_mem {visible : Bool} {codeType : CodeType} {text : String}
    (distinct : ((associated items owner type).map AssociatedItem.name).Nodup)
    (h : .constant ⟨visible, name, codeType, .literal text⟩ ∈ associated items owner type) :
    constantsOf items type owner name = some (.text text) := by
  have found : (associated items owner type).findSome? (constant? name) =
      some ⟨visible, name, codeType, .literal text⟩ :=
    findSome?_of_mem distinct h (if_pos rfl) fun _ => constant?_eq_none
  rw [constantsOf, found, Option.bind_some, evaluate]

end Associated

end SchemaClient.Evaluation
