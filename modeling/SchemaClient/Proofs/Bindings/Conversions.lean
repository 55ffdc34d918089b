import SchemaClient.Bindings.Conversion

/-!
# Conversions and the types of values

The type of a member tells whether its value is an option, a list and of a generated enum or input.
How the value is converted to JSON is decided elsewhere, by the class that the schema gives its
type. The two agree: what is called on a value is there for its type.
-/

namespace SchemaClient

open Code

/-! ## Reading types and expressions -/

namespace Code

def CodeType.content? : CodeType → Option CodeType
  | .apply head t => if head = Lib.option then Option.some t else none
  | .fused outer inner t => if outer = Lib.option then Option.some (.apply inner t) else none
  | _ => none

def CodeType.IsOption (t : CodeType) : Prop :=
  t.content?.isSome = true

/-- The type without its outer option. -/
def CodeType.present (t : CodeType) : CodeType :=
  t.content?.getD t

/-- A list, or an option of one. -/
def CodeType.IsVec (t : CodeType) : Prop :=
  ∃ e, t.present = .apply Lib.vec e

/-- What lists, options and boxes hold in the end. -/
def CodeType.element : CodeType → CodeType
  | .apply _ t => t.element
  | .fused _ _ t => t.element
  | t => t

/-- The element is declared in a sibling module. -/
def CodeType.IsOf (t : CodeType) (module : String) : Prop :=
  ∃ n, t.element = .path (siblingPath module n)

/-- The module in which the types of a class are declared. -/
def declaringModule? : TypeClass → Option String
  | .enum => some "enums"
  | .object => some "types"
  | .input => some "inputs"
  | .scalar _ | .unknown => none

mutual

/-- The methods that an expression calls. -/
def exprMethods : Expr → List String
  | .path _ | .qualified _ _ | .literal _ | .construct _ => []
  | .borrow e => exprMethods e
  | .field e _ => exprMethods e
  | .method e name args => name :: (exprMethods e ++ exprsMethods args)
  | .call _ args _ => exprsMethods args
  | .closure _ body => exprMethods body
  | .assign target value => exprMethods target ++ exprMethods value
  | .array items => exprsMethods items
  | .format args => exprsMethods args
  | .cases e arms => exprMethods e ++ armsMethods arms

def exprsMethods : List Expr → List String
  | [] => []
  | e :: es => exprMethods e ++ exprsMethods es

def armMethods : Arm → List String
  | .plain _ body => exprMethods body
  | .guarded _ condition body => exprMethods condition ++ exprMethods body

def armsMethods : List Arm → List String
  | [] => []
  | a :: rest => armMethods a ++ armsMethods rest

end

end Code

/-! ## What is to agree -/

/-- `::serde_json::Value::variant(e)`. -/
def jsonValue (variant : String) (e : Expr) (trailing : Bool) : Expr :=
  .call (.root ["serde_json", "Value", variant]) [e] trailing

/-- `Array(place.iter().map(|item| body).collect())`. -/
def eachItem (place body : Expr) : Expr :=
  jsonValue "Array"
    (.method (.method (.method place "iter" []) "map" [.closure "item" body]) "collect" []) true

/-- A method is called on the value at a place, or on each item of the list there, and the outcome
is made a JSON value. -/
structure Calls (method variant : String) (type : CodeType) (place converted : Expr) : Prop where
  items : type.IsVec → converted =
    eachItem place (jsonValue variant (.method (.path (.name "item")) method []) false)
  whole : ¬ type.IsVec → converted = jsonValue variant (.method place method []) false

/-- A value that stands at a place is converted as its type demands. -/
structure Converts (type : CodeType) (place converted : Expr) : Prop where
  as_str : "as_str" ∈ exprMethods converted ↔ type.IsOf "enums"
  to_variables : "to_variables" ∈ exprMethods converted ↔ type.IsOf "inputs"
  iter : "iter" ∈ exprMethods converted ↔
    (type.IsOf "enums" ∨ type.IsOf "inputs") ∧ type.IsVec
  enums : type.IsOf "enums" → Calls "as_str" "from" type place converted
  inputs : type.IsOf "inputs" → Calls "to_variables" "Object" type place converted
  others : ¬ type.IsOf "enums" → ¬ type.IsOf "inputs" → converted =
    .method (.call (.root ["serde_json", "to_value"]) [.borrow place] false) "unwrap_or_default" []

/-! ## Types -/

section Types

variable {m : SchemaModel} {position : Position} {t : TypeRef}

/-- The type of a value that is not null. -/
def presentType (m : SchemaModel) (position : Position) (t : TypeRef) : CodeType :=
  (FieldType.of m position { t with nullable := false }).codeAt position

theorem codeAt_eq_code (h : position ≠ .objectField) (u : FieldType) :
    u.codeAt position = u.code := by
  cases position with
  | objectField => exact absurd rfl h
  | inputField | argument => rfl

/-- Outside object types, where some members are always options. -/
theorem codeAt_of (h : position ≠ .objectField) (m : SchemaModel) (t : TypeRef) :
    (FieldType.of m position t).codeAt position =
      if t.nullable then .apply Lib.option (presentType m position t)
      else presentType m position t := by
  have split : FieldType.of m position t = FieldType.optionalIf t.nullable
      (FieldType.of m position { t with nullable := false }) := by
    unfold FieldType.of
    cases t.isList with
    | true => rfl
    | false =>
      cases position with
      | objectField => exact absurd rfl h
      | inputField => cases m.classOf t.base <;> rfl
      | argument => rfl
  rw [presentType, codeAt_eq_code h, codeAt_eq_code h, split]
  cases t.nullable <;> rfl

/-- A list, a box or a bare element. -/
theorem presentType_eq (h : position ≠ .objectField) (m : SchemaModel) (t : TypeRef) :
    let e := (FieldType.element (m.classOf t.base) t.base).code
    (t.isList = true ∧ presentType m position t = .apply Lib.vec e) ∨
      (t.isList = false ∧ (presentType m position t = .apply Lib.box e ∨
        presentType m position t = e)) := by
  rw [presentType, codeAt_eq_code h]
  unfold FieldType.of
  cases t.isList with
  | true => exact .inl ⟨rfl, rfl⟩
  | false =>
    refine .inr ⟨rfl, ?_⟩
    cases position with
    | objectField => exact absurd rfl h
    | inputField =>
      cases m.classOf t.base with
      | input => exact .inl rfl
      | _ => exact .inr rfl
    | argument => exact .inr rfl

theorem exists_path_element (c : TypeClass) (base : String) :
    ∃ p, (FieldType.element c base).code = .path p := by
  cases c <;> exact ⟨_, rfl⟩

theorem content?_presentType (h : position ≠ .objectField) :
    (presentType m position t).content? = none := by
  obtain ⟨p, hp⟩ := exists_path_element (m.classOf t.base) t.base
  rcases presentType_eq h m t with ⟨-, he⟩ | ⟨-, he | he⟩
  · rw [he, CodeType.content?, if_neg (by decide)]
  · rw [he, CodeType.content?, if_neg (by decide)]
  · rw [he, hp]
    rfl

theorem isOption_iff (h : position ≠ .objectField) :
    ((FieldType.of m position t).codeAt position).IsOption ↔ t.nullable = true := by
  rw [CodeType.IsOption, codeAt_of h]
  cases t.nullable with
  | true => simp [CodeType.content?]
  | false => simp [content?_presentType h]

theorem present_codeAt (h : position ≠ .objectField) :
    ((FieldType.of m position t).codeAt position).present = presentType m position t := by
  rw [CodeType.present, codeAt_of h]
  cases t.nullable with
  | true => simp [CodeType.content?]
  | false => simp [content?_presentType h]

theorem isVec_iff (h : position ≠ .objectField) :
    ((FieldType.of m position t).codeAt position).IsVec ↔ t.isList = true := by
  have box : Lib.box ≠ Lib.vec := by decide
  obtain ⟨p, hp⟩ := exists_path_element (m.classOf t.base) t.base
  rw [CodeType.IsVec, present_codeAt h]
  rcases presentType_eq h m t with ⟨hlist, he⟩ | ⟨hlist, he | he⟩
  · simp [hlist, he]
  · simp [hlist, he, box]
  · simp [hlist, he, hp]

theorem element_codeAt (h : position ≠ .objectField) :
    ((FieldType.of m position t).codeAt position).element =
      (FieldType.element (m.classOf t.base) t.base).code := by
  have present : (presentType m position t).element =
      (FieldType.element (m.classOf t.base) t.base).code := by
    obtain ⟨p, hp⟩ := exists_path_element (m.classOf t.base) t.base
    rcases presentType_eq h m t with ⟨-, he⟩ | ⟨-, he | he⟩ <;>
      simp [he, hp, CodeType.element]
  rw [codeAt_of h]
  split
  · exact present
  · exact present

theorem isOf_iff (h : position ≠ .objectField) (module : String) :
    ((FieldType.of m position t).codeAt position).IsOf module ↔
      declaringModule? (m.classOf t.base) = some module := by
  rw [CodeType.IsOf, element_codeAt h]
  cases m.classOf t.base with
  | scalar kind =>
    cases kind <;> simp [declaringModule?, FieldType.element, FieldType.code, scalarPath,
      siblingPath, Lib.string, Lib.json, Lib.path, Path.root, Path.relative, Path.name]
  | _ => simp [declaringModule?, FieldType.element, FieldType.code, siblingPath, Path.relative,
      Lib.json, Path.root]

theorem isOf_enums_iff (h : position ≠ .objectField) :
    ((FieldType.of m position t).codeAt position).IsOf "enums" ↔ m.classOf t.base = .enum := by
  rw [isOf_iff h]
  cases m.classOf t.base <;> simp [declaringModule?]

theorem isOf_inputs_iff (h : position ≠ .objectField) :
    ((FieldType.of m position t).codeAt position).IsOf "inputs" ↔ m.classOf t.base = .input := by
  rw [isOf_iff h]
  cases m.classOf t.base <;> simp [declaringModule?]

end Types

/-! ## Conversions -/

section Conversions

variable {m : SchemaModel} {position : Position} {f : Field} {place : Expr}

theorem mem_methods_apply {method : String} {c : TypeClass} {isList : Bool}
    (hplace : exprMethods place = []) :
    method ∈ exprMethods ((Conversion.ofClass c).apply isList place) ↔
      method ∈ (if isList && Conversion.ofClass c ≠ .serialize then ["collect", "map", "iter"]
        else []) ∨
      method = match c with
        | .enum => "as_str"
        | .input => "to_variables"
        | .scalar _ | .object | .unknown => "unwrap_or_default" := by
  cases c <;> cases isList <;>
    simp [Conversion.ofClass, Conversion.apply, Conversion.single, Conversion.jsonCall,
      exprMethods, exprsMethods, hplace, or_assoc]

theorem converts (h : position ≠ .objectField) (m : SchemaModel) (t : TypeRef)
    (hplace : exprMethods place = []) :
    Converts ((FieldType.of m position t).codeAt position) place
      ((Conversion.ofClass (m.classOf t.base)).apply t.isList place) := by
  have iter : "iter" ∈ exprMethods ((Conversion.ofClass (m.classOf t.base)).apply t.isList place) ↔
      (t.isList && Conversion.ofClass (m.classOf t.base) ≠ .serialize) = true := by
    rw [mem_methods_apply hplace]
    cases m.classOf t.base <;> cases t.isList <;> simp [Conversion.ofClass]
  refine ⟨?_, ?_, ?_, fun enums => ?_, fun inputs => ?_, fun enums inputs => ?_⟩
  · rw [isOf_enums_iff h, mem_methods_apply hplace]
    cases m.classOf t.base <;> cases t.isList <;> simp [Conversion.ofClass]
  · rw [isOf_inputs_iff h, mem_methods_apply hplace]
    cases m.classOf t.base <;> cases t.isList <;> simp [Conversion.ofClass]
  · rw [iter, isOf_enums_iff h, isOf_inputs_iff h, isVec_iff h]
    cases m.classOf t.base <;> cases t.isList <;> simp [Conversion.ofClass]
  · rw [(isOf_enums_iff h).mp enums]
    exact ⟨fun vec => if_pos (by simpa [Conversion.ofClass] using (isVec_iff h).mp vec),
      fun whole => if_neg (by simpa [Conversion.ofClass] using mt (isVec_iff h).mpr whole)⟩
  · rw [(isOf_inputs_iff h).mp inputs]
    exact ⟨fun vec => if_pos (by simpa [Conversion.ofClass] using (isVec_iff h).mp vec),
      fun whole => if_neg (by simpa [Conversion.ofClass] using mt (isVec_iff h).mpr whole)⟩
  · rw [isOf_enums_iff h] at enums
    rw [isOf_inputs_iff h] at inputs
    have serialised : Conversion.ofClass (m.classOf t.base) = .serialize := by
      cases hclass : m.classOf t.base with
      | enum => exact absurd hclass enums
      | input => exact absurd hclass inputs
      | scalar | object | unknown => rfl
    rw [serialised]
    exact if_neg (by simp)

end Conversions

end SchemaClient
