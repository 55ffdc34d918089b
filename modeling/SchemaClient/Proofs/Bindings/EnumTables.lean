import SchemaClient.Proofs.Bindings.Agreement
import SchemaClient.Proofs.Bindings.Evaluation
import SchemaClient.Proofs.Bindings.LegalNames

/-!
# Enums and their texts

Which variant stands for which value is said more than once in a generated enum: by the names that
variants are renamed to, by the order of the list of all variants, and by the conversions to a text
and back. All of them agree. The conversions are inverse to each other between the variants and the
values of the enum, and any other text is refused.
-/

namespace SchemaClient

open Code Names Evaluation

/-! ## Reading enums -/

namespace Code

def Variant.rename? (v : Variant) : Option String :=
  v.attributes.findSome? Attribute.rename?

def Variant.isDefault (v : Variant) : Bool :=
  v.attributes.any fun
    | .word "default" => true
    | _ => false

/-- The variants of each enum among the items. -/
def enums (items : List Item) : List (List Variant) :=
  items.filterMap fun
    | .enum _ _ _ variants => some variants
    | _ => none

end Code

namespace EnumTables

/-- What conversions of an enum take and give. The text of an error is left out. -/
inductive Value
  | text (s : String)
  | variant (name : String)
  | ok (content : Value)
  | err

abbrev Locals := List (String × Value)

section Conversions

variable (variants : List String) (locals : Locals)

/-- A path to a variant that is declared, or to a variable. -/
def pathValue? (p : Path) : Option Value :=
  if p.absolute then none
  else
    match p.segments with
    | [name] => locals.lookup name
    | ["Self", name] => if name ∈ variants then some (.variant name) else none
    | _ => none

/-- The variables that a pattern binds, if it matches the value. A name by itself matches all. -/
def bindings? : Pattern → Value → Option Locals
  | .path ⟨false, [binder]⟩, value => some [(binder, value)]
  | .path ⟨false, ["Self", name]⟩, .variant v =>
    if name ∈ variants ∧ v = name then some [] else none
  | .literal text, .text s => if s = text then some [] else none
  | _, _ => none

def evaluate : Expr → Option Value
  | .path p => pathValue? variants locals p
  | .literal text => some (.text text)
  | .call function args _ =>
    if function = EnumBinding.resultErr then some .err
    else
      match args with
      | [.path p] =>
        if function = EnumBinding.resultOk then (pathValue? variants locals p).map .ok else none
      | _ => none
  | _ => none

/-- The body of the first arm that matches. -/
def choose (value : Value) : List Arm → Option Value
  | .plain pattern body :: arms =>
    match bindings? variants pattern value with
    | some bound => evaluate variants (bound ++ locals) body
    | none => choose value arms
  | _ => none

def run : List Statement → Option Value
  | [.result (.cases e arms)] =>
    (evaluate variants locals e).bind fun value => choose variants locals value arms
  | _ => none

end Conversions

/-- Calls a function of an enum, or of the enum for a trait, with a single argument. -/
def call (items : List Item) (owner : Option Path) (type name : String) (argument : Value) :
    Option Value :=
  ((associated items owner type).findSome? (function? name)).bind fun f =>
    match f.parameters with
    | [p] => run ((enums items).flatten.map Variant.name) [(parameterName p, argument)] f.body
    | _ => none

/-- What `as_str` gives for a variant. -/
def toText (items : List Item) (type v : String) : Option Value :=
  call items none type "as_str" (.variant v)

/-- What `from_str` gives for a text. -/
def fromText (items : List Item) (type text : String) : Option Value :=
  call items (some (Lib.path ["str", "FromStr"])) type "from_str" (.text text)

/-- What the items of the constant `ALL` are. -/
def listed (items : List Item) (type : String) : Option (List (Option Value)) :=
  ((associated items none type).findSome? (constant? "ALL")).bind fun c =>
    match c.value with
    | .borrow (.array es) => some (es.map (evaluate ((enums items).flatten.map Variant.name) []))
    | _ => none

/-- The variants of an enum stand for the values given, each of them once and in their order. -/
structure StandFor (items : List Item) (type : String) (variants : List Variant)
    (values : List String) : Prop where
  identifiers : DistinctIdentifiers (variants.map Variant.name)
  listed : listed items type = some (variants.map fun v => some (.variant v.name))
  renames : variants.map Variant.rename? = values.eraseDups.map some
  texts : variants.map (fun v => toText items type v.name) =
    values.eraseDups.map fun text => some (.text text)
  inverse : ∀ text v, fromText items type text = some (.ok (.variant v)) ↔
    v ∈ variants.map Variant.name ∧ toText items type v = some (.text text)
  refused : ∀ text, fromText items type text = some .err ↔ text ∉ values
  default : (variants.filter Variant.isDefault).map Variant.rename? = (values.take 1).map some

/-! ## Arms made of a table -/

section Arms

variable {variants : List String} {locals bound : Locals} {value : Value} {α : Type}
  {table : List α} {pattern : α → Pattern} {body : α → Expr} {x : α}

theorem bindings?_variant (name v : String) :
    bindings? variants (.path (EnumBinding.ownPath name)) (.variant v) =
      if name ∈ variants ∧ v = name then some [] else none :=
  rfl

theorem bindings?_literal (text s : String) :
    bindings? variants (.literal text) (.text s) = if s = text then some [] else none :=
  rfl

theorem bindings?_name (binder : String) (value : Value) :
    bindings? variants (.path (.name binder)) value = some [(binder, value)] := by
  cases value <;> rfl

theorem pathValue?_variant {name : String} (declared : name ∈ variants) :
    pathValue? variants locals (EnumBinding.ownPath name) = some (.variant name) :=
  if_pos declared

/-- The only entry of a table that matches is the one whose arm is taken. -/
theorem choose_of_mem (hx : x ∈ table)
    (matching : bindings? variants (pattern x) value = some bound)
    (only : ∀ y ∈ table, y ≠ x → bindings? variants (pattern y) value = none) (rest : List Arm) :
    choose variants locals value (table.map (fun y => .plain (pattern y) (body y)) ++ rest) =
      evaluate variants (bound ++ locals) (body x) := by
  induction table with
  | nil => cases hx
  | cons y table ih =>
    rw [List.map_cons, List.cons_append, choose]
    by_cases same : y = x
    · simp only [same, matching]
    · have inside : x ∈ table := (List.mem_cons.mp hx).resolve_left (Ne.symm same)
      simp only [only y List.mem_cons_self same]
      exact ih inside fun z hz => only z (List.mem_cons_of_mem _ hz)

theorem choose_of_forall (nothing : ∀ y ∈ table, bindings? variants (pattern y) value = none)
    (rest : List Arm) :
    choose variants locals value (table.map (fun y => .plain (pattern y) (body y)) ++ rest) =
      choose variants locals value rest := by
  induction table with
  | nil => rfl
  | cons y table ih =>
    rw [List.map_cons, List.cons_append, choose]
    simp only [nothing y List.mem_cons_self]
    exact ih fun z hz => nothing z (List.mem_cons_of_mem _ hz)

end Arms

/-! ## Conversions of a binding -/

section Bindings

variable (b : EnumBinding)

theorem enums_items : enums b.items = [EnumBinding.variantsOf true b.variants] :=
  rfl

theorem declared_items :
    (enums b.items).flatten.map Variant.name = b.variants.map Prod.snd := by
  rw [enums_items, List.flatten_singleton, names_variantsOf]

theorem associated_own : associated b.items none b.name =
    [.documented [.comment " Every value, in schema order."] b.allConstant,
      .function [.comment " The raw schema value."] b.asStr] := by
  simp [associated, EnumBinding.items, Lib.path, Path.root]

theorem associated_fromStr : associated b.items (some (Lib.path ["str", "FromStr"])) b.name =
    [.type "Err" (.path Lib.string), .function [] b.fromStr] := by
  simp [associated, EnumBinding.items, Lib.path, Path.root]

theorem toText_eq (v : String) : toText b.items b.name v =
    choose (b.variants.map Prod.snd) [("self", .variant v)] (.variant v)
      (b.variants.map
        (fun x => .plain (.path (EnumBinding.ownPath x.2)) (.literal x.1)) ++ []) := by
  rw [toText, call, associated_own, declared_items, List.append_nil]
  rfl

theorem fromText_eq (text : String) : fromText b.items b.name text =
    choose (b.variants.map Prod.snd) [("value", .text text)] (.text text)
      (b.variants.map (fun x => .plain (.literal x.1)
          (.call EnumBinding.resultOk [.path (EnumBinding.ownPath x.2)] false)) ++
        [.plain (.path (.name "other")) (.call EnumBinding.resultErr
          [.format [.literal ("unknown " ++ b.source ++ " value: \x7b\x7d"),
            .path (.name "other")]]
          false)]) := by
  rw [fromText, call, associated_fromStr, declared_items]
  rfl

theorem listed_items :
    listed b.items b.name = some (b.variants.map fun x => some (.variant x.2)) := by
  rw [listed, associated_own, declared_items]
  refine congrArg some (List.map_map.trans (List.map_congr_left fun x hx => ?_))
  rw [Function.comp_apply, evaluate]
  exact pathValue?_variant (List.mem_map_of_mem hx)

variable {b} {text v : String}

theorem toText_of_mem (distinct : (b.variants.map Prod.snd).Nodup) (h : (text, v) ∈ b.variants) :
    toText b.items b.name v = some (.text text) := by
  have declared : v ∈ b.variants.map Prod.snd := List.mem_map_of_mem h
  rw [toText_eq, choose_of_mem h ((bindings?_variant v v).trans (if_pos ⟨declared, rfl⟩))]
  · rfl
  · intro y hy other
    refine (bindings?_variant y.2 v).trans (if_neg fun ⟨_, same⟩ => other ?_)
    exact List.inj_on_of_nodup_map distinct hy h same.symm

theorem fromText_of_mem (distinct : (b.variants.map Prod.fst).Nodup)
    (h : (text, v) ∈ b.variants) :
    fromText b.items b.name text = some (.ok (.variant v)) := by
  have declared : v ∈ b.variants.map Prod.snd := List.mem_map_of_mem h
  rw [fromText_eq, choose_of_mem h ((bindings?_literal text text).trans (if_pos rfl))]
  · rw [evaluate, if_neg (by decide), if_pos rfl, pathValue?_variant declared, Option.map_some]
  · intro y hy other
    refine (bindings?_literal y.1 text).trans (if_neg fun same => other ?_)
    exact List.inj_on_of_nodup_map distinct hy h same.symm

theorem fromText_of_not_mem (h : text ∉ b.variants.map Prod.fst) :
    fromText b.items b.name text = some .err := by
  rw [fromText_eq, choose_of_forall, choose, bindings?_name]
  · rfl
  · intro y hy
    refine (bindings?_literal y.1 text).trans (if_neg fun same => h ?_)
    rw [same]
    exact List.mem_map_of_mem hy

theorem toText_iff (distinct : (b.variants.map Prod.snd).Nodup)
    (declared : v ∈ b.variants.map Prod.snd) :
    toText b.items b.name v = some (.text text) ↔ (text, v) ∈ b.variants := by
  obtain ⟨⟨raw, _⟩, h, rfl⟩ := List.mem_map.mp declared
  constructor
  · intro given
    rw [toText_of_mem distinct h] at given
    cases given
    exact h
  · exact toText_of_mem distinct

theorem fromText_iff (distinct : (b.variants.map Prod.fst).Nodup) :
    fromText b.items b.name text = some (.ok (.variant v)) ↔ (text, v) ∈ b.variants := by
  constructor
  · intro given
    by_cases known : text ∈ b.variants.map Prod.fst
    · obtain ⟨⟨_, w⟩, h, rfl⟩ := List.mem_map.mp known
      rw [fromText_of_mem distinct h] at given
      cases given
      exact h
    · rw [fromText_of_not_mem known] at given
      cases given
  · exact fromText_of_mem distinct

theorem fromText_eq_err_iff (distinct : (b.variants.map Prod.fst).Nodup) :
    fromText b.items b.name text = some .err ↔ text ∉ b.variants.map Prod.fst := by
  constructor
  · intro given known
    obtain ⟨⟨_, w⟩, h, rfl⟩ := List.mem_map.mp known
    rw [fromText_of_mem distinct h] at given
    cases given
  · exact fromText_of_not_mem

end Bindings

/-! ## Variants -/

theorem map_name_variantsOf {β : Type} (f : String → β) (table : List (String × String)) :
    (EnumBinding.variantsOf true table).map (fun v => f v.name) = table.map fun x => f x.2 :=
  calc (EnumBinding.variantsOf true table).map (fun v => f v.name)
      = ((EnumBinding.variantsOf true table).map Variant.name).map f := List.map_map.symm
    _ = (table.map Prod.snd).map f := by rw [names_variantsOf]
    _ = table.map fun x => f x.2 := List.map_map

theorem renames_variantsOf (isFirst : Bool) (table : List (String × String)) :
    (EnumBinding.variantsOf isFirst table).map Variant.rename? = (table.map Prod.fst).map some := by
  induction table generalizing isFirst with
  | nil => rfl
  | cons x table ih =>
    rw [EnumBinding.variantsOf, List.map_cons, ih, List.map_cons, List.map_cons]
    cases isFirst <;> rfl

theorem not_isDefault (table : List (String × String)) :
    ∀ v ∈ EnumBinding.variantsOf false table, v.isDefault = false := by
  induction table with
  | nil => exact List.forall_mem_nil _
  | cons x table ih => exact List.forall_mem_cons.mpr ⟨rfl, ih⟩

theorem filter_isDefault (table : List (String × String)) :
    ((EnumBinding.variantsOf true table).filter Variant.isDefault).map Variant.rename? =
      ((table.map Prod.fst).take 1).map some := by
  cases table with
  | nil => rfl
  | cons x table =>
    have others : (EnumBinding.variantsOf false table).filter Variant.isDefault = [] :=
      List.filter_eq_nil_iff.mpr fun v hv => by simp [not_isDefault table v hv]
    rw [EnumBinding.variantsOf, List.filter_cons_of_pos rfl, others]
    rfl

theorem take_eraseDups (values : List String) : values.eraseDups.take 1 = values.take 1 := by
  cases values with
  | nil => rfl
  | cons v rest => rw [List.eraseDups_cons, List.take_succ_cons, List.take_succ_cons,
    List.take_zero, List.take_zero]

/-- Where every value has a name of its own, what is made of them agrees. -/
theorem standFor {b : EnumBinding} {values : List String}
    (raws : b.variants.map Prod.fst = values.eraseDups) (names : (b.variants.map Prod.snd).Nodup)
    (legal : ∀ x ∈ b.variants, Legal x.2) :
    StandFor b.items b.name (EnumBinding.variantsOf true b.variants) values := by
  have distinct : (b.variants.map Prod.fst).Nodup := by
    rw [raws, ← List.map_id values, ← map_distinctBy]
    exact nodup_distinctBy id values
  have declared := names_variantsOf true b.variants
  constructor
  case identifiers =>
    rw [declared]
    exact distinctIdentifiers (List.forall_mem_map.mpr legal) names
  case listed =>
    rw [map_name_variantsOf fun n => some (Value.variant n)]
    exact listed_items b
  case renames => rw [renames_variantsOf, raws]
  case texts =>
    rw [map_name_variantsOf (toText b.items b.name), ← raws, List.map_map]
    exact List.map_congr_left fun x hx => toText_of_mem names hx
  case inverse =>
    intro text v
    rw [declared, fromText_iff distinct]
    constructor
    · intro h
      exact ⟨List.mem_map_of_mem h, toText_of_mem names h⟩
    · rintro ⟨hv, given⟩
      exact (toText_iff names hv).mp given
  case refused =>
    intro text
    rw [← List.mem_eraseDups, ← raws]
    exact fromText_eq_err_iff distinct
  case default => rw [filter_isDefault, raws, take_eraseDups]

section Values

variable (e : EnumType)

theorem values_variants : (EnumBinding.of e).variants.map Prod.fst = e.values.eraseDups := by
  have length := length_claimAll_map [] variantName (distinctBy id e.values)
  have values := map_distinctBy id e.values
  rw [List.map_id, List.map_id] at values
  rw [EnumBinding.of, List.map_fst_zip (Nat.le_of_eq length.symm), values]

theorem nodup_names : ((EnumBinding.of e).variants.map Prod.snd).Nodup := by
  rw [names_variants]
  exact claimAll_nodup _ _

/-- One enum is generated for a definition, whatever its values are. Its variants stand for the
values, the first of them being the default: what is read from a text is the variant that is
written as that text, and a text that is no value is refused. -/
theorem variants_stand_for_values :
    ∃ variants, enums (EnumBinding.of e).items = [variants] ∧
      StandFor (EnumBinding.of e).items (typeName e.name) variants e.values :=
  ⟨_, enums_items _, standFor (values_variants e) (nodup_names e) (legal_variants e)⟩

/-- Values that are spelled alike have variants of their own. -/
example : (EnumBinding.of
      ⟨"Resolution", ["1080P", "SELF", "in_progress", "IN_PROGRESS", "SELF"]⟩).variants =
    [("1080P", "_1080P"), ("SELF", "Self_"), ("in_progress", "InProgress"),
      ("IN_PROGRESS", "InProgress_2")] := by
  decide +kernel

end Values

end EnumTables

end SchemaClient
