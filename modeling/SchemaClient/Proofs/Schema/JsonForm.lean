import SchemaClient.Proofs.Dictionary
import SchemaClient.Proofs.Json.WrittenText
import SchemaClient.Schema.Codec

/-!
# Nothing is lost in JSON

What is written of a schema model, or of a part of it, is read back as the same value. A reader
inverts a writer at a value if it makes the value of the outline of what was written, under every
budget that is enough for the levels of nesting. The readers of the model invert their writers by
their build: words, lists, dictionaries and records of parts that are inverted.
-/

namespace SchemaClient

namespace Json

/-- A reader gives back what was written of `x`, which is nested at most `levels` deep and has no
numbers in it. -/
structure Inverts {α : Type} (read : Reader α) (write : α → Json) (levels : Nat) (x : α) :
    Prop where
  numberless : (write x).Numberless
  depth_le : (write x).depth ≤ levels
  read_outline : ∀ depth, levels < depth → read depth (write x).outline = .ok x

@[simp] theorem ok_bind {ε α β : Type} (x : α) (f : α → Except ε β) : (.ok x >>= f) = f x := rfl

theorem Inverts.mono {α : Type} {read : Reader α} {write : α → Json} {levels levels' : Nat} {x : α}
    (h : Inverts read write levels x) (more : levels ≤ levels') : Inverts read write levels' x :=
  ⟨h.numberless, h.depth_le.trans more, fun depth hdepth => h.read_outline depth (by omega)⟩

namespace Outline

theorem enter_of_lt {depth : Nat} (h : 1 < depth) : enter depth = .ok (depth - 1) := by
  rw [enter, if_neg (by omega)]

mutual

/-- Every value is read as free JSON within its levels of nesting. -/
theorem exists_readJson : ∀ (j : Json) (depth : Nat), j.depth < depth →
    ∃ v, readJson depth j.outline = .ok v
  | .null, _, _ => ⟨_, rfl⟩
  | .bool _, _, _ => ⟨_, rfl⟩
  | .int _, _, _ => ⟨_, rfl⟩
  | .double _, _, _ => ⟨_, rfl⟩
  | .str _, _, _ => ⟨_, rfl⟩
  | .arr xs, depth, h => by
    rw [Json.depth] at h
    obtain ⟨vs, hvs⟩ := exists_readItems xs (depth - 1) (by omega)
    refine ⟨.arr vs, ?_⟩
    simp [outline, readJson, enter_of_lt (show 1 < depth by omega), hvs, closing]
  | .obj ms, depth, h => by
    rw [Json.depth] at h
    obtain ⟨d, hd⟩ := exists_readMembers ms (depth - 1) [] (by omega)
    refine ⟨.obj d, ?_⟩
    simp [outline, readJson, enter_of_lt (show 1 < depth by omega), hd, closing]

theorem exists_readItems : ∀ (xs : List Json) (depth : Nat), depthItems xs < depth →
    ∃ vs, readItems depth (outlineItems xs) = .ok vs
  | [], _, _ => ⟨_, rfl⟩
  | x :: xs, depth, h => by
    rw [depthItems] at h
    obtain ⟨v, hv⟩ := exists_readJson x depth (by omega)
    obtain ⟨vs, hvs⟩ := exists_readItems xs depth (by omega)
    exact ⟨v :: vs, by simp [outlineItems, readItems, hv, hvs]⟩

theorem exists_readMembers : ∀ (ms : List (String × Json)) (depth : Nat)
    (found : Dictionary Json), depthMembers ms < depth →
    ∃ d, readMembers depth found (outlineMembers ms) = .ok d
  | [], _, _, _ => ⟨_, rfl⟩
  | (k, v) :: ms, depth, found, h => by
    rw [depthMembers] at h
    obtain ⟨w, hw⟩ := exists_readJson v depth (by omega)
    obtain ⟨d, hd⟩ := exists_readMembers ms depth (found.insert k w) (by omega)
    exact ⟨d, by simp [outlineMembers, readMembers, hw, hd]⟩

end

end Outline

namespace Reader

open Outline

variable {α β σ : Type} {read : Reader α} {write : α → Json} {levels : Nat} {x : α}

theorem text_of_outline {s : String} {j : Json} (scanned : ofText s = (j.outline, none))
    (h : read budget j.outline = .ok x) : read.text s = .ok x := by
  simp [text, scanned, h, closing]

/-! ## Words, lists and dictionaries -/

theorem inverts_string (s : String) : Inverts string .str 0 s :=
  ⟨trivial, Nat.le_refl 0, fun _ _ => rfl⟩

theorem inverts_bool (b : Bool) : Inverts bool .bool 0 b :=
  ⟨trivial, Nat.le_refl 0, fun _ _ => rfl⟩

theorem inverts_oneOf {parse : String → Option α} {name : α → String}
    (h : parse (name x) = some x) : Inverts (oneOf parse) (fun x => .str (name x)) 0 x := by
  refine ⟨trivial, Nat.le_refl 0, ?_⟩
  intro depth _
  simp [outline, oneOf, h, pure, Except.pure]

theorem inverts_option {o : Option α} (h : ∀ x ∈ o, Inverts read write levels x)
    (present : ∀ x, write x ≠ .null) : Inverts (option read) (ofOption write) levels o := by
  cases o with
  | none => exact ⟨trivial, Nat.zero_le _, fun _ _ => rfl⟩
  | some x =>
    have hx := h x rfl
    refine ⟨hx.numberless, hx.depth_le, ?_⟩
    intro depth hdepth
    have notNull : (write x).outline ≠ .null := by
      cases hw : write x with
      | null => exact absurd hw (present x)
      | _ => simp [outline]
    rw [ofOption, option]
    · rw [hx.read_outline depth hdepth]
      rfl
    · exact notNull

section Lists

variable {xs : List α}

theorem fits_map (h : ∀ x ∈ xs, Inverts read write levels x) :
    NumberlessItems (xs.map write) ∧ depthItems (xs.map write) ≤ levels := by
  induction xs with
  | nil => exact ⟨trivial, Nat.zero_le _⟩
  | cons x xs ih =>
    obtain ⟨hx, hxs⟩ := List.forall_mem_cons.mp h
    obtain ⟨numberless, depth⟩ := ih hxs
    refine ⟨⟨hx.numberless, numberless⟩, ?_⟩
    rw [List.map_cons, depthItems]
    exact Nat.max_le.mpr ⟨hx.depth_le, depth⟩

theorem listFrom_outline (h : ∀ x ∈ xs, Inverts read write levels x) (depth : Nat)
    (hdepth : levels < depth) : listFrom read depth (outlineItems (xs.map write)) = .ok xs := by
  induction xs with
  | nil => rfl
  | cons x xs ih =>
    obtain ⟨hx, hxs⟩ := List.forall_mem_cons.mp h
    simp [outlineItems, listFrom, hx.read_outline depth hdepth, ih hxs]

theorem inverts_list (h : ∀ x ∈ xs, Inverts read write levels x) :
    Inverts (list read) (ofList write) (levels + 1) xs := by
  obtain ⟨numberless, depth⟩ := fits_map h
  refine ⟨numberless, Nat.succ_le_succ depth, ?_⟩
  intro depth hdepth
  have elements := listFrom_outline h (depth - 1) (by omega)
  simp [ofList, outline, list, enter_of_lt (show 1 < depth by omega), elements, closing]

end Lists

section Dictionaries

variable {d : Dictionary α}

theorem fits_dictionary (h : ∀ e ∈ d, Inverts read write levels e.2) :
    NumberlessMembers (d.map fun e => (e.1, write e.2)) ∧
      depthMembers (d.map fun e => (e.1, write e.2)) ≤ levels := by
  induction d with
  | nil => exact ⟨trivial, Nat.zero_le _⟩
  | cons e d ih =>
    obtain ⟨he, hd⟩ := List.forall_mem_cons.mp h
    obtain ⟨numberless, depth⟩ := ih hd
    refine ⟨⟨he.numberless, numberless⟩, ?_⟩
    rw [List.map_cons, depthMembers]
    exact Nat.max_le.mpr ⟨he.depth_le, depth⟩

/-- Entries in the order of their keys are collected in this order. -/
theorem dictionaryFrom_outline (h : ∀ e ∈ d, Inverts read write levels e.2) (depth : Nat)
    (hdepth : levels < depth) (found : Dictionary α) (sorted : Dictionary.Sorted (found ++ d)) :
    dictionaryFrom read depth found (outlineMembers (d.map fun e => (e.1, write e.2))) =
      .ok (found ++ d) := by
  induction d generalizing found with
  | nil => simp [outlineMembers, dictionaryFrom]
  | cons e d ih =>
    obtain ⟨he, hd⟩ := List.forall_mem_cons.mp h
    have last : ∀ e' ∈ found, e'.1 < e.1 := by
      intro e' he'
      exact (List.pairwise_append.mp sorted).2.2 e' he' e List.mem_cons_self
    have moved : found ++ e :: d = found ++ [(e.1, e.2)] ++ d := by simp
    rw [moved] at sorted ⊢
    simp only [List.map_cons, outlineMembers, dictionaryFrom, ok_bind,
      he.read_outline depth hdepth, Dictionary.insert_of_forall_lt last]
    exact ih hd _ sorted

theorem inverts_dictionary (sorted : d.Sorted) (h : ∀ e ∈ d, Inverts read write levels e.2) :
    Inverts (dictionary read) (dictionaryJson write) (levels + 1) d := by
  obtain ⟨numberless, depth⟩ := fits_dictionary h
  refine ⟨numberless, Nat.succ_le_succ depth, ?_⟩
  intro depth hdepth
  have entries := dictionaryFrom_outline h (depth - 1) (by omega) [] sorted
  simp [dictionaryJson, outline, dictionary, enter_of_lt (show 1 < depth by omega), entries,
    closing]

end Dictionaries

/-! ## Records -/

section Records

variable {fields : List (Field σ)} {start draft draft' : σ} {finish : Form → σ → Option α}
  {ms : List (String × Json)}

/-- The members fill a draft to another one. -/
structure Fills (fields : List (Field σ)) (levels : Nat) (draft : σ) (ms : List (String × Json))
    (draft' : σ) : Prop where
  numberless : NumberlessMembers ms
  depth_le : depthMembers ms ≤ levels
  fill_outline : ∀ depth, levels < depth →
    fillMembers fields depth draft (outlineMembers ms) = .ok draft'

theorem fills_nil : Fills fields levels draft [] draft :=
  ⟨trivial, Nat.zero_le _, fun _ _ => rfl⟩

/-- A member fills the field of its name, whose place in the draft is still empty. -/
theorem Fills.cons {name : String} {read : Reader β} {write : β → Json} {get : σ → Option β}
    {set : β → σ → σ} {v : β} (h : Inverts read write levels v)
    (found : fields.find? (·.name = name) = some (field name read get set))
    (empty : get draft = none) (later : Fills fields levels (set v draft) ms draft') :
    Fills fields levels draft ((name, write v) :: ms) draft' := by
  refine ⟨⟨h.numberless, later.numberless⟩, Nat.max_le.mpr ⟨h.depth_le, later.depth_le⟩, ?_⟩
  intro depth hdepth
  have value := h.read_outline depth hdepth
  simp [outlineMembers, fillMembers, found, field, empty, value, Except.map,
    later.fill_outline depth hdepth]

/-- A record is read from its members if they fill a draft that can be finished. -/
theorem inverts_record {write : α → Json} (draft : σ) (h : Fills fields levels start ms draft)
    (written : write x = .obj ms) (finished : finish .named draft = some x) :
    Inverts (record fields start finish) write (levels + 1) x := by
  constructor
  · rw [written]
    exact h.numberless
  · rw [written]
    exact Nat.succ_le_succ h.depth_le
  · intro depth hdepth
    have filled := h.fill_outline (depth - 1) (by omega)
    simp [written, outline, record, enter_of_lt (show 1 < depth by omega), filled, closing,
      finished, pure, Except.pure]

theorem inverts_named {key : String} {make : String → α → β} {name : String} {y : β}
    {write' : β → Json} (h : Inverts read write levels x) (other : key ≠ "name")
    (written : write' y = .obj [("name", .str name), (key, write x)]) (made : make name x = y) :
    Inverts (named key read make) write' (levels + 1) y := by
  have found : (namedFields key read).find? (·.name = key) =
      some (field key read (·.content) fun v d => { d with content := some v }) := by
    simp [namedFields, field, Ne.symm other]
  refine inverts_record ⟨some name, some x⟩ ?_ written (congrArg some made)
  refine .cons ((inverts_string name).mono (Nat.zero_le _)) rfl rfl ?_
  exact .cons h found rfl fills_nil

end Records

/-! ## The parts of a model -/

theorem inverts_typeRef (t : TypeRef) : Inverts typeRef TypeRef.json 1 t := by
  refine inverts_record ⟨some t.raw, some t.base, some t.nullable, some t.isList⟩ ?_ rfl rfl
  refine .cons (inverts_string t.raw) rfl rfl ?_
  refine .cons (inverts_string t.base) rfl rfl ?_
  refine .cons (inverts_bool t.nullable) rfl rfl ?_
  exact .cons (inverts_bool t.isList) rfl rfl fills_nil

theorem inverts_schemaField (f : SchemaClient.Field) : Inverts schemaField Field.json 2 f :=
  inverts_named (inverts_typeRef f.type) (by decide) rfl rfl

theorem inverts_schemaFields (fields : List SchemaClient.Field) :
    Inverts (list schemaField) fieldsJson 3 fields :=
  inverts_list fun f _ => inverts_schemaField f

theorem inverts_operationField (f : OperationField) :
    Inverts operationField OperationField.json 4 f := by
  refine inverts_record ⟨some f.name, some f.args, some f.returnType⟩ ?_ rfl rfl
  refine .cons ((inverts_string f.name).mono (by decide)) rfl rfl ?_
  refine .cons (inverts_schemaFields f.args) rfl rfl ?_
  exact .cons ((inverts_typeRef f.returnType).mono (by decide)) rfl rfl fills_nil

theorem inverts_objectType (t : ObjectType) : Inverts objectType ObjectType.json 4 t :=
  inverts_named (inverts_schemaFields t.fields) (by decide) rfl rfl

theorem inverts_inputType (t : InputType) : Inverts inputType InputType.json 4 t :=
  inverts_named (inverts_schemaFields t.fields) (by decide) rfl rfl

theorem inverts_enumType (t : EnumType) : Inverts enumType EnumType.json 2 t :=
  inverts_named (inverts_list fun s _ => inverts_string s) (by decide) rfl rfl

theorem inverts_definitionKind (k : DefinitionKind) :
    Inverts definitionKind DefinitionKind.json 0 k :=
  inverts_oneOf (by cases k <;> rfl)

theorem inverts_scalarKind (k : ScalarKind) : Inverts scalarKind ScalarKind.json 0 k :=
  inverts_oneOf (by cases k <;> rfl)

/-! ## Tagged definitions -/

section Tagged

variable {tag word : String} {parse : String → Option α} {ms : List (String × Json)}

theorem splitTag_outline (absent : ∀ m ∈ ms, m.1 ≠ tag) (depth : Nat)
    (hdepth : depthMembers ms < depth) (found : Option α) :
    splitTag tag parse depth found (outlineMembers ms) = .ok (found, outlineMembers ms) := by
  induction ms with
  | nil => rfl
  | cons m ms ih =>
    obtain ⟨other, absent⟩ := List.forall_mem_cons.mp absent
    rw [depthMembers] at hdepth
    obtain ⟨v, hv⟩ := exists_readJson m.2 depth (by omega)
    simp [outlineMembers, splitTag, other, hv, ih absent (by omega), pure, Except.pure]

/-- The tag stands first, so nothing but it is taken out. -/
theorem tagged_outline (parsed : parse word = some x) (absent : ∀ m ∈ ms, m.1 ≠ tag) (depth : Nat)
    (hdepth : depthMembers ms + 1 < depth) :
    tagged tag parse depth (Json.obj ((tag, .str word) :: ms)).outline =
      .ok (x, (Json.obj ms).outline) := by
  have rest : splitTag tag parse (depth - 1) (some x) (outlineMembers ms) =
      .ok (some x, outlineMembers ms) := splitTag_outline absent (depth - 1) (by omega) _
  simp [outline, outlineMembers, tagged, enter_of_lt (show 1 < depth by omega), splitTag, wordOf,
    string, parsed, rest, closing, pure, Except.pure]

end Tagged

section Definitions

variable (d : Definition)

/-- What is written of a definition beside its kind. -/
def untagged : Definition → Json
  | .object t => t.json
  | .input t => t.json
  | .enum t => t.json

theorem exists_members_definition : ∃ ms, untagged d = .obj ms ∧
    d.json = .obj (("kind", d.kind.json) :: ms) ∧ ∀ m ∈ ms, m.1 ≠ "kind" := by
  cases d with
  | object t => exact ⟨t.members, rfl, rfl, by simp [ObjectType.members]⟩
  | input t => exact ⟨t.members, rfl, rfl, by simp [InputType.members]⟩
  | enum t => exact ⟨t.members, rfl, rfl, by simp [EnumType.members]⟩

theorem untagged_fits : (untagged d).Numberless ∧ (untagged d).depth ≤ 4 := by
  cases d with
  | object t => exact ⟨(inverts_objectType t).numberless, (inverts_objectType t).depth_le⟩
  | input t => exact ⟨(inverts_inputType t).numberless, (inverts_inputType t).depth_le⟩
  | enum t =>
    have h := (inverts_enumType t).mono (show 2 ≤ 4 by decide)
    exact ⟨h.numberless, h.depth_le⟩

theorem tagged_definition (depth : Nat) (hdepth : 4 < depth) :
    tagged "kind" DefinitionKind.ofKeyword? depth d.json.outline =
      .ok (d.kind, (untagged d).outline) := by
  obtain ⟨ms, rest, written, absent⟩ := exists_members_definition d
  have parsed : DefinitionKind.ofKeyword? d.kind.keyword = some d.kind := by
    cases d with
    | object | input | enum => rfl
  have shallow := (untagged_fits d).2
  rw [rest, Json.depth] at shallow
  rw [written, rest]
  exact tagged_outline parsed absent depth (by omega)

theorem inverts_definition : Inverts definition Definition.json 4 d := by
  obtain ⟨ms, rest, written, -⟩ := exists_members_definition d
  obtain ⟨numberless, shallow⟩ := untagged_fits d
  rw [rest] at numberless shallow
  refine ⟨?_, ?_, ?_⟩
  · rw [written]
    exact ⟨trivial, numberless⟩
  · have atTag : (Json.obj (("kind", d.kind.json) :: ms)).depth = (Json.obj ms).depth := by
      simp [Json.depth, depthMembers, DefinitionKind.json]
    rw [written, atTag]
    exact shallow
  · intro depth hdepth
    have split := tagged_definition d depth hdepth
    cases d with
    | object t =>
      have content := (inverts_objectType t).read_outline depth hdepth
      simp [definition, split, Definition.kind, untagged, content, Except.map, Except.mapError]
    | input t =>
      have content := (inverts_inputType t).read_outline depth hdepth
      simp [definition, split, Definition.kind, untagged, content, Except.map, Except.mapError]
    | enum t =>
      have content := (inverts_enumType t).read_outline depth (by omega)
      simp [definition, split, Definition.kind, untagged, content, Except.map, Except.mapError]

end Definitions

section Classes

variable {depth : Nat} {name : ClassName} {c : TypeClass} {x : Outline}
  {ms : List (Except ReadError String × Outline)}

theorem typeClassFrom_nil (draft : ClassDraft) : typeClassFrom depth draft [] = .ok draft := rfl

theorem typeClassFrom_name {word : String} (h : className? word = some name) :
    typeClassFrom depth .empty ((.ok "class", .text (.ok word)) :: ms) =
      typeClassFrom depth (.named name) ms := by
  have read : wordOf className? depth (.text (.ok word)) = .ok name := by
    simp [wordOf, string, h, pure, Except.pure]
  change (wordOf className? depth (.text (.ok word)) >>= fun name =>
    typeClassFrom depth (.named name) ms) = _
  rw [read, ok_bind]

theorem typeClassFrom_content (h : classContent name depth x = .ok c) :
    typeClassFrom depth (.named name) ((.ok "scalar", x) :: ms) =
      typeClassFrom depth (.full c) ms := by
  change (classContent name depth x >>= fun c => typeClassFrom depth (.full c) ms) = _
  rw [h, ok_bind]

theorem typeClass_scalar (k : ScalarKind) (hdepth : 1 < depth) :
    typeClass depth (TypeClass.scalar k).json.outline = .ok (.scalar k) := by
  have kind := (inverts_scalarKind k).read_outline (depth - 1) (by omega)
  have content : classContent .scalar (depth - 1) k.json.outline = .ok (.scalar k) := by
    rw [classContent, kind]
    rfl
  have name : className? "scalar" = some .scalar := rfl
  simp [TypeClass.json, TypeClass.name, outline, outlineMembers, typeClass, enter_of_lt hdepth,
    typeClassFrom_name name, typeClassFrom_content content, typeClassFrom_nil, closing, pure,
    Except.pure]

theorem typeClass_plain (written : c.json = .obj [("class", .str c.name)])
    (parsed : className? c.name = some (.plain c)) (hdepth : 1 < depth) :
    typeClass depth c.json.outline = .ok c := by
  simp [written, outline, outlineMembers, typeClass, enter_of_lt hdepth,
    typeClassFrom_name parsed, typeClassFrom_nil, closing, pure, Except.pure]

end Classes

theorem inverts_typeClass (c : TypeClass) : Inverts typeClass TypeClass.json 1 c := by
  constructor
  · cases c with
    | scalar | enum | object | input | unknown =>
      simp [TypeClass.json, ScalarKind.json, Numberless, NumberlessMembers]
  · cases c with
    | scalar | enum | object | input | unknown =>
      simp [TypeClass.json, ScalarKind.json, Json.depth, depthMembers]
  · intro depth hdepth
    cases c with
    | scalar k => exact typeClass_scalar k hdepth
    | enum | object | input | unknown => exact typeClass_plain rfl rfl hdepth

theorem inverts_typeMapping (m : TypeMapping) : Inverts typeMapping TypeMapping.json 2 m := by
  have scalar : Inverts (option scalarKind) (ofOption ScalarKind.json) 0 m.scalar :=
    inverts_option (fun k _ => inverts_scalarKind k) (by simp [ScalarKind.json])
  refine inverts_record ⟨some m.base, some m.nullable, some m.isList, some m.scalar,
    some m.typeClass⟩ ?_ rfl rfl
  refine .cons ((inverts_string m.base).mono (by decide)) rfl rfl ?_
  refine .cons ((inverts_bool m.nullable).mono (by decide)) rfl rfl ?_
  refine .cons ((inverts_bool m.isList).mono (by decide)) rfl rfl ?_
  refine .cons (scalar.mono (by decide)) rfl rfl ?_
  exact .cons (inverts_typeClass m.typeClass) rfl rfl fills_nil

theorem inverts_schemaModel (m : SchemaModel) (kinds : m.kindIndex.Sorted)
    (fields : m.fieldsByType.Sorted) : Inverts schemaModel SchemaModel.json 6 m := by
  have objects := inverts_list fun t (_ : t ∈ m.objectTypes) => inverts_objectType t
  have inputs := inverts_list fun t (_ : t ∈ m.inputTypes) => inverts_inputType t
  have enums := inverts_list fun t (_ : t ∈ m.enums) => inverts_enumType t
  have queries := inverts_list fun f (_ : f ∈ m.queryFields) => inverts_operationField f
  have mutations := inverts_list fun f (_ : f ∈ m.mutationFields) => inverts_operationField f
  have kindIndex := inverts_dictionary kinds fun e _ => inverts_definitionKind e.2
  have fieldIndex := inverts_dictionary fields fun e _ => inverts_schemaFields e.2
  refine inverts_record ⟨some m.objectTypes, some m.inputTypes, some m.enums, some m.queryFields,
    some m.mutationFields, some m.kindIndex, some m.fieldsByType⟩ ?_ rfl rfl
  refine .cons objects rfl rfl ?_
  refine .cons inputs rfl rfl ?_
  refine .cons (enums.mono (by decide)) rfl rfl ?_
  refine .cons queries rfl rfl ?_
  refine .cons mutations rfl rfl ?_
  refine .cons (kindIndex.mono (by decide)) rfl rfl ?_
  exact .cons (fieldIndex.mono (by decide)) rfl rfl fills_nil

/-! ## Texts -/

/-- A value is read from both texts that are written of it. -/
def Restored (read : Reader α) (write : α → Json) (x : α) : Prop :=
  read.text (write x).compact = .ok x ∧ read.text (write x).indented = .ok x

theorem restored_of_inverts (h : Inverts read write levels x) (within : levels < budget) :
    Restored read write x :=
  ⟨text_of_outline (ofText_compact h.numberless) (h.read_outline budget within),
    text_of_outline (ofText_indented h.numberless) (h.read_outline budget within)⟩

end Reader

end Json

open Json.Reader

/-- Every part of a schema model is read from its texts, whatever characters its strings hold, and
so is every model whose indices are dictionaries. -/
theorem schema_restored :
    (∀ t : TypeRef, Restored typeRef TypeRef.json t) ∧
      (∀ f : Field, Restored schemaField Field.json f) ∧
      (∀ f : OperationField, Restored operationField OperationField.json f) ∧
      (∀ d : Definition, Restored definition Definition.json d) ∧
      (∀ c : TypeClass, Restored typeClass TypeClass.json c) ∧
      (∀ m : TypeMapping, Restored typeMapping TypeMapping.json m) ∧
      ∀ m : SchemaModel, m.kindIndex.Sorted → m.fieldsByType.Sorted →
        Restored schemaModel SchemaModel.json m := by
  refine ⟨?_, ?_, ?_, ?_, ?_, ?_, ?_⟩
  · exact fun t => restored_of_inverts (inverts_typeRef t) (by decide)
  · exact fun f => restored_of_inverts (inverts_schemaField f) (by decide)
  · exact fun f => restored_of_inverts (inverts_operationField f) (by decide)
  · exact fun d => restored_of_inverts (inverts_definition d) (by decide)
  · exact fun c => restored_of_inverts (inverts_typeClass c) (by decide)
  · exact fun m => restored_of_inverts (inverts_typeMapping m) (by decide)
  · intro m kinds fields
    exact restored_of_inverts (inverts_schemaModel m kinds fields) (by decide)

/-- A model with a quote, a backslash, control characters and a character outside the basic plane
in its names, and indices that name other definitions. -/
theorem schema_restored_controls :
    Restored schemaModel SchemaModel.json
      { objectTypes := [⟨"\"\\\x00\x1f\n", [.of "𝒜/\x7f" "[Int!]"]⟩]
        inputTypes := []
        enums := [⟨"E", ["", "\t"]⟩]
        queryFields := [⟨"q", [.of "a" "]x!"], .parse ""⟩]
        mutationFields := []
        kindIndex := [("", .input), ("a", .enum), ("é", .object)]
        fieldsByType := [("\x08", []), ("\x0c", [.of "f" "F"])] } :=
  schema_restored.2.2.2.2.2.2 _ (by unfold Dictionary.Sorted; decide)
    (by unfold Dictionary.Sorted; decide)

end SchemaClient
