import Mathlib.Data.List.Perm.Subperm
import SchemaClient.Proofs.Bindings.Containment

/-!
# Inputs with a default

A default of an input type contains a default of each input type that it requires, so there is one
if and only if required inputs never lead on without end. The search for a way back needs no bound:
whatever the graph of the input types is, it comes to an answer, which the bounded search gives.
-/

namespace SchemaClient

open Code Relation

namespace InputStruct

/-- Every value of the input type `name` contains one of the input type `base`. -/
def RequiredBy (m : SchemaModel) (base name : String) : Prop :=
  ∃ t, m.inputType? name = some t ∧ ∃ f ∈ t.fields,
    f.type.nullable = false ∧ f.type.isList = false ∧ m.classOf f.type.base = .input ∧
      f.type.base = base

/-- Names are in the set if all the input types that they require are. -/
def Closed (m : SchemaModel) (F : String → Prop) : Prop :=
  ∀ name, (∀ base, RequiredBy m base name → F base) → F name

/-- What a search without a bound answers for a name below the names of a path. It ends at the
first required input that leads back. -/
inductive Search (m : SchemaModel) : (path : List String) → (name : String) → Bool → Prop
  | again {path name} (back : name ∈ path) : Search m path name false
  | other {path name} (new : name ∉ path) (other : m.inputType? name = none) :
      Search m path name true
  | ends {path name t} (new : name ∉ path) (found : m.inputType? name = some t)
      (all : ∀ base ∈ requiredInputs m t, Search m (name :: path) base true) :
      Search m path name true
  | loops {path name t first base later} (new : name ∉ path) (found : m.inputType? name = some t)
      (required : requiredInputs m t = first ++ base :: later)
      (before : ∀ base ∈ first, Search m (name :: path) base true)
      (back : Search m (name :: path) base false) : Search m path name false

variable {m : SchemaModel} {name base : String} {path : List String} {t : InputType}

theorem requiredBy_iff (found : m.inputType? name = some t) :
    RequiredBy m base name ↔ base ∈ requiredInputs m t := by
  rw [requiredInputs, List.mem_map]
  constructor
  · rintro ⟨t', found', f, hf, required, single, input, rfl⟩
    cases found.symm.trans found'
    exact ⟨f, List.mem_filter.mpr ⟨hf, by simp [required, single, input]⟩, rfl⟩
  · rintro ⟨f, hf, rfl⟩
    obtain ⟨hf, h⟩ := List.mem_filter.mp hf
    obtain ⟨⟨required, single⟩, input⟩ := by simpa using h
    exact ⟨t, found, f, hf, required, single, input, rfl⟩

/-- The names in every closed set are those where chains of required inputs come to an end. -/
theorem mem_closed_iff_acc : (∀ F, Closed m F → F name) ↔ Acc (RequiredBy m) name := by
  constructor
  · intro h
    exact h (Acc (RequiredBy m)) fun name inner => ⟨name, inner⟩
  · intro h F closed
    induction h with
    | intro name _ ih => exact closed name ih

/-! ## The search -/

theorem Search.unique {b b' : Bool} (h : Search m path name b) (h' : Search m path name b') :
    b = b' := by
  induction h generalizing b' with
  | again back =>
    cases h' with
    | again | loops => rfl
    | other new | ends new => exact absurd back new
  | other new other =>
    cases h' with
    | again back => exact absurd back new
    | other | ends => rfl
    | loops _ found =>
      rw [other] at found
      cases found
  | ends new found all ih =>
    cases h' with
    | again back => exact absurd back new
    | other | ends => rfl
    | loops _ found' required _ back =>
      cases found.symm.trans found'
      exact ih _ (by simp [required]) back
  | loops new found required _ _ _ ih =>
    cases h' with
    | again | loops => rfl
    | other _ other =>
      rw [other] at found
      cases found
    | ends _ found' all =>
      cases found.symm.trans found'
      exact ih (all _ (by simp [required]))

theorem name_mem_inputTypes (found : m.inputType? name = some t) :
    name ∈ m.inputTypes.map InputType.name := by
  have hname : t.name = name := name_of_find? found
  rw [← hname]
  exact List.mem_map_of_mem (List.mem_reverse.mp (List.mem_of_find?_eq_some found))

/-- A path has each of its names once, and only names of input types, so that the steps last. -/
theorem search_finiteFrom {steps : Nat} (nodup : path.Nodup)
    (inputs : path ⊆ m.inputTypes.map InputType.name)
    (enough : m.inputTypes.length < steps + path.length) :
    Search m path name (finiteFrom m steps path name) := by
  induction steps generalizing path name with
  | zero =>
    have := (List.subperm_of_subset nodup inputs).length_le
    rw [List.length_map] at this
    omega
  | succ steps ih =>
    rw [finiteFrom]
    split
    · rename_i back
      exact .again (by simpa using back)
    · rename_i new
      have new : name ∉ path := by simpa using new
      cases found : m.inputType? name with
      | none => exact .other new found
      | some t =>
        have step (base : String) :
            Search m (name :: path) base (finiteFrom m steps (name :: path) base) :=
          ih (List.nodup_cons.mpr ⟨new, nodup⟩)
            (List.cons_subset.mpr ⟨name_mem_inputTypes found, inputs⟩)
            (by rw [List.length_cons]; omega)
        dsimp only
        cases hall : (requiredInputs m t).all (finiteFrom m steps (name :: path)) with
        | true =>
          refine .ends new found fun base hbase => ?_
          rw [← List.all_eq_true.mp hall base hbase]
          exact step base
        | false =>
          have some_back : ∃ base ∈ requiredInputs m t,
              (!finiteFrom m steps (name :: path) base) = true := by
            simpa using hall
          obtain ⟨base, hfind⟩ := Option.isSome_iff_exists.mp (List.find?_isSome.mpr some_back)
          obtain ⟨back, first, later, required, before⟩ := List.find?_eq_some_iff_append.mp hfind
          refine .loops new found required (fun base' hbase' => ?_) ?_
          · have := before base' hbase'
            rw [Bool.not_not] at this
            rw [← this]
            exact step base'
          · rw [Bool.not_eq_true'] at back
            rw [← back]
            exact step base

theorem search_iff {b : Bool} : Search m [] name b ↔ hasFiniteDefault m name = b := by
  have search : Search m [] name (hasFiniteDefault m name) :=
    search_finiteFrom List.nodup_nil (List.nil_subset _) (by simp)
  constructor
  · intro h
    exact search.unique h
  · rintro rfl
    exact search

/-! ## Chains that end -/

theorem Search.acc {b : Bool} (h : Search m path name b) (hb : b = true) :
    Acc (RequiredBy m) name := by
  induction h with
  | again | loops => cases hb
  | other _ other =>
    refine ⟨_, fun base h => ?_⟩
    obtain ⟨t, found, -⟩ := h
    rw [other] at found
    cases found
  | ends _ found _ ih => exact ⟨_, fun base h => ih base ((requiredBy_iff found).mp h) rfl⟩

theorem not_transGen_self (h : Acc (RequiredBy m) name) : ¬ TransGen (RequiredBy m) name name := by
  intro loop
  induction h.transGen with
  | intro name inner ih => exact ih name loop (acc_transGen_iff.mp ⟨name, inner⟩) loop

/-- The names of the path lead to the name, which therefore is none of them. -/
theorem search_of_acc (h : Acc (RequiredBy m) name)
    (leads : ∀ p ∈ path, TransGen (RequiredBy m) name p) : Search m path name true := by
  induction h generalizing path with
  | intro name inner ih =>
    have new : name ∉ path := fun back => not_transGen_self ⟨name, inner⟩ (leads name back)
    cases found : m.inputType? name with
    | none => exact .other new found
    | some t =>
      refine .ends new found fun base hbase => ?_
      have required : RequiredBy m base name := (requiredBy_iff found).mpr hbase
      refine ih base required fun p hp => ?_
      rcases List.mem_cons.mp hp with rfl | hp
      · exact .single required
      · exact .head required (leads p hp)

theorem hasFiniteDefault_iff_acc : hasFiniteDefault m name = true ↔ Acc (RequiredBy m) name := by
  rw [← search_iff]
  constructor
  · intro h
    exact h.acc rfl
  · intro h
    exact search_of_acc h (List.forall_mem_nil _)

/-! ## The structs -/

/-- The attributes derive an instance of a trait. -/
def Derives (trait : String) (attributes : List Attribute) : Prop :=
  ∃ entries trailing,
    .list "derive" entries trailing ∈ attributes ∧ .path (.name trait) ∈ entries

/-- A struct of the items derives its default. -/
def DerivesDefault (items : List Item) : Prop :=
  ∃ docs attributes name members,
    .struct docs attributes name members ∈ items ∧ Derives "Default" attributes

theorem derivesDefault_items {s : InputStruct} : DerivesDefault s.items ↔ s.hasDefault = true := by
  unfold DerivesDefault Derives items
  cases s.hasDefault <;> simp [derives, Path.name, Path.root]

theorem hasDefault_of_mem {s : InputStruct} (hs : s ∈ all m) :
    s.hasDefault = hasFiniteDefault m s.source := by
  obtain ⟨t, -, rfl⟩ := mem_inputStructs.mp hs
  rfl

/-- The search comes to one answer for every name, and the names with a default are the least set
that is closed. A struct derives its default if its input type is one of them; the structs of the
input types that it requires then derive theirs. -/
theorem hasFiniteDefault_least (m : SchemaModel) :
    (∀ name b, Search m [] name b ↔ hasFiniteDefault m name = b) ∧
    (∀ name, hasFiniteDefault m name = true ↔ ∀ F, Closed m F → F name) ∧
    ∀ s ∈ all m,
      (DerivesDefault s.items ↔ ∀ F, Closed m F → F s.source) ∧
      (DerivesDefault s.items →
        ∀ s' ∈ all m, RequiredBy m s'.source s.source → DerivesDefault s'.items) := by
  have derives_iff {s : InputStruct} (hs : s ∈ all m) :
      DerivesDefault s.items ↔ Acc (RequiredBy m) s.source := by
    rw [derivesDefault_items, hasDefault_of_mem hs, hasFiniteDefault_iff_acc]
  refine ⟨fun name b => search_iff, fun name => ?_, fun s hs => ⟨?_, fun h s' hs' required => ?_⟩⟩
  · rw [hasFiniteDefault_iff_acc, mem_closed_iff_acc]
  · rw [derives_iff hs, mem_closed_iff_acc]
  · rw [derives_iff hs] at h
    rw [derives_iff hs']
    exact h.inv required

end InputStruct

end SchemaClient
