import SchemaClient.Proofs.Exchange.NullValues

/-!
# The paths of a map

The map of an upload form gives a path that is read from the root of the request body name by name.
`null` is written below the variables, at the segments of the path. Both are one place for plain
paths: neither the bare root, below which `null` is written all the same, nor a path with an empty
name, which the map keeps and which is no segment.
-/

namespace SchemaClient.Variables

variable {p q path : String}

/-- The names of a path as the map gives it. -/
def dotted (path : String) : List String :=
  (path.toList.splitOn '.').map String.ofList

/-- A path that the map gives by the names at which `null` is written. -/
def Plain (path : String) : Prop :=
  path ≠ rootName ∧ "" ∉ dotted (rooted path)

instance (path : String) : Decidable (Plain path) :=
  inferInstanceAs (Decidable (_ ∧ _))

/-! ## Names and segments -/

theorem belowRoot?_eq_some {below : List Char} (h : p.toList = rootName.toList ++ '.' :: below) :
    belowRoot? p = some below := by
  simp [belowRoot?, h]

theorem rooted_below (h : p ≠ rootName) :
    ∃ below, (rooted p).toList = rootName.toList ++ '.' :: below := by
  rw [rooted]
  split
  · rename_i hroot
    have hbelow : (belowRoot? p).isSome = true := by simpa [h] using hroot
    rw [belowRoot?] at hbelow
    split at hbelow
    · rename_i hprefix
      obtain ⟨below, hp⟩ := List.isPrefixOf_iff_prefix.mp hprefix
      exact ⟨below, by simpa using hp.symm⟩
    · cases hbelow
  · exact ⟨p.toList, by simp⟩

/-- The segments are the names below the root but for the empty ones. -/
theorem dotted_rooted (h : p ≠ rootName) : ∃ names, dotted (rooted p) = rootName :: names ∧
    names ≠ [] ∧ segments (rooted p) = names.filter (· ≠ "") := by
  obtain ⟨below, hbelow⟩ := rooted_below h
  have undotted : '.' ∉ rootName.toList := by decide
  refine ⟨(below.splitOn '.').map String.ofList, ?_, by simp [List.splitOn_ne_nil], ?_⟩
  · rw [dotted, hbelow, List.splitOn_append_cons_self_of_not_mem undotted, List.map_cons,
      String.ofList_toList]
  · have nonempty : (fun s => decide (s ≠ "")) ∘ String.ofList = (!·.isEmpty) := by
      funext cs
      cases cs with
      | nil => rfl
      | cons c cs => simp
    rw [segments, belowRoot?_eq_some hbelow, Option.getD_some, List.filter_map, nonempty]

theorem Plain.dotted_rooted (h : Plain p) : dotted (rooted p) = rootName :: segments (rooted p) ∧
    segments (rooted p) ≠ [] := by
  obtain ⟨names, hdotted, hne, hsegments⟩ := Variables.dotted_rooted h.1
  have full : names.filter (· ≠ "") = names := by
    rw [List.filter_eq_self]
    intro s hs
    have named := h.2
    rw [hdotted] at named
    rw [decide_eq_true_eq]
    rintro rfl
    exact named (List.mem_cons_of_mem _ hs)
  rw [hsegments, full]
  exact ⟨hdotted, hne⟩

theorem ne_empty_of_mem_segments : ∀ s ∈ segments path, s ≠ "" := by
  intro s hs
  obtain ⟨cs, hcs, rfl⟩ := List.mem_map.mp hs
  have nonempty := (List.mem_filter.mp hcs).2
  simpa [← String.toList_inj] using nonempty

/-- Plain paths that are apart in the map are apart where `null` is written. -/
theorem Plain.apart (hp : Plain p) (hq : Plain q)
    (apart : Apart (dotted (rooted p)) (dotted (rooted q))) :
    Apart (segments (rooted p)) (segments (rooted q)) := by
  rw [hp.dotted_rooted.1, hq.dotted_rooted.1, apart_cons] at apart
  exact apart rfl

/-! ## Walks from the root of the body -/

theorem settled_requestBody {names : List String} {document : String} {vs : Dictionary Json} :
    Settled (rootName :: names) (requestBody document vs) ↔ Settled names (.obj vs) := by
  cases vs with
  | nil =>
    have body : ¬ Settled (rootName :: names) (requestBody document []) := by
      rintro (h | h) <;> cases h
    have below : ¬ Settled names (.obj []) := by
      cases names with
      | nil | cons s names => rintro (h | h) <;> cases h
    exact iff_of_false body below
  | cons e vs => rfl

/-- What nulling makes of no variables at all: objects without an empty name. -/
inductive Skeleton : Json → Prop
  | null : Skeleton .null
  | obj {members : Dictionary Json} (named : ∀ e ∈ members, e.1 ≠ "")
      (values : ∀ e ∈ members, Skeleton e.2) : Skeleton (.obj members)

theorem Skeleton.empty : Skeleton (.obj []) :=
  .obj (by simp) (by simp)

theorem Skeleton.nullIn {names : List String} {v : Json} (h : Skeleton v)
    (named : ∀ s ∈ names, s ≠ "") : Skeleton (nullIn names v) := by
  induction names generalizing v with
  | nil => exact .null
  | cons s names ih =>
    rw [List.forall_mem_cons] at named
    have objects {members : Dictionary Json} (h : Skeleton (.obj members)) :
        Skeleton (Variables.nullIn (s :: names) (.obj members)) := by
      cases h with
      | obj hnamed hvalues =>
        refine .obj (Dictionary.forall_mem_update hnamed named.1 fun _ _ => named.1) ?_
        exact Dictionary.forall_mem_update hvalues (ih .empty named.2) fun v hv => ih hv named.2
    cases h with
    | null => exact objects .empty
    | obj hnamed hvalues => exact objects (.obj hnamed hvalues)

theorem Skeleton.walk {names : List String} {v : Json} (h : Skeleton v) (hempty : "" ∈ names) :
    walk names v = .missing := by
  induction names generalizing v with
  | nil => cases hempty
  | cons s names ih =>
    cases h with
    | null => rfl
    | @obj members hnamed hvalues =>
      rw [Variables.walk]
      cases hs : members.lookup s with
      | none => rfl
      | some w =>
        have hmem := Dictionary.mem_of_lookup hs
        have hrest : "" ∈ names :=
          (List.mem_cons.mp hempty).resolve_left fun h => hnamed _ hmem h.symm
        exact ih (hvalues _ hmem) hrest

theorem Skeleton.nullAt {vs : Dictionary Json} (h : Skeleton (.obj vs)) :
    Skeleton (.obj (nullAt vs path)) := by
  by_cases hne : segments path = []
  · rw [Variables.nullAt, hne]
    exact h
  · rw [obj_nullAt hne]
    exact h.nullIn ne_empty_of_mem_segments

end SchemaClient.Variables
