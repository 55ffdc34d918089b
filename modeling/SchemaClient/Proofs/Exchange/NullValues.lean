import Mathlib.Data.List.Pairwise
import Mathlib.Data.List.Perm.Basic
import SchemaClient.Exchange.Variables
import SchemaClient.Proofs.Dictionary

/-!
# Null values at several paths

Writing `null` at one path rewrites the containers another path runs through: objects are added,
scalars become objects, and lists stay as they are where an index is missing. Two paths of which
neither runs through the place of the other can be written in either order. The last path written
is settled, and since every path can be made the last, all of them are.
-/

namespace SchemaClient.Variables

/-! ## Places -/

/-- What a segment names: the index that it can be read as, or else a name. -/
inductive Step
  | index (n : Nat)
  | name (s : String)
deriving DecidableEq, Repr

def step (segment : String) : Step :=
  match index? segment with
  | some n => .index n
  | none => .name segment

/-- Neither of two paths runs through the place of the other. -/
def Apart (p q : List String) : Prop :=
  ¬ p.map step <+: q.map step ∧ ¬ q.map step <+: p.map step

instance (p q : List String) : Decidable (Apart p q) :=
  inferInstanceAs (Decidable (_ ∧ _))

variable {p q : List String} {s t : String}

theorem Apart.symm (h : Apart p q) : Apart q p :=
  ⟨h.2, h.1⟩

theorem not_apart_nil : ¬ Apart [] q :=
  fun h => h.1 (List.nil_prefix)

theorem Apart.ne_nil (h : Apart p q) : p ≠ [] := by
  rintro rfl
  exact not_apart_nil h

theorem apart_cons : Apart (s :: p) (t :: q) ↔ (step s = step t → Apart p q) := by
  by_cases h : step s = step t
  · simp [Apart, h]
  · simp [Apart, h, Ne.symm h]

/-! ## Walks -/

/-- What a path leads to from a value. -/
inductive Landing
  | value (v : Json)
  /-- A list that does not have the index, or a name that is none. -/
  | outside
  | missing

def walk : List String → Json → Landing
  | [], v => .value v
  | s :: path, .arr items =>
    match (index? s).bind (items[·]?) with
    | some v => walk path v
    | none => .outside
  | s :: path, .obj members =>
    match members.lookup s with
    | some v => walk path v
    | none => .missing
  | _ :: _, _ => .missing

/-- A path leads to `null`, or ends at a list that it does not run into. -/
def Settled (path : List String) (v : Json) : Prop :=
  walk path v = .value .null ∨ walk path v = .outside

theorem settled_nullIn (p : List String) (v : Json) : Settled p (nullIn p v) := by
  induction p generalizing v with
  | nil => exact .inl rfl
  | cons s p ih =>
    have objects (members : Dictionary Json) :
        Settled (s :: p) (nullIn (s :: p) (.obj members)) := by
      obtain ⟨w, hw⟩ :=
        Dictionary.lookup_update s (fun v => nullIn p (v.getD (.obj []))) members
      rw [nullIn, Settled, walk, hw]
      exact ih _
    cases v with
    | arr items =>
      rw [nullIn, Settled]
      cases hs : index? s with
      | none => exact .inr (by simp [walk, hs])
      | some i =>
        cases hi : items[i]? with
        | none => exact .inr (by simp [walk, hs, hi])
        | some w => simpa [Settled, walk, hs, hi] using ih w
    | obj members => exact objects members
    -- A value without parts is first made an empty object.
    | _ => exact objects []

/-! ## The order of writing -/

theorem nullIn_comm (h : Apart p q) (v : Json) :
    nullIn p (nullIn q v) = nullIn q (nullIn p v) := by
  induction p generalizing q v with
  | nil => exact absurd h not_apart_nil
  | cons s p ih =>
    cases q with
    | nil => exact absurd h.symm not_apart_nil
    | cons t q =>
      rw [apart_cons] at h
      have objects (members : Dictionary Json) :
          nullIn (s :: p) (nullIn (t :: q) (.obj members)) =
            nullIn (t :: q) (nullIn (s :: p) (.obj members)) := by
        rw [nullIn, nullIn, nullIn, nullIn, Json.obj.injEq]
        by_cases hst : s = t
        · subst hst
          rw [Dictionary.update_update, Dictionary.update_update]
          congr 1
          funext v
          exact ih (h rfl) _
        · exact Dictionary.update_comm hst _ _ _
      cases v with
      | arr items =>
        cases hs : index? s with
        | none =>
          cases ht : index? t with
          | none | some j => simp only [nullIn, hs, ht]
        | some i =>
          cases ht : index? t with
          | none => simp only [nullIn, hs, ht]
          | some j =>
            simp only [nullIn, hs, ht, Json.arr.injEq]
            by_cases hij : i = j
            · subst hij
              have apart : Apart p q := h (by rw [step, step, hs, ht])
              rw [List.modify_modify_eq, List.modify_modify_eq]
              congr 1
              funext v
              exact ih apart v
            · exact List.modify_modify_ne _ _ _ (Ne.symm hij)
      | obj members => exact objects members
      | _ => exact objects []

variable {path path' : String}

theorem obj_nullAt (h : segments path ≠ []) (vs : Dictionary Json) :
    .obj (nullAt vs path) = nullIn (segments path) (.obj vs) := by
  rw [nullAt]
  cases hp : segments path with
  | nil => exact absurd hp h
  | cons s p => rfl

theorem nullAt_comm (h : Apart (segments path) (segments path')) (vs : Dictionary Json) :
    nullAt (nullAt vs path) path' = nullAt (nullAt vs path') path := by
  have swapped : Json.obj (nullAt (nullAt vs path) path') =
      .obj (nullAt (nullAt vs path') path) := by
    rw [obj_nullAt h.symm.ne_nil, obj_nullAt h.ne_nil, obj_nullAt h.ne_nil,
      obj_nullAt h.symm.ne_nil, nullIn_comm h]
  exact Json.obj.inj swapped

variable {paths paths' : List String}

theorem foldl_nullAt_perm (h : paths.Perm paths')
    (apart : paths.Pairwise fun a b => Apart (segments a) (segments b)) (vs : Dictionary Json) :
    paths.foldl nullAt vs = paths'.foldl nullAt vs := by
  have symm : Std.Symm fun a b => Apart (segments a) (segments b) := ⟨fun _ _ h => h.symm⟩
  refine h.foldl_eq' (fun a ha b hb vs => ?_) vs
  by_cases hab : a = b
  · rw [hab]
  · exact nullAt_comm (apart.forall ha hb hab) vs

theorem settled_foldl_nullAt (apart : paths.Pairwise fun a b => Apart (segments a) (segments b))
    (hp : path ∈ paths) (hne : segments path ≠ []) (vs : Dictionary Json) :
    Settled (segments path) (.obj (paths.foldl nullAt vs)) := by
  have last : paths.Perm (paths.erase path ++ [path]) :=
    (List.perm_cons_erase hp).trans (List.perm_append_singleton path _).symm
  rw [foldl_nullAt_perm last apart, List.foldl_append, List.foldl_cons, List.foldl_nil,
    obj_nullAt hne]
  exact settled_nullIn _ _

/-- If no path runs through the place of another, the paths can be written in any order, and each
that has a segment leads to `null` or to a list that it does not run into. -/
theorem nullAt_in_any_order (h : paths.Perm paths')
    (apart : paths.Pairwise fun a b => Apart (segments a) (segments b)) (vs : Dictionary Json) :
    paths.foldl nullAt vs = paths'.foldl nullAt vs ∧
      ∀ path ∈ paths, segments path ≠ [] →
        Settled (segments path) (.obj (paths.foldl nullAt vs)) :=
  ⟨foldl_nullAt_perm h apart vs, fun _ hp hne => settled_foldl_nullAt apart hp hne vs⟩

/-- The paths lead to an item of a list, below a number, and to an index that is missing. -/
theorem nullAt_in_any_order_files :
    let vs : Dictionary Json := [("files", .arr [.str "a", .str "b"]), ("input", .int 1)]
    let paths := ["variables.files.01", "input..cover", "files.7"]
    paths.foldl nullAt vs = paths.reverse.foldl nullAt vs ∧
      ∀ path ∈ paths, segments path ≠ [] →
        Settled (segments path) (.obj (paths.foldl nullAt vs)) :=
  nullAt_in_any_order (List.reverse_perm _).symm (by decide +kernel) _

end SchemaClient.Variables
