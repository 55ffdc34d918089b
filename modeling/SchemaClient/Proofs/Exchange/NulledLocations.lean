import Mathlib.Data.List.Forall2
import SchemaClient.Proofs.Exchange.NullValues

/-!
# What nulling a path changes

A path of segments leads to one location in the variables, or runs into a list without the index.
In the second case nothing changes. In the first the location holds `null` afterwards, the
containers above it keep what they have, and every other location is as it was. Objects list their
members by name, each name once; without this a member could be added beside one of its name.
-/

namespace SchemaClient

namespace Json

/-- A step from a container to one of its values. -/
inductive Selector
  | member (name : String)
  | item (index : Nat)
deriving DecidableEq, Repr

/-- Where a value stands inside another one. -/
abbrev Location := List Selector

def at? : Location → Json → Option Json
  | [], v => some v
  | .member k :: l, .obj members => (Dictionary.get? members k).bind (at? l)
  | .item i :: l, .arr items => items[i]?.bind (at? l)
  | _ :: _, _ => none

/-- All objects of a value list their members by name. -/
inductive Tidy : Json → Prop
  | null : Tidy .null
  | bool (b : Bool) : Tidy (.bool b)
  | int (n : Int) : Tidy (.int n)
  | double (x : Double) : Tidy (.double x)
  | str (s : String) : Tidy (.str s)
  | arr {items : List Json} (values : ∀ v ∈ items, Tidy v) : Tidy (.arr items)
  | obj {members : Dictionary Json} (sorted : members.Sorted) (values : ∀ e ∈ members, Tidy e.2) :
      Tidy (.obj members)

theorem Tidy.empty : Tidy (.obj []) :=
  .obj List.Pairwise.nil (List.forall_mem_nil _)

/-- A list has become a list of the same length, an object an object with all its names. -/
def Retains : Json → Json → Prop
  | .arr items, .arr items' => items.length = items'.length
  | .obj members, .obj members' => ∀ k ∈ members.map Prod.fst, k ∈ members'.map Prod.fst
  | .arr _, _ | .obj _, _ => False
  | _, _ => True

theorem Retains.refl (v : Json) : Retains v v := by
  cases v with
  | arr items => exact rfl
  | obj members => exact fun _ h => h
  | _ => trivial

/-- Whether a value can have no values inside. -/
def IsScalar : Json → Prop
  | .arr _ | .obj _ => False
  | _ => True

section Scalars

variable {v w : Json} {q : Location}

theorem IsScalar.retains (h : v.IsScalar) (w : Json) : Retains v w := by
  cases v with
  | arr | obj => exact h.elim
  | _ => trivial

theorem IsScalar.at?_eq_none (h : v.IsScalar) (hq : q ≠ []) : at? q v = none := by
  cases q with
  | nil => exact absurd rfl hq
  | cons x q =>
    cases v with
    | arr | obj => exact h.elim
    | _ => cases x <;> rfl

theorem at?_empty (hq : q ≠ []) : at? q (.obj []) = none := by
  cases q with
  | nil => exact absurd rfl hq
  | cons x q => cases x <;> rfl

end Scalars

/-- The second value is the first one with `null` at a location. -/
structure NulledAt (l : Location) (v w : Json) : Prop where
  null : at? l w = some .null
  beside : ∀ q, ¬ l <+: q → ¬ q <+: l → at? q w = at? q v
  /-- What is not inside the location stays, as a container of all that it had. -/
  kept : ∀ q u, ¬ l <+: q → at? q v = some u → ∃ u', at? q w = some u' ∧ Retains u u'

namespace NulledAt

variable {l : Location} {v w : Json}

theorem whole (v : Json) : NulledAt [] v .null where
  null := rfl
  beside _ h _ := absurd List.nil_prefix h
  kept _ _ h _ := absurd List.nil_prefix h

/-- A value without parts is first made an empty object. -/
theorem of_empty (h : NulledAt l (.obj []) w) (hv : v.IsScalar) :
    NulledAt l v w where
  null := h.null
  beside q h₁ h₂ := by
    have hq : q ≠ [] := by
      rintro rfl
      exact h₂ List.nil_prefix
    rw [h.beside q h₁ h₂, at?_empty hq, hv.at?_eq_none hq]
  kept q u _ hu := by
    cases q with
    | nil =>
      cases hu
      exact ⟨w, rfl, hv.retains w⟩
    | cons x q =>
      rw [hv.at?_eq_none (List.cons_ne_nil x q)] at hu
      cases hu

section Item

variable {items : List Json} {i : Nat} {f : Json → Json}

theorem at?_modify_cons {x : Selector} {q : Location} (hx : x ≠ .item i) :
    at? (x :: q) (.arr (items.modify i f)) = at? (x :: q) (.arr items) := by
  cases x with
  | member k => rfl
  | item j =>
    have hij : i ≠ j := by
      rintro rfl
      exact hx rfl
    rw [at?, at?, List.getElem?_modify_ne _ _ hij]

theorem item (found : items[i]? = some v) (h : NulledAt l v (f v)) :
    NulledAt (.item i :: l) (.arr items) (.arr (items.modify i f)) := by
  have at?_new (q : Location) : at? (.item i :: q) (.arr (items.modify i f)) = at? q (f v) := by
    simp [at?, found]
  have at?_old (q : Location) : at? (.item i :: q) (.arr items) = at? q v := by
    simp [at?, found]
  refine ⟨by rw [at?_new, h.null], ?_, ?_⟩
  · intro q h₁ h₂
    cases q with
    | nil => exact absurd List.nil_prefix h₂
    | cons x q =>
      by_cases hx : x = .item i
      · subst hx
        rw [List.prefix_cons_inj] at h₁ h₂
        rw [at?_new, at?_old, h.beside q h₁ h₂]
      · exact at?_modify_cons hx
  · intro q u h₁ hu
    cases q with
    | nil =>
      cases hu
      exact ⟨_, rfl, (List.length_modify ..).symm⟩
    | cons x q =>
      by_cases hx : x = .item i
      · subst hx
        rw [List.prefix_cons_inj] at h₁
        rw [at?_old] at hu
        rw [at?_new]
        exact h.kept q u h₁ hu
      · exact ⟨u, by rw [at?_modify_cons hx, hu], Retains.refl u⟩

end Item

section Member

variable {members : Dictionary Json} {s : String}

theorem at?_insert_cons {x : Selector} {q : Location} (hx : x ≠ .member s) :
    at? (x :: q) (.obj (members.insert s w)) = at? (x :: q) (.obj members) := by
  cases x with
  | item j => rfl
  | member k =>
    have hk : k ≠ s := by
      rintro rfl
      exact hx rfl
    rw [at?, at?, Dictionary.get?_insert, if_neg hk]

/-- A missing member is first added as an empty object. -/
theorem member (h : NulledAt l ((Dictionary.get? members s).getD (.obj [])) w) :
    NulledAt (.member s :: l) (.obj members) (.obj (members.insert s w)) := by
  have at?_new (q : Location) : at? (.member s :: q) (.obj (members.insert s w)) = at? q w := by
    rw [at?, Dictionary.get?_insert, if_pos rfl, Option.bind_some]
  refine ⟨by rw [at?_new, h.null], ?_, ?_⟩
  · intro q h₁ h₂
    cases q with
    | nil => exact absurd List.nil_prefix h₂
    | cons x q =>
      by_cases hx : x = .member s
      · subst hx
        rw [List.prefix_cons_inj] at h₁ h₂
        rw [at?_new, h.beside q h₁ h₂, at?]
        cases Dictionary.get? members s with
        | some v => rfl
        | none =>
          refine at?_empty ?_
          rintro rfl
          exact h₂ List.nil_prefix
      · exact at?_insert_cons hx
  · intro q u h₁ hu
    cases q with
    | nil =>
      cases hu
      exact ⟨_, rfl, fun k hk => Dictionary.mem_keys_insert hk⟩
    | cons x q =>
      by_cases hx : x = .member s
      · subst hx
        rw [List.prefix_cons_inj] at h₁
        rw [at?] at hu
        obtain ⟨v, hv, hu⟩ := Option.bind_eq_some_iff.mp hu
        rw [hv] at h
        rw [at?_new]
        exact h.kept q u h₁ hu
      · exact ⟨u, by rw [at?_insert_cons hx, hu], Retains.refl u⟩

end Member

end NulledAt

end Json

namespace Variables

open Json

variable {path : List String} {v : Json} {members : Dictionary Json} {s : String}

/-- A segment names the selector: a member by its name, an item by its index. -/
def Names (segment : String) : Selector → Prop
  | .member k => k = segment
  | .item i => index? segment = some i

theorem walk_empty_ne_outside (path : List String) : walk path (.obj []) ≠ .outside := by
  cases path with
  | nil | cons s path =>
    intro h
    cases h

theorem nullIn_obj (sorted : members.Sorted) : nullIn (s :: path) (.obj members) =
    .obj (members.insert s (nullIn path ((members.get? s).getD (.obj [])))) := by
  rw [nullIn, sorted.update_eq_insert]

theorem nullIn_scalar (h : v.IsScalar) : nullIn (s :: path) v = nullIn (s :: path) (.obj []) := by
  cases v with
  | arr | obj => exact h.elim
  | _ => rfl

theorem modify_eq_self_of_fixed {items : List Json} {i : Nat} {f : Json → Json}
    (found : items[i]? = some v) (fixed : f v = v) : items.modify i f = items := by
  refine List.ext_getElem? fun j => ?_
  rw [List.getElem?_modify]
  split
  · rename_i hij
    rw [← hij, found]
    exact congrArg some fixed
  · exact id_map _

theorem Tidy.get?_getD (h : Tidy (.obj members)) (s : String) :
    Tidy ((members.get? s).getD (.obj [])) := by
  cases h with
  | obj sorted values =>
    cases found : members.get? s with
    | none => exact .empty
    | some v => exact values _ (Dictionary.mem_of_lookup found)

/-! ## Along a path -/

/-- Nothing is written on the way to a list without the index. -/
theorem nullIn_of_outside (tidy : Tidy v) (h : walk path v = .outside) : nullIn path v = v := by
  induction path generalizing v with
  | nil => cases h
  | cons s path ih =>
    cases tidy with
    | arr values =>
      rw [walk] at h
      rw [nullIn]
      cases hs : index? s with
      | none => rfl
      | some i =>
        rename_i items
        cases hi : items[i]? with
        | none => simp [List.modify_eq_self (List.getElem?_eq_none_iff.mp hi)]
        | some w =>
          simp only [hs, Option.bind_some, hi] at h
          have same := ih (values w (List.mem_of_getElem? hi)) h
          exact congrArg Json.arr (modify_eq_self_of_fixed hi same)
    | @obj members sorted values =>
      rw [walk] at h
      cases found : members.lookup s with
      | none => simp [found] at h
      | some w =>
        simp only [found] at h
        have same := ih (values _ (Dictionary.mem_of_lookup found)) h
        have hget : members.get? s = some w := found
        rw [nullIn_obj sorted, hget, Option.getD_some, same, sorted.insert_eq_self hget]
    | _ => cases h

theorem exists_nulledAt (tidy : Tidy v) (inside : walk path v ≠ .outside) :
    ∃ l, List.Forall₂ Names path l ∧ NulledAt l v (nullIn path v) := by
  induction path generalizing v with
  | nil => exact ⟨[], .nil, .whole v⟩
  | cons s path ih =>
    have objects {members : Dictionary Json} (tidy : Tidy (.obj members))
        (inside : walk (s :: path) (.obj members) ≠ .outside) :
        ∃ l, List.Forall₂ Names path l ∧
          NulledAt (.member s :: l) (.obj members) (nullIn (s :: path) (.obj members)) := by
      have below : walk path ((members.get? s).getD (.obj [])) ≠ .outside := by
        cases found : members.get? s with
        | none => exact walk_empty_ne_outside path
        | some w =>
          have hlookup : members.lookup s = some w := found
          simpa [walk, hlookup] using inside
      obtain ⟨l, names, nulled⟩ := ih (Tidy.get?_getD tidy s) below
      cases tidy with
      | obj sorted values =>
        rw [nullIn_obj sorted]
        exact ⟨l, names, nulled.member⟩
    have scalars (hv : v.IsScalar) :
        ∃ l, List.Forall₂ Names (s :: path) l ∧ NulledAt l v (nullIn (s :: path) v) := by
      obtain ⟨l, names, nulled⟩ := objects .empty (walk_empty_ne_outside _)
      rw [nullIn_scalar hv]
      exact ⟨.member s :: _, .cons rfl names, nulled.of_empty hv⟩
    cases tidy with
    | @arr items values =>
      cases hs : index? s with
      | none => simp [walk, hs] at inside
      | some i =>
        cases hi : items[i]? with
        | none => simp [walk, hs, hi] at inside
        | some w =>
          simp only [walk, hs, Option.bind_some, hi] at inside
          obtain ⟨l, names, nulled⟩ := ih (values w (List.mem_of_getElem? hi)) inside
          rw [nullIn, hs]
          exact ⟨.item i :: l, .cons hs names, nulled.item hi⟩
    | obj sorted values =>
      obtain ⟨l, names, nulled⟩ := objects (.obj sorted values) inside
      exact ⟨.member s :: _, .cons rfl names, nulled⟩
    | _ => exact scalars trivial

theorem Tidy.nullIn (tidy : Tidy v) (path : List String) : Tidy (nullIn path v) := by
  induction path generalizing v with
  | nil => exact .null
  | cons s path ih =>
    have objects {members : Dictionary Json} (tidy : Tidy (.obj members)) :
        Tidy (Variables.nullIn (s :: path) (.obj members)) := by
      have below := ih (Tidy.get?_getD tidy s)
      cases tidy with
      | obj sorted values =>
        rw [nullIn_obj sorted]
        refine .obj (sorted.insert _ _) fun e he => ?_
        rcases Dictionary.mem_of_mem_insert he with rfl | he
        · exact below
        · exact values e he
    cases tidy with
    | @arr items values =>
      rw [Variables.nullIn]
      cases index? s with
      | none => exact .arr values
      | some i =>
        refine .arr fun v hv => ?_
        obtain ⟨j, hj⟩ := List.mem_iff_getElem?.mp hv
        rw [List.getElem?_modify] at hj
        obtain ⟨w, hw, rfl⟩ := Option.map_eq_some_iff.mp hj
        have tidy := values w (List.mem_of_getElem? hw)
        split
        · exact ih tidy
        · exact tidy
    | obj sorted values => exact objects (.obj sorted values)
    | _ => exact objects .empty

theorem nullIn_nullIn (path : List String) (v : Json) :
    nullIn path (nullIn path v) = nullIn path v := by
  induction path generalizing v with
  | nil => rfl
  | cons s path ih =>
    have objects (members : Dictionary Json) :
        nullIn (s :: path) (nullIn (s :: path) (.obj members)) =
          nullIn (s :: path) (.obj members) := by
      simp only [nullIn, Dictionary.update_update, Option.getD_some, ih]
    cases v with
    | arr items =>
      cases hs : index? s with
      | none => simp only [nullIn, hs]
      | some i =>
        have twice : nullIn path ∘ nullIn path = nullIn path := funext ih
        simp only [nullIn, hs, List.modify_modify_eq, twice]
    | obj members => exact objects members
    | _ => exact objects []

/-! ## Paths as they are given -/

/-- The path leads to a list, and its next segment is no index of the list. -/
def RunsOut (path : List String) (v : Json) : Prop :=
  ∃ p s q items, path = p ++ s :: q ∧ walk p v = .value (.arr items) ∧
    ∀ i, index? s = some i → items.length ≤ i

theorem bind_getElem?_eq_none_iff {items : List Json} {index : Option Nat} :
    index.bind (items[·]?) = none ↔ ∀ i, index = some i → items.length ≤ i := by
  simp

theorem walk_append {w : Json} (h : walk path v = .value w) (q : List String) :
    walk (path ++ q) v = walk q w := by
  induction path generalizing v with
  | nil =>
    cases h
    rfl
  | cons s path ih =>
    cases v with
    | arr items =>
      rw [walk] at h
      rw [List.cons_append, walk]
      split at h
      · exact ih h
      · cases h
    | obj members =>
      rw [walk] at h
      rw [List.cons_append, walk]
      split at h
      · exact ih h
      · cases h
    | _ => cases h

theorem runsOut_of_walk (h : walk path v = .outside) : RunsOut path v := by
  induction path generalizing v with
  | nil => cases h
  | cons s path ih =>
    have step (w : Json) (found : ∀ p, walk (s :: p) v = walk p w) : RunsOut (s :: path) v := by
      obtain ⟨p, t, q, items, rfl, hp, ht⟩ := ih ((found path).symm.trans h)
      exact ⟨s :: p, t, q, items, rfl, (found p).trans hp, ht⟩
    cases v with
    | arr items =>
      cases hs : (index? s).bind (items[·]?) with
      | none => exact ⟨[], s, path, items, rfl, rfl, bind_getElem?_eq_none_iff.mp hs⟩
      | some w => exact step w fun p => by simp [walk, hs]
    | obj members =>
      cases hs : members.lookup s with
      | none => simp [walk, hs] at h
      | some w => exact step w fun p => by simp [walk, hs]
    | _ => cases h

theorem walk_eq_outside_iff : walk path v = .outside ↔ RunsOut path v := by
  constructor
  · exact runsOut_of_walk
  · rintro ⟨p, s, q, items, rfl, hp, hs⟩
    rw [walk_append hp, walk, bind_getElem?_eq_none_iff.mpr hs]

/-- Nulling a path changes nothing if the path has no segments or runs into a list without the
index. Otherwise one location, which the segments name, holds `null` afterwards, and no other one
has lost anything. A second time changes nothing. -/
theorem nullAt_all_or_nothing {vs : Dictionary Json} (tidy : Tidy (.obj vs)) (path : String) :
    (segments path = [] ∨ RunsOut (segments path) (.obj vs) → nullAt vs path = vs) ∧
    (segments path ≠ [] → ¬ RunsOut (segments path) (.obj vs) →
      ∃ l, List.Forall₂ Names (segments path) l ∧
        NulledAt l (.obj vs) (.obj (nullAt vs path))) ∧
    Tidy (.obj (nullAt vs path)) ∧
    nullAt (nullAt vs path) path = nullAt vs path := by
  by_cases hne : segments path = []
  · have same (vs : Dictionary Json) : nullAt vs path = vs := by rw [nullAt, hne]
    refine ⟨fun _ => same vs, fun h => absurd hne h, ?_, same _⟩
    rw [same]
    exact tidy
  · refine ⟨fun h => ?_, fun _ inside => ?_, ?_, ?_⟩
    · have outside := walk_eq_outside_iff.mpr (h.resolve_left hne)
      have same := nullIn_of_outside tidy outside
      rw [← obj_nullAt hne] at same
      exact Json.obj.inj same
    · rw [obj_nullAt hne]
      exact exists_nulledAt tidy (walk_eq_outside_iff.not.mpr inside)
    · rw [obj_nullAt hne]
      exact Tidy.nullIn tidy _
    · have twice := nullIn_nullIn (segments path) (.obj vs)
      rw [← obj_nullAt hne, ← obj_nullAt hne] at twice
      exact Json.obj.inj twice

def attachments : Dictionary Json :=
  [("input", .obj [("files", .arr [.str "a", .obj []]), ("title", .int 1)])]

theorem tidy_attachments : Tidy (.obj attachments) := by
  have files : Tidy (.arr [.str "a", .obj []]) :=
    .arr (by simpa using ⟨.str "a", Tidy.empty⟩)
  have input : Tidy (.obj [("files", .arr [.str "a", .obj []]), ("title", .int 1)]) :=
    .obj (by unfold Dictionary.Sorted; decide) (by simpa using ⟨files, .int 1⟩)
  exact .obj (List.pairwise_singleton _ _) (by simpa [attachments] using input)

/-- The first path goes through a list and a title that is a number, the second one has an index
that is too large. -/
theorem nullAt_all_or_nothing_attachments :
    (∃ l, List.Forall₂ Names ["input", "files", "1", "cover"] l ∧
      NulledAt l (.obj attachments)
        (.obj (nullAt attachments "variables.input..files.1.cover"))) ∧
    nullAt attachments "input.files.2.cover" = attachments := by
  have through := nullAt_all_or_nothing tidy_attachments "variables.input..files.1.cover"
  have beyond := nullAt_all_or_nothing tidy_attachments "input.files.2.cover"
  have segments₁ : segments "variables.input..files.1.cover" =
      ["input", "files", "1", "cover"] := by decide +kernel
  have segments₂ : segments "input.files.2.cover" = ["input", "files", "2", "cover"] := by
    decide +kernel
  rw [segments₁] at through
  rw [segments₂] at beyond
  refine ⟨through.2.1 (by simp) ?_, beyond.1 (.inr ?_)⟩
  · rw [← walk_eq_outside_iff]
    intro h
    cases h
  · exact ⟨["input", "files"], "2", ["cover"], _, rfl, rfl, by decide +kernel⟩

end Variables

end SchemaClient
