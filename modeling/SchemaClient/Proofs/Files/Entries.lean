import Mathlib.Data.List.Nodup
import SchemaClient.Proofs.Files.Paths

/-!
# The entries of a disk

What is found at each location after a change of one of them, and disks on which nothing is listed
twice.
-/

namespace SchemaClient

open Text DiskPath

namespace Disk

variable {d : Disk} {name : String} {l : Location}

theorem lookup_cons_entry (x l : Location) (e : Entry) (entries : List (Location × Entry)) :
    ((l, e) :: entries).lookup x = if x = l then some e else entries.lookup x := by
  rw [List.lookup_cons]
  by_cases h : x = l
  · simp [h]
  · rw [beq_false_of_ne h, if_neg h]

theorem lookup_setEntry (l x : Location) (e : Entry) (entries : List (Location × Entry)) :
    (setEntry l e entries).lookup x = if x = l then some e else entries.lookup x := by
  induction entries with
  | nil => exact lookup_cons_entry x l e []
  | cons entry rest ih =>
    obtain ⟨l', e'⟩ := entry
    rw [setEntry, lookup_cons_entry]
    split
    · rename_i same
      rw [lookup_cons_entry, ← same]
      split
      · rfl
      · rfl
    · rename_i different
      rw [lookup_cons_entry, ih]
      by_cases h : x = l'
      · rw [if_pos h, if_pos h, if_neg (h ▸ Ne.symm different)]
      · rw [if_neg h, if_neg h]

theorem lookup_filter_ne (l x : Location) (entries : List (Location × Entry)) :
    (entries.filter (·.1 ≠ l)).lookup x = if x = l then none else entries.lookup x := by
  induction entries with
  | nil => simp
  | cons entry rest ih =>
    obtain ⟨l', e'⟩ := entry
    rw [List.filter_cons, lookup_cons_entry]
    by_cases h : l' = l
    · rw [if_neg (by simp [h]), ih, h]
      split
      · rfl
      · rfl
    · rw [if_pos (by simp [h]), lookup_cons_entry, ih]
      by_cases hx : x = l'
      · rw [if_pos hx, if_pos hx, if_neg (hx ▸ h)]
      · rw [if_neg hx, if_neg hx]

theorem entry?_set (d : Disk) (name : String) (l : Location) (e : Entry) (x : Location) :
    entry? (d.set (name :: l) e) x = if x = name :: l then some e else d.entry? x := by
  cases x with
  | nil => rfl
  | cons name' l' => exact lookup_setEntry _ _ _ _

theorem entry?_erase (d : Disk) (name : String) (l x : Location) :
    entry? (d.erase (name :: l)) x = if x = name :: l then none else d.entry? x := by
  cases x with
  | nil => rfl
  | cons name' l' => exact lookup_filter_ne _ _ _

/-! ## Proper disks -/

/-- A disk that has each location once, all with names that files can have. -/
structure Proper (d : Disk) : Prop where
  nodup : (d.entries.map (·.1)).Nodup
  names : ∀ x ∈ d.entries.map (·.1), ∀ name ∈ x.head?, IsFileName name

instance (d : Disk) : Decidable d.Proper :=
  decidable_of_iff ((d.entries.map (·.1)).Nodup ∧
      ∀ x ∈ d.entries.map (·.1), ∀ name ∈ x.head?, IsFileName name)
    ⟨fun ⟨nodup, names⟩ => ⟨nodup, names⟩, fun h => ⟨h.nodup, h.names⟩⟩

theorem map_fst_setEntry (l : Location) (e : Entry) (entries : List (Location × Entry)) :
    (setEntry l e entries).map (·.1) =
      if l ∈ entries.map (·.1) then entries.map (·.1) else entries.map (·.1) ++ [l] := by
  induction entries with
  | nil => rfl
  | cons entry rest ih =>
    obtain ⟨l', e'⟩ := entry
    rw [setEntry]
    by_cases h : l = l'
    · simp [h]
    · rw [if_neg h, List.map_cons, ih, List.map_cons]
      by_cases hmem : l ∈ rest.map (·.1)
      · rw [if_pos hmem, if_pos (List.mem_cons_of_mem _ hmem)]
      · rw [if_neg hmem, if_neg (by simp [h, hmem]), List.cons_append]

theorem Proper.set (h : d.Proper) (hname : IsFileName name) (l : Location) (e : Entry) :
    (d.set (name :: l) e).Proper := by
  constructor
  · rw [Disk.set, map_fst_setEntry]
    split
    · exact h.nodup
    · rename_i free
      refine List.nodup_append.mpr ⟨h.nodup, List.nodup_singleton _, ?_⟩
      rintro x hx y hy rfl
      exact free (List.mem_singleton.mp hy ▸ hx)
  · rw [Disk.set, map_fst_setEntry]
    split
    · exact h.names
    · rw [List.forall_mem_append, List.forall_mem_singleton]
      refine ⟨h.names, fun name' hname' => ?_⟩
      cases hname'
      exact hname

theorem Proper.erase (h : d.Proper) (l : Location) : (d.erase l).Proper := by
  have sub : List.Sublist ((d.entries.filter (·.1 ≠ l)).map (·.1)) (d.entries.map (·.1)) :=
    List.filter_sublist.map _
  exact ⟨h.nodup.sublist sub, fun x hx => h.names x (sub.subset hx)⟩

theorem mem_namesIn : name ∈ d.namesIn l ↔ ∃ e, d.entry? (name :: l) = some e := by
  rw [namesIn, List.mem_filterMap]
  constructor
  · rintro ⟨⟨x, e⟩, hmem, hx⟩
    cases x with
    | nil => cases hx
    | cons name' above =>
      simp only [Option.ite_none_right_eq_some, Option.some.injEq] at hx
      obtain ⟨rfl, rfl⟩ := hx
      have : (d.entries.lookup (name' :: above)).isSome = true :=
        List.lookup_isSome_iff.mpr ⟨_, hmem, by simp⟩
      exact Option.isSome_iff_exists.mp this
  · rintro ⟨e, he⟩
    obtain ⟨before, after, hentries, -⟩ := List.lookup_eq_some_iff.mp he
    exact ⟨(name :: l, e), by simp [hentries], by simp⟩

theorem Proper.nodup_namesIn (h : d.Proper) (l : Location) : (d.namesIn l).Nodup := by
  have names : d.namesIn l = (d.entries.map (·.1)).filterMap fun
      | name :: above => if above = l then some name else none
      | [] => none := by
    rw [List.filterMap_map]
    exact List.filterMap_congr fun ⟨x, e⟩ _ => by cases x <;> rfl
  rw [names]
  refine h.nodup.filterMap fun x x' name hx hx' => ?_
  cases x with
  | nil => cases hx
  | cons name₁ above =>
    cases x' with
    | nil => cases hx'
    | cons name₂ above' =>
      simp only [Option.mem_def, Option.ite_none_right_eq_some, Option.some.injEq] at hx hx'
      rw [hx.1, hx.2, hx'.1, hx'.2]

theorem Proper.isFileName (h : d.Proper) (hname : name ∈ d.namesIn l) : IsFileName name := by
  obtain ⟨e, he⟩ := mem_namesIn.mp hname
  obtain ⟨before, after, hentries, -⟩ := List.lookup_eq_some_iff.mp he
  exact h.names (name :: l) (by simp [hentries]) name rfl

end Disk

end SchemaClient
