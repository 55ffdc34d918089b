import Mathlib.Data.List.Forall2
import Mathlib.Data.List.Nodup
import SchemaClient.Bindings.FieldType

/-!
# Distinct items and their names

Items with distinct keys: their keys are those of all items, each of them once, and an item that
stays is the first with its key. Members of generated code are such items, each put together with
a name of its own.
-/

namespace SchemaClient

variable {α β : Type} {key : α → String} {seen : List String} {xs : List α} {x : α}

namespace distinctBy

theorem go_mem (h : x ∈ go key seen xs) : x ∈ xs ∧ key x ∉ seen := by
  induction xs generalizing seen with
  | nil => cases h
  | cons y xs ih =>
    rw [go] at h
    split at h
    · obtain ⟨hx, hseen⟩ := ih h
      exact ⟨List.mem_cons_of_mem _ hx, hseen⟩
    · rename_i hy
      rcases List.mem_cons.mp h with rfl | h
      · exact ⟨List.mem_cons_self, by simpa using hy⟩
      · obtain ⟨hx, hseen⟩ := ih h
        exact ⟨List.mem_cons_of_mem _ hx, fun hk => hseen (List.mem_cons_of_mem _ hk)⟩

theorem go_nodup (key : α → String) (seen : List String) (xs : List α) :
    ((go key seen xs).map key).Nodup := by
  induction xs generalizing seen with
  | nil => exact List.nodup_nil
  | cons y xs ih =>
    rw [go]
    split
    · exact ih seen
    · rw [List.map_cons, List.nodup_cons]
      refine ⟨fun h => ?_, ih _⟩
      obtain ⟨z, hz, hkey⟩ := List.mem_map.mp h
      exact (go_mem hz).2 (hkey ▸ List.mem_cons_self)

/-- Of every key that was not seen before, the first item stays. -/
theorem go_find? (h : x ∈ go key seen xs) : xs.find? (key · = key x) = some x := by
  induction xs generalizing seen with
  | nil => cases h
  | cons y xs ih =>
    rw [go] at h
    split at h
    · rename_i hy
      have other : key y ≠ key x := by
        intro hkey
        rw [hkey] at hy
        exact (go_mem h).2 (by simpa using hy)
      rw [List.find?_cons_of_neg (by simpa using other)]
      exact ih h
    · rcases List.mem_cons.mp h with rfl | h
      · exact List.find?_cons_of_pos (by simp)
      · have other : key y ≠ key x := fun hkey => (go_mem h).2 (hkey ▸ List.mem_cons_self)
        rw [List.find?_cons_of_neg (by simpa using other)]
        exact ih h

theorem go_map (f : α → β) (key : β → String) (seen : List String) (xs : List α) :
    go key seen (xs.map f) = (go (fun x => key (f x)) seen xs).map f := by
  induction xs generalizing seen with
  | nil => rfl
  | cons x xs ih =>
    rw [List.map_cons, go, go]
    split
    · exact ih seen
    · rw [List.map_cons, ih]

theorem go_eq_self (h : (xs.map key).Nodup) (new : ∀ x ∈ xs, key x ∉ seen) :
    go key seen xs = xs := by
  induction xs generalizing seen with
  | nil => rfl
  | cons x xs ih =>
    rw [List.map_cons, List.nodup_cons] at h
    rw [go, if_neg (by simpa using new x List.mem_cons_self), ih h.2]
    intro y hy hmem
    rcases List.mem_cons.mp hmem with hkey | hmem
    · exact h.1 (List.mem_map.mpr ⟨y, hy, hkey⟩)
    · exact new y (List.mem_cons_of_mem _ hy) hmem

theorem go_map_key (key : α → String) (seen : List String) (xs : List α) :
    (go key seen xs).map key = ((xs.map key).filter fun k => !seen.contains k).eraseDups := by
  induction xs generalizing seen with
  | nil => rfl
  | cons y xs ih =>
    rw [go, List.map_cons]
    by_cases hy : seen.contains (key y) = true
    · rw [if_pos hy, List.filter_cons_of_neg (by simpa using hy), ih]
    · rw [if_neg hy, List.filter_cons_of_pos (by simpa using hy), List.eraseDups_cons,
        List.filter_filter, List.map_cons, ih]
      refine congrArg (fun ks : List String => key y :: ks.eraseDups)
        (List.filter_congr fun k _ => ?_)
      rw [List.contains_cons, Bool.not_or]

end distinctBy

theorem mem_of_mem_distinctBy (h : x ∈ distinctBy key xs) : x ∈ xs :=
  (distinctBy.go_mem h).1

theorem nodup_distinctBy (key : α → String) (xs : List α) :
    ((distinctBy key xs).map key).Nodup :=
  distinctBy.go_nodup key [] xs

theorem find?_of_mem_distinctBy (h : x ∈ distinctBy key xs) :
    xs.find? (key · = key x) = some x :=
  distinctBy.go_find? h

theorem distinctBy_map (f : α → β) (key : β → String) (xs : List α) :
    distinctBy key (xs.map f) = (distinctBy (fun x => key (f x)) xs).map f :=
  distinctBy.go_map f key [] xs

theorem distinctBy_eq_self (h : (xs.map key).Nodup) : distinctBy key xs = xs :=
  distinctBy.go_eq_self h fun _ _ => List.not_mem_nil

/-- The keys of the items that stay are those of all items, each where it comes first. -/
theorem map_distinctBy (key : α → String) (xs : List α) :
    (distinctBy key xs).map key = (xs.map key).eraseDups := by
  have all : (xs.map key).filter (fun k => !([] : List String).contains k) = xs.map key :=
    List.filter_eq_self.mpr fun _ _ => rfl
  rw [distinctBy, distinctBy.go_map_key, all]

theorem mem_map_distinctBy {k : String} : k ∈ (distinctBy key xs).map key ↔ k ∈ xs.map key := by
  rw [map_distinctBy, List.mem_eraseDups]

section Pairs

variable {γ : Type} {f : α → β → γ} {ys : List β} {z : γ}

theorem exists_of_mem_zipWith (h : z ∈ List.zipWith f xs ys) : ∃ x ∈ xs, ∃ y ∈ ys, z = f x y := by
  rw [← List.map_uncurry_zip_eq_zipWith] at h
  obtain ⟨⟨x, y⟩, hxy, rfl⟩ := List.mem_map.mp h
  obtain ⟨hx, hy⟩ := List.of_mem_zip hxy
  exact ⟨x, hx, y, hy, rfl⟩

theorem map_zipWith_left {δ : Type} {g : γ → δ} {k : α → δ} (hg : ∀ x y, g (f x y) = k x)
    (length : xs.length ≤ ys.length) : (List.zipWith f xs ys).map g = xs.map k := by
  rw [← List.map_uncurry_zip_eq_zipWith, List.map_map, ← List.map_fst_zip length, List.map_map,
    List.map_fst_zip length]
  exact List.map_congr_left fun p _ => hg p.1 p.2

theorem map_zipWith_right {δ : Type} {g : γ → δ} {k : β → δ} (hg : ∀ x y, g (f x y) = k y)
    (length : ys.length ≤ xs.length) : (List.zipWith f xs ys).map g = ys.map k := by
  rw [← List.map_uncurry_zip_eq_zipWith, List.map_map, ← List.map_snd_zip length, List.map_map,
    List.map_snd_zip length]
  exact List.map_congr_left fun p _ => hg p.1 p.2

theorem forall₂_zipWith {R : α → γ → Prop} (length : xs.length = ys.length)
    (h : ∀ x y, f x y ∈ List.zipWith f xs ys → R x (f x y)) :
    List.Forall₂ R xs (List.zipWith f xs ys) := by
  induction xs generalizing ys with
  | nil => exact .nil
  | cons x xs ih =>
    cases ys with
    | nil => cases length
    | cons y ys =>
      rw [List.zipWith_cons_cons] at h ⊢
      exact .cons (h x y List.mem_cons_self) (ih (Nat.succ.inj length) fun x y hxy =>
        h x y (List.mem_cons_of_mem _ hxy))

end Pairs

end SchemaClient
