import Mathlib.Data.List.Nodup
import Mathlib.Data.List.Perm.Basic
import SchemaClient.Dictionary

/-!
# Dictionaries

Updates of different keys can be made in either order, and two updates of one key are one. Entries
with different keys are listed in a dictionary as they are, but for their order. A dictionary made of
entries is sorted, and a sorted dictionary is told by its lookups.
-/

namespace SchemaClient.Dictionary

variable {α : Type} {k k' : String} {f : Option α → α} {d : Dictionary α}

theorem lt_or_gt_of_ne (hne : k ≠ k') : k < k' ∨ k' < k := by
  by_contra h
  rw [not_or] at h
  exact hne (String.le_antisymm (String.not_lt.mp h.2) (String.not_lt.mp h.1))

theorem update_comm (hne : k ≠ k') (f g : Option α → α) (d : Dictionary α) :
    update k f (update k' g d) = update k' g (update k f d) := by
  have total := lt_or_gt_of_ne hne
  induction d with
  | nil => grind [update, String.lt_asymm]
  | cons e rest ih => grind [update, String.lt_asymm, String.lt_trans]

theorem update_update (k : String) (f g : Option α → α) (d : Dictionary α) :
    update k f (update k g d) = update k (fun v => f (some (g v))) d := by
  induction d with
  | nil => simp [update]
  | cons e rest ih => grind [update]

theorem lookup_update (k : String) (f : Option α → α) (d : Dictionary α) :
    ∃ v, (update k f d).lookup k = some (f v) := by
  induction d with
  | nil => exact ⟨none, by simp [update]⟩
  | cons e rest ih =>
    obtain ⟨k', v⟩ := e
    rw [update]
    split
    · exact ⟨some v, by simp⟩
    · rename_i hne
      split
      · exact ⟨none, by simp⟩
      · obtain ⟨w, hw⟩ := ih
        exact ⟨w, by rw [List.lookup_cons, beq_false_of_ne hne, hw]⟩

/-- What holds of all entries, and of the new value whatever it is made of, holds after an
update. -/
theorem forall_mem_update {P : String × α → Prop} (hd : ∀ e ∈ d, P e) (hnew : P (k, f none))
    (hold : ∀ v, P (k, v) → P (k, f (some v))) : ∀ e ∈ update k f d, P e := by
  induction d with
  | nil =>
    intro e he
    rw [update, List.mem_singleton] at he
    exact he ▸ hnew
  | cons e₀ rest ih =>
    obtain ⟨k', v⟩ := e₀
    rw [List.forall_mem_cons] at hd
    rw [update]
    split
    · rename_i hk
      subst hk
      exact List.forall_mem_cons.mpr ⟨hold v hd.1, hd.2⟩
    · split
      · exact List.forall_mem_cons.mpr ⟨hnew, List.forall_mem_cons.mpr hd⟩
      · exact List.forall_mem_cons.mpr ⟨hd.1, ih hd.2⟩

theorem mem_of_lookup {v : α} (h : d.lookup k = some v) : (k, v) ∈ d := by
  obtain ⟨before, behind, rfl, -⟩ := List.lookup_eq_some_iff.mp h
  exact List.mem_append_right _ List.mem_cons_self

theorem insert_perm {v : α} (h : k ∉ d.map Prod.fst) : (d.insert k v).Perm ((k, v) :: d) := by
  induction d with
  | nil => exact .refl _
  | cons e rest ih =>
    obtain ⟨k', v'⟩ := e
    rw [List.map_cons, List.mem_cons, not_or] at h
    rw [insert, if_neg h.1]
    split
    · exact .refl _
    · exact ((ih h.2).cons _).trans (.swap ..)

theorem ofList_perm {entries : List (String × α)} (distinct : (entries.map Prod.fst).Nodup) :
    (ofList entries).Perm entries := by
  suffices ∀ d : Dictionary α, ((d ++ entries).map Prod.fst).Nodup →
      (entries.foldl (fun d e => d.insert e.1 e.2) d).Perm (d ++ entries) from this [] distinct
  clear distinct
  induction entries with
  | nil => exact fun d _ => by rw [List.append_nil]; exact .refl _
  | cons e rest ih =>
    intro d distinct
    have fresh : e.1 ∉ d.map Prod.fst := by
      rw [List.map_append, List.map_cons] at distinct
      exact fun h => (List.nodup_append.mp distinct).2.2 _ h _ List.mem_cons_self rfl
    have moved : (d.insert e.1 e.2 ++ rest).Perm (d ++ e :: rest) :=
      ((insert_perm fresh).append_right rest).trans List.perm_middle.symm
    exact (ih _ ((moved.map Prod.fst).nodup_iff.mpr distinct)).trans moved

/-! ## Lookups -/

section Lookups

theorem get?_cons (key : String) (value : α) (rest : Dictionary α) (k : String) :
    get? ((key, value) :: rest) k = if k = key then some value else rest.get? k := by
  by_cases hk : k = key
  · simp [get?, hk]
  · have hbeq : (k == key) = false := by simpa using hk
    rw [get?, List.lookup_cons, hbeq, if_neg hk]
    rfl

theorem get?_insert (d : Dictionary α) (key : String) (value : α) (k : String) :
    (d.insert key value).get? k = if k = key then some value else d.get? k := by
  induction d with
  | nil => exact get?_cons key value [] k
  | cons e rest ih =>
    obtain ⟨k', v⟩ := e
    rw [insert]
    split
    · rename_i hkey
      subst hkey
      rw [get?_cons, get?_cons]
      split
      · rfl
      · rfl
    · rename_i hkey
      split
      · exact get?_cons key value _ k
      · rw [get?_cons, get?_cons, ih]
        split
        · rename_i hk
          subst hk
          rw [if_neg fun h => hkey h.symm]
        · rfl

end Lookups

/-! ## Order -/

section Order

variable {e : String × α} {d' : Dictionary α} {v : α}

theorem mem_of_mem_insert (h : e ∈ d.insert k v) : e = (k, v) ∨ e ∈ d := by
  induction d with
  | nil => exact .inl (List.mem_singleton.mp h)
  | cons e₀ rest ih =>
    obtain ⟨k', v'⟩ := e₀
    rw [insert] at h
    split at h
    · exact (List.mem_cons.mp h).imp_right (List.mem_cons_of_mem _)
    · split at h
      · exact List.mem_cons.mp h
      · rcases List.mem_cons.mp h with rfl | h
        · exact .inr List.mem_cons_self
        · exact (ih h).imp_right (List.mem_cons_of_mem _)

theorem insert_of_forall_lt (last : ∀ e ∈ d, e.1 < k) : d.insert k v = d ++ [(k, v)] := by
  induction d with
  | nil => rfl
  | cons e₀ rest ih =>
    obtain ⟨hlt, later⟩ := List.forall_mem_cons.mp last
    have hne : k ≠ e₀.1 := by
      rintro rfl
      exact String.lt_irrefl _ hlt
    rw [insert, if_neg hne, if_neg (String.lt_asymm hlt), ih later]
    rfl

theorem Sorted.insert (h : d.Sorted) (k : String) (v : α) : (d.insert k v).Sorted := by
  induction d with
  | nil => exact List.pairwise_singleton _ _
  | cons e₀ rest ih =>
    obtain ⟨k', v'⟩ := e₀
    obtain ⟨first, later⟩ := List.pairwise_cons.mp h
    rw [Dictionary.insert]
    split
    · rename_i hk
      subst hk
      exact List.pairwise_cons.mpr ⟨first, later⟩
    · rename_i hne
      split
      · rename_i hlt
        refine List.pairwise_cons.mpr ⟨?_, h⟩
        exact List.forall_mem_cons.mpr ⟨hlt, fun e he => String.lt_trans hlt (first e he)⟩
      · rename_i hlt
        refine List.pairwise_cons.mpr ⟨?_, ih later⟩
        intro e he
        rcases mem_of_mem_insert he with rfl | he
        · exact (lt_or_gt_of_ne hne).resolve_left hlt
        · exact first e he

theorem sorted_ofList (entries : List (String × α)) : (ofList entries).Sorted :=
  List.foldlRecOn entries _ List.Pairwise.nil fun _ h _ _ => h.insert _ _

theorem Sorted.mem_iff (h : d.Sorted) : (k, v) ∈ d ↔ d.get? k = some v := by
  constructor
  · intro hmem
    induction d with
    | nil => cases hmem
    | cons e₀ rest ih =>
      obtain ⟨first, later⟩ := List.pairwise_cons.mp h
      rcases List.mem_cons.mp hmem with rfl | hmem
      · exact List.lookup_cons_self
      · have other : k ≠ e₀.1 := by
          intro hk
          have hlt : e₀.1 < k := first (k, v) hmem
          exact String.lt_irrefl k (by rwa [← hk] at hlt)
        have hbeq : (k == e₀.1) = false := beq_false_of_ne other
        rw [get?, List.lookup_cons, hbeq]
        exact ih later hmem
  · exact mem_of_lookup

/-- The entries that a key is not among are those of larger keys. -/
theorem get?_eq_none_of_forall_lt (later : ∀ e ∈ d, k < e.1) : d.get? k = none := by
  rw [get?, List.lookup_eq_none_iff]
  intro e he
  have hlt := later e he
  rw [bne_iff_ne]
  rintro rfl
  exact String.lt_irrefl _ hlt

theorem Sorted.update_eq_insert (h : d.Sorted) (k : String) (f : Option α → α) :
    update k f d = d.insert k (f (d.get? k)) := by
  induction d with
  | nil => rfl
  | cons e₀ rest ih =>
    obtain ⟨k', v'⟩ := e₀
    obtain ⟨first, later⟩ := List.pairwise_cons.mp h
    rw [update, Dictionary.insert, get?_cons]
    split
    · rfl
    · split
      · rename_i hlt
        have absent : get? rest k = none :=
          get?_eq_none_of_forall_lt fun e he => String.lt_trans hlt (first e he)
        rw [absent]
      · rw [ih later]

theorem mem_keys_insert (h : k' ∈ d.map Prod.fst) : k' ∈ (d.insert k v).map Prod.fst := by
  induction d with
  | nil => cases h
  | cons e₀ rest ih =>
    obtain ⟨k₀, v₀⟩ := e₀
    rw [Dictionary.insert]
    split
    · rename_i hk
      subst hk
      exact h
    · split
      · exact List.mem_cons_of_mem _ h
      · rw [List.map_cons, List.mem_cons] at h ⊢
        exact h.imp_right ih

theorem Sorted.nodup (h : d.Sorted) : d.Nodup := by
  refine List.Pairwise.imp ?_ h
  rintro e _ hlt rfl
  exact String.lt_irrefl _ hlt

theorem Sorted.ext (h : d.Sorted) (h' : d'.Sorted) (lookups : ∀ k, d.get? k = d'.get? k) :
    d = d' := by
  have entries : d.Perm d' := by
    rw [List.perm_ext_iff_of_nodup h.nodup h'.nodup]
    intro e
    have found : (e.1, e.2) ∈ d ↔ (e.1, e.2) ∈ d' := by rw [h.mem_iff, h'.mem_iff, lookups]
    exact found
  exact entries.eq_of_pairwise (fun _ _ _ _ hab hba => absurd hba (String.lt_asymm hab)) h h'

/-- Giving a key the value that it has changes nothing. -/
theorem Sorted.insert_eq_self (h : d.Sorted) (found : d.get? k = some v) : d.insert k v = d := by
  refine (h.insert k v).ext h fun k' => ?_
  rw [get?_insert]
  split
  · rename_i hk
    rw [hk, found]
  · rfl

end Order

end SchemaClient.Dictionary
