import SchemaClient.Proofs.Names.Claims
import SchemaClient.Proofs.Names.Spelling

/-!
# Legal names

Whatever text a name is made of, and however it is spelled and numbered, the name is one that an
identifier can be made of, raw or not: a name of ASCII that is not underscores only and not
reserved.
-/

namespace SchemaClient.Names

open Text Source

/-- A name that an identifier can be made of, raw or not. -/
structure Legal (n : String) : Prop where
  isName : IsName n.toList
  visible : ∃ c ∈ n.toList, c ≠ '_'
  free : n ∉ reservedNames

theorem legal_iff {n : String} :
    Legal n ↔ IsName n.toList ∧ n.toList.any (· ≠ '_') = true ∧ n ∉ reservedNames := by
  have any : n.toList.any (· ≠ '_') = true ↔ ∃ c ∈ n.toList, c ≠ '_' := by simp
  rw [any]
  exact ⟨fun h => ⟨h.isName, h.visible, h.free⟩, fun h => ⟨h.1, h.2.1, h.2.2⟩⟩

-- Decided along the characters of the name, and not among all characters there are.
instance (n : String) : Decidable (Legal n) :=
  decidable_of_iff _ legal_iff.symm

variable {cs fallback : List Char} {n : String} {taken names : List String}

/-! ## Making names -/

theorem isNameStart_of_isNameChar {c : Char} (h : isNameChar c = true) (digit : c.isDigit = false) :
    isNameStart c = true := by
  simpa [isNameChar, isNameStart, Char.isAlphanum, digit] using h

theorem legal_guardName (hname : ∀ c ∈ cs, isNameChar c = true) (visible : ∃ c ∈ cs, c ≠ '_') :
    Legal (String.ofList (guardName cs)) := by
  obtain ⟨d, hd, hvisible⟩ := visible
  rw [guardName]
  split
  · refine ⟨?_, ⟨d, by simpa using .inr hd, hvisible⟩, ?_⟩
    · rw [String.toList_ofList]
      exact ⟨rfl, List.forall_mem_cons.mpr ⟨by decide, hname⟩⟩
    · intro h
      have start : ∀ r ∈ reservedNames, r.toList.head? ≠ some '_' := by decide
      exact start _ h (by simp)
  · rename_i digit
    split
    · rename_i reserved
      have marked : ∀ r ∈ reservedNames, Legal (String.ofList (r.toList ++ ['_'])) := by decide
      simpa using marked _ (by simpa using reserved)
    · rename_i free
      obtain ⟨c, cs, rfl⟩ := List.exists_cons_of_ne_nil (List.ne_nil_of_mem hd)
      refine ⟨?_, ⟨d, by simpa using hd, hvisible⟩, by simpa using free⟩
      rw [String.toList_ofList]
      exact ⟨isNameStart_of_isNameChar (hname c List.mem_cons_self) (by simpa using digit), hname⟩

theorem isNameChar_of_mem_replaceForeign : ∀ c ∈ replaceForeign cs, isNameChar c = true := by
  intro c hc
  obtain ⟨d, -, rfl⟩ := List.mem_map.mp hc
  split
  · assumption
  · decide

theorem legal_sanitize (h : Legal (String.ofList fallback)) (cs : List Char) :
    Legal (String.ofList (sanitize cs fallback)) := by
  rw [sanitize]
  split
  · have kept := h.isName.2
    have visible := h.visible
    rw [String.toList_ofList] at kept visible
    exact legal_guardName kept visible
  · rename_i other
    refine legal_guardName isNameChar_of_mem_replaceForeign ?_
    simpa using other

@[simp]
theorem legal_fieldName (name : String) : Legal (fieldName name) :=
  legal_sanitize (by decide) _

@[simp]
theorem legal_variantName (value : String) : Legal (variantName value) :=
  legal_sanitize (by decide) _

@[simp]
theorem legal_typeName (name : String) : Legal (typeName name) :=
  legal_sanitize (by decide) _

@[simp]
theorem legal_constantName (name : String) : Legal (constantName name) :=
  legal_sanitize (by decide) _

/-! ## Names with something put to them -/

theorem not_reserved_of_underscore (h : '_' ∈ n.toList) : n ∉ reservedNames := by
  intro reserved
  have plain : ∀ r ∈ reservedNames, '_' ∉ r.toList := by decide
  exact plain n reserved h

theorem Legal.numbered (h : Legal n) (k : Nat) : Legal (numbered n k) := by
  obtain ⟨c, hc, hvisible⟩ := h.visible
  have digits : ∀ d ∈ Nat.toDigits 10 k, isNameChar d = true := by
    intro d hd
    have digit : d.isDigit = true :=
      Nat.isDigit_of_mem_toDigits (by decide) (Nat.le_refl 10) hd
    simp [isNameChar, Char.isAlphanum, digit]
  refine ⟨?_, ⟨c, ?_, hvisible⟩, not_reserved_of_underscore ?_⟩
  · obtain ⟨hstart, hall⟩ := h.isName
    rw [numbered_toList]
    refine ⟨?_, List.forall_mem_append.mpr ⟨hall, List.forall_mem_cons.mpr ⟨by decide, digits⟩⟩⟩
    obtain ⟨d, ds, hn⟩ := List.exists_cons_of_ne_nil (List.ne_nil_of_mem hc)
    rw [hn] at hstart ⊢
    exact hstart
  · rw [numbered_toList]
    exact List.mem_append_left _ hc
  · rw [numbered_toList]
    exact List.mem_append_right _ List.mem_cons_self

theorem legal_of_mem_claimAll (h : ∀ n ∈ names, Legal n) : ∀ n ∈ claimAll taken names, Legal n := by
  intro x hx
  obtain ⟨n, hn, rfl | ⟨k, rfl⟩⟩ := eq_of_mem_claimAll hx
  · exact h _ hn
  · exact (h _ hn).numbered k

theorem Legal.setter (h : Legal n) : Legal ("with_" ++ n) := by
  refine ⟨⟨by simp; decide, ?_⟩, ⟨'w', by simp, by decide⟩, not_reserved_of_underscore (by simp)⟩
  rw [String.toList_append]
  exact List.forall_mem_append.mpr ⟨by decide, h.isName.2⟩

/-! ## Identifiers -/

/-- Makers of identifiers and of raw identifiers; none is made where they panic. -/
structure IdentifierMakers (τ : Type) where
  plain : String → Option τ
  raw : String → Option τ

namespace IdentifierMakers

variable {τ : Type}

/-- The identifier of a name, raw for a keyword. -/
def make (makers : IdentifierMakers τ) (name : String) : Option τ :=
  if isRawKeyword name then makers.raw name else makers.plain name

/-- Names that are no identifiers are rejected, and raw ones that have no raw form, but nothing
else. -/
structure RejectOnly (makers : IdentifierMakers τ) : Prop where
  plain : ∀ n, makers.plain n = none → isIdentifier n = false
  raw : ∀ n, makers.raw n = none → isIdentifier n = false ∨ n = "_" ∨ n ∈ reservedNames

end IdentifierMakers

theorem isIdentifierStart_of_isNameStart {c : Char} (h : isNameStart c = true) :
    (c = '_' || isIdentifierStart c) = true := by
  have name : isNameChar c = true := by
    rw [isNameStart, Bool.or_eq_true] at h
    rw [isNameChar, Char.isAlphanum, Bool.or_eq_true, Bool.or_eq_true]
    exact h.imp .inl id
  exact ascii_of_isNameChar
    (P := fun c => isNameStart c = true → (c = '_' || isIdentifierStart c) = true)
    (by decide) name h

theorem isIdentifierRest_of_isNameChar {c : Char} (h : isNameChar c = true) :
    isIdentifierRest c = true :=
  ascii_of_isNameChar (P := fun c => isIdentifierRest c = true) (by decide) h

theorem Legal.isIdentifier (h : Legal n) : isIdentifier n = true := by
  obtain ⟨start, all⟩ := h.isName
  obtain ⟨c, hc, -⟩ := h.visible
  obtain ⟨d, cs, hn⟩ := List.exists_cons_of_ne_nil (List.ne_nil_of_mem hc)
  rw [hn] at start all
  rw [Names.isIdentifier, hn, Bool.and_eq_true, List.all_eq_true]
  refine ⟨isIdentifierStart_of_isNameStart start, fun c hc => ?_⟩
  exact isIdentifierRest_of_isNameChar (all c (List.mem_cons_of_mem _ hc))

/-- No maker of identifiers panics on a legal name. -/
theorem Legal.isSome_make {τ : Type} {makers : IdentifierMakers τ} (h : Legal n)
    (rejects : makers.RejectOnly) : (makers.make n).isSome = true := by
  rw [Option.isSome_iff_ne_none, IdentifierMakers.make]
  split
  · intro panics
    rcases rejects.raw n panics with foreign | rfl | reserved
    · rw [h.isIdentifier] at foreign
      cases foreign
    · revert h
      decide
    · exact h.free reserved
  · intro panics
    have foreign := rejects.plain n panics
    rw [h.isIdentifier] at foreign
    cases foreign

/-! ## Written identifiers -/

/-- An identifier without the mark of a raw one. -/
def unmarked (identifier : String) : String :=
  match identifier.toList with
  | 'r' :: '#' :: cs => String.ofList cs
  | _ => identifier

theorem unmarked_written (h : Legal n) : unmarked (written n) = n := by
  rw [written]
  split
  · simp [unmarked]
  · -- A name has no number sign, so that none is taken for a mark.
    have plain : '#' ∉ n.toList := fun hmem => absurd (h.isName.2 _ hmem) (by decide)
    rw [unmarked]
    split
    · rename_i cs heq
      rw [heq] at plain
      simp at plain
    · rfl

/-- Names that identifiers can be made of, no two of them alike as they are written, nor without
the mark of a raw identifier. -/
structure DistinctIdentifiers (names : List String) : Prop where
  legal : ∀ n ∈ names, Legal n
  distinct : (names.map written).Nodup
  apart : (names.map fun n => unmarked (written n)).Nodup

theorem distinctIdentifiers (legal : ∀ n ∈ names, Legal n) (distinct : names.Nodup) :
    DistinctIdentifiers names := by
  have same : names.map (fun n => unmarked (written n)) = names :=
    (List.map_congr_left fun n hn => unmarked_written (legal n hn)).trans (List.map_id _)
  have apart : (names.map fun n => unmarked (written n)).Nodup := by
    rw [same]
    exact distinct
  refine ⟨legal, ?_, apart⟩
  apply List.Nodup.of_map unmarked
  rw [List.map_map]
  exact apart

end SchemaClient.Names
