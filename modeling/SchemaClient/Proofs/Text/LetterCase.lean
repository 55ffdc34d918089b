import SchemaClient.Proofs.Text.Characters
import SchemaClient.Text.LetterCase

/-!
# Letter case

Within ASCII the full case mappings turn one character into one, as the library's mappings do, and
names stay names. No mapping to upper case makes a blank or a brace of another character.
-/

namespace SchemaClient.Text

variable {c : Char} {cs : List Char}

theorem shifted_eq_none {n : Nat} {shifts : List Shift} (h : ∀ s ∈ shifts, n < s.span.first) :
    shifted n shifts = none := by
  induction shifts with
  | nil => rfl
  | cons s rest ih =>
    obtain ⟨first, later⟩ := List.forall_mem_cons.mp h
    have outside : s.span.contains n = false := by
      simp only [Progression.contains, Nat.not_le.mpr first, decide_false, Bool.false_and]
    rw [shifted, outside]
    exact ih later

/-- Within ASCII nothing but the first shift of a table counts. -/
theorem mapCase_ascii {expansions : List (Nat × List Nat)} {s : Shift} {later : List Shift}
    (listed : ∀ e ∈ expansions, 128 ≤ e.1) (beyond : later.all fun s => 128 ≤ s.span.first)
    (h : c.toNat < 128) : mapCase expansions (s :: later) c = mapCase [] [s] c := by
  have unlisted : expansions.lookup c.toNat = none := by
    rw [List.lookup_eq_none_iff]
    intro e he
    exact bne_iff_ne.mpr (Nat.ne_of_lt (Nat.lt_of_lt_of_le h (listed e he)))
  have unshifted : shifted c.toNat later = none :=
    shifted_eq_none fun s hs =>
      Nat.lt_of_lt_of_le h (of_decide_eq_true (List.all_eq_true.mp beyond s hs))
  simp only [mapCase, unlisted, List.lookup_nil, shifted, unshifted]

theorem toNat_lt_of_isNameChar (h : isNameChar c = true) : c.toNat < 128 := by
  rw [isNameChar_iff] at h
  omega

/-- What is to hold of the characters of names is looked up among the 128 characters of ASCII. -/
theorem ascii_of_isNameChar {P : Char → Prop}
    (table : ∀ n < 128, isNameChar (Char.ofNat n) = true → P (Char.ofNat n))
    (h : isNameChar c = true) : P c :=
  of_ascii (P := fun c => isNameChar c = true → P c) table (toNat_lt_of_isNameChar h) h

theorem upperChar_of_isNameChar (h : isNameChar c = true) : upperChar c = [c.toUpper] := by
  have ascii : upperChar c = mapCase [] [⟨⟨0x61, 0x7a, 1⟩, -32⟩] c :=
    mapCase_ascii (by decide) (by decide) (toNat_lt_of_isNameChar h)
  rw [ascii]
  exact ascii_of_isNameChar (P := fun c => mapCase [] _ c = [c.toUpper]) (by decide) h

theorem lowerChar_of_isNameChar (h : isNameChar c = true) : lowerChar c = [c.toLower] := by
  have ascii : lowerChar c = mapCase [] [⟨⟨0x41, 0x5a, 1⟩, 32⟩] c :=
    mapCase_ascii (by decide) (by decide) (toNat_lt_of_isNameChar h)
  rw [ascii]
  exact ascii_of_isNameChar (P := fun c => mapCase [] _ c = [c.toLower]) (by decide) h

theorem isNameChar_toUpper (h : isNameChar c = true) : isNameChar c.toUpper = true :=
  ascii_of_isNameChar (P := fun c => isNameChar c.toUpper = true) (by decide) h

theorem toLower_toLower (h : isNameChar c = true) : c.toLower.toLower = c.toLower :=
  ascii_of_isNameChar (P := fun c => c.toLower.toLower = c.toLower) (by decide) h

/-! ### Characters that no mapping leads to -/

theorem isBlank_eq_false_iff :
    isBlank c = false ↔ ∀ r ∈ blankRanges, c.toNat < r.1 ∨ r.2 < c.toNat := by
  rw [← Bool.not_eq_true]
  simp only [isBlank, blankRanges, inRanges_cons, List.forall_mem_cons, List.not_mem_nil]
  simp only [inRanges, Bool.false_eq_true, or_false, false_imp_iff, implies_true, and_true]
  omega

theorem toNat_ofNat (n : Nat) : (Char.ofNat n).toNat = if n.isValidChar then n else 0 := by
  by_cases h : n.isValidChar
  · rw [if_pos h, Char.ofNat, dif_pos h]
    rfl
  · rw [if_neg h, Char.ofNat, dif_neg h]
    rfl

/-- A case mapping stays out of a range if its table does. -/
theorem mapCase_outside {expansions : List (Nat × List Nat)} {shifts : List Shift} {low high : Nat}
    (positive : 0 < low)
    (listed : ∀ e ∈ expansions, ∀ code ∈ e.2, code < low ∨ high < code)
    (shifted : ∀ s ∈ shifts, s.span.last + s.offset < low ∨ high < s.span.first + s.offset)
    (hc : c.toNat < low ∨ high < c.toNat) :
    ∀ d ∈ mapCase expansions shifts c, d.toNat < low ∨ high < d.toNat := by
  intro d hd
  rw [mapCase] at hd
  split at hd
  · rename_i codes hcodes
    obtain ⟨code, hcode, rfl⟩ := List.mem_map.mp hd
    obtain ⟨before, after, rfl, -⟩ := List.lookup_eq_some_iff.mp hcodes
    have outside := listed (c.toNat, codes) (by simp) code hcode
    rw [toNat_ofNat]
    split
    · exact outside
    · exact .inl positive
  · rw [List.mem_singleton] at hd
    subst hd
    induction shifts with
    | nil => exact hc
    | cons s rest ih =>
      rw [List.forall_mem_cons] at shifted
      rw [Text.shifted]
      split
      · rename_i inside
        simp only [Progression.contains, Bool.and_eq_true, decide_eq_true_eq] at inside
        rw [Option.getD_some, toNat_ofNat]
        split
        · omega
        · exact .inl positive
      · exact ih shifted.2

/-- Upper case makes neither blanks nor braces of other characters. -/
theorem upperChar_outside {r : Nat × Nat}
    (hr : r ∈ (0x7b, 0x7b) :: (0x7d, 0x7d) :: blankRanges) (hc : c.toNat < r.1 ∨ r.2 < c.toNat) :
    ∀ d ∈ upperChar c, d.toNat < r.1 ∨ r.2 < d.toNat := by
  have positive : ∀ r ∈ (0x7b, 0x7b) :: (0x7d, 0x7d) :: blankRanges, 0 < r.1 := by decide
  have listed : ∀ r ∈ (0x7b, 0x7b) :: (0x7d, 0x7d) :: blankRanges, ∀ e ∈ upperExpansions,
      ∀ code ∈ e.2, code < r.1 ∨ r.2 < code := by
    decide
  have shifted : ∀ r ∈ (0x7b, 0x7b) :: (0x7d, 0x7d) :: blankRanges, upperShifts.all fun s =>
      s.span.last + s.offset < r.1 ∨ r.2 < s.span.first + s.offset := by
    decide
  exact mapCase_outside (positive r hr) (listed r hr)
    (fun s hs => of_decide_eq_true (List.all_eq_true.mp (shifted r hr) s hs)) hc

theorem upperChar_ne_nil (c : Char) : upperChar c ≠ [] := by
  have listed : ∀ e ∈ upperExpansions, e.2 ≠ [] := by decide
  rw [upperChar, mapCase]
  split
  · rename_i codes hcodes
    obtain ⟨before, after, htable, -⟩ := List.lookup_eq_some_iff.mp hcodes
    have := listed (c.toNat, codes) (by simp [htable])
    simpa using this
  · exact List.cons_ne_nil _ _

end SchemaClient.Text
