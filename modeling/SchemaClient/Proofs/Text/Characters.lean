import SchemaClient.Text.Alphabet
import SchemaClient.Text.Blank
import SchemaClient.Text.Scan

/-!
# Characters of names, blanks and words

Names are of ASCII; every character of a name is a character of words, and no blank is one.
-/

namespace SchemaClient.Text

variable {c : Char}

theorem ne_of_apply {p : Char → Bool} {d : Char} (hc : p c = true) (hd : p d = false) : c ≠ d := by
  rintro rfl
  rw [hc] at hd
  cases hd

/-- What is to hold of a character of ASCII is looked up among the 128 of them. -/
theorem of_ascii {P : Char → Prop} (table : ∀ n < 128, P (Char.ofNat n)) (h : c.toNat < 128) :
    P c := by
  rw [← Char.ofNat_toNat c]
  exact table c.toNat h

theorem isAlpha_iff :
    c.isAlpha = true ↔ (65 ≤ c.toNat ∧ c.toNat ≤ 90) ∨ (97 ≤ c.toNat ∧ c.toNat ≤ 122) := by
  delta Char.isAlpha Char.isUpper Char.isLower
  simp only [Bool.or_eq_true, Bool.and_eq_true, decide_eq_true_eq, UInt32.le_iff_toNat_le,
    ge_iff_le]
  rfl

theorem isDigit_iff : c.isDigit = true ↔ 48 ≤ c.toNat ∧ c.toNat ≤ 57 := by
  simp only [Char.isDigit, Bool.and_eq_true, decide_eq_true_eq, UInt32.le_iff_toNat_le,
    ge_iff_le]
  rfl

theorem isNameChar_iff : isNameChar c = true ↔
    (65 ≤ c.toNat ∧ c.toNat ≤ 90) ∨ (97 ≤ c.toNat ∧ c.toNat ≤ 122) ∨
      (48 ≤ c.toNat ∧ c.toNat ≤ 57) ∨ c.toNat = 95 := by
  have underscore : c = '_' ↔ c.toNat = 95 :=
    ⟨fun h => by rw [h]; rfl, fun h => Char.toNat_inj.mp h⟩
  simp only [isNameChar, Char.isAlphanum, Bool.or_eq_true, decide_eq_true_eq, isAlpha_iff,
    isDigit_iff, underscore, or_assoc]

theorem inRanges_cons {n low high : Nat} {rest : List (Nat × Nat)} :
    inRanges n ((low, high) :: rest) = true ↔ low ≤ n ∧ (n ≤ high ∨ inRanges n rest = true) := by
  rw [inRanges]
  split
  · simp; omega
  · simp; omega

/-- Printable ASCII characters but the space are no blanks. -/
theorem isBlank_of_visible (low : 33 ≤ c.toNat) (high : c.toNat ≤ 126) : isBlank c = false := by
  cases h : isBlank c with
  | false => rfl
  | true =>
    simp only [isBlank, blankRanges, inRanges_cons] at h
    omega

theorem isBlank_of_isNameChar (h : isNameChar c = true) : isBlank c = false := by
  rw [isNameChar_iff] at h
  exact isBlank_of_visible (by omega) (by omega)

theorem isNameChar_of_isBlank (h : isBlank c = true) : isNameChar c = false := by
  cases hc : isNameChar c with
  | false => rfl
  | true =>
    rw [isBlank_of_isNameChar hc] at h
    cases h

theorem isWordChar_of_isNameChar (h : isNameChar c = true) : isWordChar c = true := by
  rw [isNameChar_iff] at h
  simp only [isWordChar, isAlphabetic, Bool.or_eq_true]
  rcases h with h | h | h | h
  · exact .inl (.inl (.inl (.inl (.inl (inRanges_cons.mpr ⟨h.1, .inl h.2⟩)))))
  · exact .inl (.inl (.inl (.inl (.inl
      (inRanges_cons.mpr ⟨by omega, .inr (inRanges_cons.mpr ⟨h.1, .inl h.2⟩)⟩)))))
  · exact .inl (.inl (.inl (.inr (inRanges_cons.mpr ⟨h.1, .inl h.2⟩))))
  · exact .inl (.inl (.inr (inRanges_cons.mpr ⟨by omega, .inl (by omega)⟩)))

set_option maxRecDepth 2000 in
theorem isWordChar_of_isBlank (h : isBlank c = true) : isWordChar c = false := by
  have table : ∀ n ∈ blankRanges.flatMap fun r => List.range' r.1 (r.2 + 1 - r.1),
      isWordChar (Char.ofNat n) = false := by decide
  rw [← Char.ofNat_toNat c]
  apply table
  simp only [isBlank, blankRanges, inRanges_cons] at h
  simp only [blankRanges, List.mem_flatMap, List.mem_range'_1]
  simp [inRanges] at h ⊢
  omega

end SchemaClient.Text
