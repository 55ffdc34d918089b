import SchemaClient.Proofs.Text.Scanning

/-!
# What erasing leaves

A shape says which texts are matches and what may follow them. A text is erased from left to right:
a match is passed over as a whole, and a character is left only where no match starts. If a pattern
finds the matches of a shape, the shape alone tells what is left.
-/

namespace SchemaClient.Text

/-- A text that is a match, in front of the text that follows it. -/
abbrev Shape := List Char → List Char → Prop

/-- The second text is left of the first one when the matches are taken out. -/
inductive Without (S : Shape) : List Char → List Char → Prop
  | nil : Without S [] []
  | hit {found rest left : List Char} :
      S found rest → Without S rest left → Without S (found ++ rest) left
  | skip {c : Char} {cs left : List Char} :
      (∀ found rest, S found rest → found ++ rest ≠ c :: cs) → Without S cs left →
      Without S (c :: cs) (c :: left)

/-- The pattern finds the matches of the shape and nothing else. -/
structure Finds (p : List Char → Option Nat) (S : Shape) : Prop where
  nonempty : ∀ {found rest}, S found rest → found ≠ []
  eq_some_iff : ∀ {cs n}, p cs = some n ↔
    ∃ found rest, cs = found ++ rest ∧ found.length = n ∧ S found rest

variable {S : Shape} {p : List Char → Option Nat} {q : Char → Bool} {cs left : List Char}

namespace Finds

theorem eq_none (h : Finds p S) (miss : ∀ found rest, S found rest → found ++ rest ≠ cs) :
    p cs = none := by
  cases hp : p cs with
  | none => rfl
  | some n =>
    obtain ⟨found, rest, rfl, -, matched⟩ := h.eq_some_iff.mp hp
    exact absurd rfl (miss found rest matched)

theorem miss (h : Finds p S) (none : p cs = none) {found rest : List Char}
    (matched : S found rest) : found ++ rest ≠ cs := by
  intro heq
  have hit : p cs = some found.length := h.eq_some_iff.mpr ⟨found, rest, heq.symm, rfl, matched⟩
  rw [none] at hit
  cases hit

theorem without_erase (h : Finds p S) (cs : List Char) : Without S cs (erase p cs) := by
  induction hlength : cs.length using Nat.strongRecOn generalizing cs with
  | ind length ih =>
    cases cs with
    | nil => exact .nil
    | cons c cs =>
      cases hp : p (c :: cs) with
      | none =>
        rw [erase_cons_of_none hp]
        exact .skip (fun _ _ => h.miss hp) (ih cs.length (by simp [← hlength]) cs rfl)
      | some n =>
        obtain ⟨found, rest, heq, hn, matched⟩ := h.eq_some_iff.mp hp
        have size := congrArg List.length heq
        have nonempty := List.length_pos_iff.mpr (h.nonempty matched)
        rw [List.length_append] at size
        rw [heq, ← hn] at hp
        rw [heq, erase_match (h.nonempty matched) hp]
        exact .hit matched (ih rest.length (by omega) rest rfl)

theorem erase_eq (h : Finds p S) (hleft : Without S cs left) : erase p cs = left := by
  induction hleft with
  | nil => rfl
  | @hit found rest left matched _ ih =>
    have hp : p (found ++ rest) = some found.length :=
      h.eq_some_iff.mpr ⟨found, rest, rfl, rfl, matched⟩
    rw [erase_match (h.nonempty matched) hp, ih]
  | skip miss _ ih => rw [erase_cons_of_none (h.eq_none miss), ih]

theorem without_iff (h : Finds p S) : Without S cs left ↔ erase p cs = left := by
  constructor
  · exact h.erase_eq
  · rintro rfl
    exact h.without_erase cs

end Finds

/-! ### Seams -/

/-- A character of the class stands nowhere right behind `a`. -/
def Parted (a : Char) (q : Char → Bool) (cs : List Char) : Prop :=
  ∀ c, q c = true → ¬ [a, c] <:+: cs

namespace Parted

variable {a d : Char} {t : List Char}

theorem nil : Parted a q [] := by
  intro c _ h
  exact absurd h.length_le (by simp)

theorem cons_iff : Parted a q (d :: cs) ↔ (d = a → Stops q cs) ∧ Parted a q cs := by
  constructor
  · intro h
    refine ⟨?_, fun c hc inside => h c hc (List.infix_cons inside)⟩
    rintro rfl c hc
    cases hq : q c with
    | false => rfl
    | true =>
      obtain ⟨cs, rfl⟩ : ∃ cs', cs = c :: cs' := List.head?_eq_some_iff.mp hc
      exact absurd ⟨[], cs, rfl⟩ (h c hq)
  · rintro ⟨start, rest⟩ c hc inside
    rcases List.infix_cons_iff.mp inside with ⟨t, ht⟩ | inside
    · obtain ⟨rfl, rfl⟩ := List.cons.inj ht
      rw [(start rfl).head] at hc
      cases hc
    · exact rest c hc inside

theorem inside (h : Parted a q cs) (ht : t <:+: cs) : Parted a q t :=
  fun c hc found => h c hc (found.trans ht)

end Parted

namespace Without

variable {a : Char}

/-- What follows a match comes to stand where the match began. -/
theorem stops (h : Without S cs left) (ends : ∀ found rest, S found rest → Stops q rest)
    (start : Stops q cs) : Stops q left := by
  induction h with
  | nil => exact start
  | hit matched _ ih => exact ih (ends _ _ matched)
  | skip _ _ _ => exact Stops.cons start.head

/-- No seam puts a character of the class behind `a` if none follows a match and none follows an
`a` that is left. -/
theorem parted (h : Without S cs left) (ends : ∀ found rest, S found rest → Stops q rest)
    (kept : ∀ t, a :: t <:+ cs → (∀ found rest, S found rest → found ++ rest ≠ a :: t) →
      Stops q t) : Parted a q left := by
  induction h with
  | nil => exact Parted.nil
  | hit _ _ ih => exact ih fun t ht => kept t (ht.trans (List.suffix_append _ _))
  | @skip c cs left miss hleft ih =>
    refine Parted.cons_iff.mpr ⟨?_, ih fun t ht => kept t (ht.trans (List.suffix_cons _ _))⟩
    rintro rfl
    exact hleft.stops ends (kept cs (List.suffix_refl _) miss)

end Without

end SchemaClient.Text
