import Mathlib.Data.List.Nodup
import SchemaClient.Names.Identifier
import SchemaClient.Proofs.Names.Words
import SchemaClient.Proofs.Source.HeaderScan
import SchemaClient.Proofs.Text.LetterCase

/-!
# How schema names are spelled

A type keeps its name, except that a default stands for underscores and an underscore is put behind
a reserved name; so few names are spelled alike. Enum values are taken apart into words, and a value
is spelled in capitals only if its words are single letters.
-/

namespace SchemaClient.Names

open Text Source

variable {cs w : List Char} {ws : List (List Char)} {c : Char} {a b v : String}

/-! ## Types -/

/-- The name is spelled as the default: it is the default or has no character but underscores. -/
def SpelledType (n : String) : Prop :=
  (∀ c ∈ n.toList, c = '_') ∨ n = "Type"

/-- Names of which one is a reserved name and the other what it is spelled as, or which are both
spelled as the default. -/
def TypesClash (a b : String) : Prop :=
  SpelledType a ∧ SpelledType b ∨ a ∈ reservedNames ∧ b = a ++ "_" ∨
    b ∈ reservedNames ∧ a = b ++ "_"

theorem replaceForeign_eq_self (h : ∀ c ∈ cs, isNameChar c = true) : replaceForeign cs = cs := by
  refine (List.map_congr_left fun c hc => ?_).trans (List.map_id cs)
  rw [if_pos (h c hc), id_eq]

theorem isDigit_of_isNameStart (h : isNameStart c = true) : c.isDigit = false := by
  rw [isNameStart, Bool.or_eq_true, decide_eq_true_eq, isAlpha_iff] at h
  cases digit : c.isDigit with
  | false => rfl
  | true =>
    rw [isDigit_iff] at digit
    rcases h with h | rfl
    · omega
    · revert digit
      decide

theorem guardName_of_isName (h : IsName cs) :
    guardName cs = if reservedNames.contains (String.ofList cs) then cs ++ ['_'] else cs := by
  obtain ⟨start, -⟩ := h
  cases cs with
  | nil => cases start
  | cons c cs =>
    have digit : ((c :: cs).head?.map Char.isDigit).getD false = false :=
      isDigit_of_isNameStart start
    rw [guardName, digit, if_neg (by simp)]

theorem typeName_of_spelledType (h : SpelledType a) : typeName a = "Type" := by
  rcases h with h | rfl
  · have kept : (replaceForeign a.toList).all (· = '_') = true := by
      rw [List.all_eq_true]
      intro c hc
      obtain ⟨d, hd, rfl⟩ := List.mem_map.mp hc
      rw [h d hd]
      decide
    rw [typeName, sanitized, sanitize, if_pos kept]
    decide
  · decide

theorem typeName_of_reserved : ∀ r ∈ reservedNames,
    typeName r = r ++ "_" ∧ typeName (r ++ "_") = r ++ "_" ∧ r ++ "_" ≠ "Type" := by
  decide

theorem typeName_of_isName (h : IsName a.toList) (other : ¬ SpelledType a)
    (free : a ∉ reservedNames) : typeName a = a := by
  have kept : ¬ (a.toList.all (· = '_')) = true := by
    rw [List.all_eq_true]
    exact fun all => other (.inl fun c hc => of_decide_eq_true (all c hc))
  rw [typeName, sanitized, sanitize, replaceForeign_eq_self h.2, if_neg kept,
    guardName_of_isName h, String.ofList_toList, if_neg (by simpa using free),
    String.ofList_toList]

/-- A name is spelled as the default, or as a reserved name is, or as it stands. -/
theorem typeName_cases (h : IsName a.toList) :
    (SpelledType a ∧ typeName a = "Type") ∨ (a ∈ reservedNames ∧ typeName a = a ++ "_") ∨
      (¬ SpelledType a ∧ typeName a = a) := by
  by_cases spelled : SpelledType a
  · exact .inl ⟨spelled, typeName_of_spelledType spelled⟩
  · by_cases reserved : a ∈ reservedNames
    · exact .inr (.inl ⟨reserved, (typeName_of_reserved a reserved).1⟩)
    · exact .inr (.inr ⟨spelled, typeName_of_isName h spelled reserved⟩)

/-- Only names that clash are spelled alike. -/
theorem typeName_eq_iff (ha : IsName a.toList) (hb : IsName b.toList) :
    typeName a = typeName b ↔ a = b ∨ TypesClash a b := by
  constructor
  · intro h
    rcases typeName_cases ha with ⟨sa, ta⟩ | ⟨ra, ta⟩ | ⟨sa, ta⟩ <;>
      rcases typeName_cases hb with ⟨sb, tb⟩ | ⟨rb, tb⟩ | ⟨sb, tb⟩ <;> rw [ta, tb] at h
    · exact .inr (.inl ⟨sa, sb⟩)
    · exact absurd h.symm (typeName_of_reserved b rb).2.2
    · exact absurd (.inr h.symm) sb
    · exact absurd h (typeName_of_reserved a ra).2.2
    · exact .inl (by simpa using h)
    · exact .inr (.inr (.inl ⟨ra, h.symm⟩))
    · exact absurd (.inr h) sa
    · exact .inr (.inr (.inr ⟨rb, h⟩))
    · exact .inl h
  · rintro (rfl | ⟨sa, sb⟩ | ⟨ra, rfl⟩ | ⟨rb, rfl⟩)
    · rfl
    · rw [typeName_of_spelledType sa, typeName_of_spelledType sb]
    · obtain ⟨plain, marked, -⟩ := typeName_of_reserved a ra
      rw [plain, marked]
    · obtain ⟨plain, marked, -⟩ := typeName_of_reserved b rb
      rw [plain, marked]

/-! ## Words -/

/-- The words are pieces of the text. -/
def PiecesOf (cs : List Char) (ws : List (List Char)) : Prop :=
  ∀ w ∈ ws, w ≠ [] ∧ ∀ c ∈ w, c ∈ cs

theorem pieces_words (cs : List Char) : PiecesOf cs (words cs) := by
  have whole := wordsOf_words cs
  exact fun w hw => ⟨whole.nonempty w hw, fun c hc => (whole.mem hw hc).1⟩

/-! ## Values in capitals -/

theorem capitalised_cons (hc : isNameChar c = true) (hcs : ∀ d ∈ cs, isNameChar d = true) :
    capitalised (c :: cs) = c.toUpper :: cs.map Char.toLower := by
  rw [capitalised, upperChar_of_isNameChar hc, List.map_eq_flatMap]
  exact congrArg (c.toUpper :: ·)
    (List.flatMap_congr fun d hd => lowerChar_of_isNameChar (hcs d hd))

/-- Words are put together to capitals only if each of them is a letter. -/
theorem flatMap_capitalised_eq_iff {us : List Char} (hws : ∀ w ∈ ws, IsWord w)
    (capitals : ∀ u ∈ us, u.toLower ≠ u) :
    ws.flatMap capitalised = us ↔ ws.map (·.map Char.toUpper) = us.map fun u => [u] := by
  induction ws generalizing us with
  | nil => rw [List.flatMap_nil, List.map_nil, eq_comm, eq_comm (a := []), List.map_eq_nil_iff]
  | cons w ws ih =>
    obtain ⟨⟨nonempty, chars⟩, rest⟩ := List.forall_mem_cons.mp hws
    obtain ⟨c, cs, rfl⟩ := List.exists_cons_of_ne_nil nonempty
    obtain ⟨hc, hcs⟩ := List.forall_mem_cons.mp chars
    rw [List.flatMap_cons, capitalised_cons hc hcs]
    cases us with
    | nil => simp
    | cons u us =>
      cases cs with
      | nil => simp [ih rest (List.forall_mem_cons.mp capitals).2]
      | cons d ds =>
        -- The second letter of the word is a small one.
        have small : ∀ rest, c.toUpper :: d.toLower :: rest ≠ u :: us := by
          intro rest h
          refine capitals d.toLower ?_ (toLower_toLower (hcs d List.mem_cons_self))
          rw [← h]
          exact List.mem_cons_of_mem _ List.mem_cons_self
        constructor
        · exact fun h => absurd h (small _)
        · intro h
          simp at h

theorem guardName_eq_iff {us : List Char} (plain : '_' ∉ us) (kept : guardName us = us) :
    guardName cs = us ↔ cs = us := by
  refine ⟨fun h => ?_, fun h => h ▸ kept⟩
  rw [guardName] at h
  split at h
  · exact absurd (h ▸ List.mem_cons_self) plain
  · split at h
    · exact absurd (h ▸ List.mem_append_right cs List.mem_cons_self) plain
    · exact h

/-- A name without underscores is made only of itself or of the default. -/
theorem sanitize_eq_iff {us fallback : List Char} (hus : IsWord us) (plain : '_' ∉ us)
    (kept : guardName us = us) (other : fallback ≠ us) :
    sanitize cs fallback = us ↔ cs = us := by
  have foreign : replaceForeign cs = us ↔ cs = us := by
    refine ⟨fun h => ?_, fun h => by rw [h, replaceForeign_eq_self hus.2]⟩
    have names : ∀ c ∈ cs, isNameChar c = true := by
      intro c hc
      by_contra hforeign
      refine plain ?_
      rw [← h]
      exact List.mem_map.mpr ⟨c, hc, if_neg hforeign⟩
    rw [← h, replaceForeign_eq_self names]
  rw [sanitize, guardName_eq_iff plain kept, ← foreign]
  split
  · rename_i blank
    refine iff_of_false other fun h => ?_
    obtain ⟨u, hu⟩ := List.exists_mem_of_ne_nil us hus.1
    rw [h, List.all_eq_true] at blank
    rw [← of_decide_eq_true (blank u hu)] at plain
    exact plain hu
  · rfl

/-- The words of a value are the letters a, l and l. -/
def SpellsAll (value : String) : Prop :=
  (words value.toList).map (·.map Char.toUpper) = [['A'], ['L'], ['L']]

theorem variantName_eq_all_iff (hv : IsWord v.toList) : variantName v = "ALL" ↔ SpellsAll v := by
  have hwords : ∀ w ∈ words v.toList, IsWord w := fun w hw =>
    ⟨(pieces_words _ w hw).1, fun c hc => hv.2 c ((pieces_words _ w hw).2 c hc)⟩
  calc variantName v = "ALL"
      ↔ sanitize (pascalCase v.toList) "Value".toList = ['A', 'L', 'L'] := String.ofList_inj
    _ ↔ pascalCase v.toList = ['A', 'L', 'L'] :=
      sanitize_eq_iff ⟨List.cons_ne_nil _ _, by decide⟩ (by decide) (by decide) (by decide)
    _ ↔ SpellsAll v := flatMap_capitalised_eq_iff hwords (by decide)

end SchemaClient.Names
