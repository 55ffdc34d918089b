import SchemaClient.Proofs.Source.Directives
import SchemaClient.Proofs.Text.Erasing

/-!
# Shapes of noise

Block strings, directives and comments are described by what they look like and where they end. The
patterns that erase them find these and nothing else, so that one text is left without noise.
-/

namespace SchemaClient.Source

open Text

variable {cs left inner : List Char} {n : Nat}

/-- Three quotes up to the next three. -/
def BlockString : Shape := fun found _ =>
  ∃ inner, found = quotes ++ inner ++ quotes ∧ ¬ quotes <:+: inner ++ ['"', '"']

/-- `@name(...)`, up to the first parenthesis that closes. -/
def DirectiveWithArguments : Shape := fun found _ =>
  ∃ name inner, found = '@' :: (name ++ '(' :: (inner ++ [')'])) ∧ IsWord name ∧ ')' ∉ inner

/-- `@name`, to the end of the name. -/
def Directive : Shape := fun found rest =>
  ∃ name, found = '@' :: name ∧ IsWord name ∧ Stops isNameChar rest

/-- `#` to the end of the line. -/
def Comment : Shape := fun found rest =>
  ∃ line, found = '#' :: line ∧ '\n' ∉ line ∧ Stops (· ≠ '\n') rest

/-- The second text is left of the first one without block strings, directives and comments. -/
def Stripped (cs left : List Char) : Prop :=
  ∃ unquoted undirected unmarked, Without BlockString cs unquoted ∧
    Without DirectiveWithArguments unquoted undirected ∧
    Without Directive undirected unmarked ∧ Without Comment unmarked left

theorem quotesAhead_first (first : ¬ quotes <:+: inner ++ ['"', '"']) (rest : List Char) :
    quotesAhead (inner ++ (quotes ++ rest)) = some inner.length := by
  induction inner with
  | nil => rfl
  | cons c inner ih =>
    have later : ¬ quotes <:+: inner ++ ['"', '"'] := fun h => first (List.infix_cons h)
    have here : ¬ (after? quotes (c :: (inner ++ (quotes ++ rest)))).isSome = true := by
      rw [isSome_after?_iff]
      intro h
      have whole : c :: inner ++ ['"', '"'] <+: c :: (inner ++ (quotes ++ rest)) :=
        ⟨'"' :: rest, by simp [quotes]⟩
      exact first (List.prefix_of_prefix_length_le h whole (by simp [quotes])).isInfix
    rw [List.cons_append, quotesAhead_cons, if_neg here, ih later]
    rfl

theorem exists_of_quotesAhead (h : quotesAhead cs = some n) : ∃ inner rest,
    cs = inner ++ (quotes ++ rest) ∧ inner.length = n ∧ ¬ quotes <:+: inner ++ ['"', '"'] := by
  induction cs generalizing n with
  | nil => cases h
  | cons c cs ih =>
    rw [quotesAhead_cons] at h
    by_cases here : (after? quotes (c :: cs)).isSome = true
    · rw [if_pos here] at h
      obtain ⟨rest, hrest⟩ := isSome_after?_iff.mp here
      refine ⟨[], rest, hrest.symm, Option.some.inj h, fun inside => ?_⟩
      have := inside.length_le
      simp [quotes] at this
    · rw [if_neg here] at h
      obtain ⟨m, hm, rfl⟩ := Option.map_eq_some_iff.mp h
      obtain ⟨inner, rest, rfl, rfl, first⟩ := ih hm
      refine ⟨c :: inner, rest, rfl, rfl, fun inside => ?_⟩
      rcases List.infix_cons_iff.mp inside with ⟨t, ht⟩ | inside
      · refine here (isSome_after?_iff.mpr ⟨t ++ '"' :: rest, ?_⟩)
        rw [← List.append_assoc, ht]
        simp [quotes]
      · exact first inside

theorem finds_blockString : Finds blockString BlockString where
  nonempty := by
    rintro found rest ⟨inner, rfl, -⟩
    simp [quotes]
  eq_some_iff {cs n} := by
    rw [blockString_eq]
    constructor
    · intro h
      obtain ⟨behind, hbehind, h⟩ := Option.bind_eq_some_iff.mp h
      obtain ⟨m, hm, rfl⟩ := Option.map_eq_some_iff.mp h
      obtain ⟨inner, rest, rfl, rfl, first⟩ := exists_of_quotesAhead hm
      refine ⟨quotes ++ inner ++ quotes, rest, ?_, ?_, inner, rfl, first⟩
      · rw [after?_eq_some hbehind]
        simp
      · simp [quotes]
    · rintro ⟨found, rest, rfl, rfl, inner, rfl, first⟩
      have behind : after? quotes (quotes ++ inner ++ quotes ++ rest) =
          some (inner ++ (quotes ++ rest)) := by
        simpa using after?_append quotes (inner ++ (quotes ++ rest))
      rw [behind, Option.bind_some, quotesAhead_first first, Option.map_some]
      simp [quotes]

theorem exists_of_parenthesisAhead (h : parenthesisAhead cs = some n) : ∃ inner rest,
    cs = inner ++ ')' :: rest ∧ inner.length + 1 = n ∧ ')' ∉ inner := by
  induction cs generalizing n with
  | nil => cases h
  | cons c cs ih =>
    rw [parenthesisAhead_cons] at h
    by_cases hc : c = ')'
    · rw [if_pos hc] at h
      exact ⟨[], cs, by rw [hc]; rfl, Option.some.inj h, by simp⟩
    · rw [if_neg hc] at h
      obtain ⟨m, hm, rfl⟩ := Option.map_eq_some_iff.mp h
      obtain ⟨inner, rest, rfl, rfl, first⟩ := ih hm
      refine ⟨c :: inner, rest, rfl, rfl, ?_⟩
      simpa [Ne.symm hc] using first

theorem finds_directiveWithArguments : Finds directiveWithArguments DirectiveWithArguments where
  nonempty := by
    rintro found rest ⟨name, inner, rfl, -⟩
    simp
  eq_some_iff {cs n} := by
    constructor
    · intro h
      rw [directiveWithArguments_eq] at h
      obtain ⟨⟨k, behind⟩, hbehind, h⟩ := Option.bind_eq_some_iff.mp h
      obtain ⟨m, hm, rfl⟩ := Option.map_eq_some_iff.mp h
      simp only [argumentsAt?, Option.bind_eq_bind, Option.bind_eq_some_iff] at hbehind
      obtain ⟨⟨name, opened⟩, ⟨named, hnamed, hrun⟩, behind', hopened, heq⟩ := hbehind
      cases heq
      obtain ⟨inner, rest, rfl, rfl, first⟩ := exists_of_parenthesisAhead hm
      obtain ⟨hname, nonempty, all, -⟩ := run?_eq_some hrun
      refine ⟨'@' :: (name ++ '(' :: (inner ++ [')'])), rest, ?_, ?_,
        name, inner, rfl, ⟨nonempty, all⟩, first⟩
      · have hopen : opened = ['('] ++ (inner ++ ')' :: rest) := after?_eq_some hopened
        rw [after?_eq_some hnamed, hname, hopen]
        simp
      · simp
        omega
    · rintro ⟨found, rest, rfl, rfl, name, inner, rfl, hname, first⟩
      have found := Bare.directiveWithArguments_arguments hname first rest
      simpa using found

theorem finds_directive : Finds directive Directive where
  nonempty := by
    rintro found rest ⟨name, rfl, -⟩
    simp
  eq_some_iff {cs n} := by
    rw [directive_eq]
    constructor
    · intro h
      obtain ⟨⟨name, rest⟩, hnamed, rfl⟩ := Option.map_eq_some_iff.mp h
      obtain ⟨named, hmark, hrun⟩ := Option.bind_eq_some_iff.mp hnamed
      obtain ⟨rfl, nonempty, all, stops⟩ := run?_eq_some hrun
      have hcs : cs = ['@'] ++ (name ++ rest) := after?_eq_some hmark
      exact ⟨'@' :: name, rest, hcs, rfl, name, rfl, ⟨nonempty, all⟩, stops⟩
    · rintro ⟨found, rest, rfl, rfl, name, rfl, hname, stops⟩
      have hmark : after? ['@'] ('@' :: name ++ rest) = some (name ++ rest) :=
        after?_append ['@'] (name ++ rest)
      rw [hmark, Option.bind_some, run?_run hname.1 hname.2 stops]
      rfl

theorem finds_comment : Finds comment Comment where
  nonempty := by
    rintro found rest ⟨line, rfl, -⟩
    simp
  eq_some_iff {cs n} := by
    constructor
    · intro h
      unfold comment at h
      split at h
      · rename_i cs
        have noBreak : '\n' ∉ cs.takeWhile (· ≠ '\n') := by
          intro hmem
          simpa using List.all_eq_true.mp List.all_takeWhile _ hmem
        refine ⟨'#' :: cs.takeWhile (· ≠ '\n'), cs.dropWhile (· ≠ '\n'), ?_, Option.some.inj h,
          _, rfl, noBreak, stops_dropWhile _ cs⟩
        rw [List.cons_append, List.takeWhile_append_dropWhile]
      · cases h
    · rintro ⟨found, rest, rfl, rfl, line, rfl, noBreak, stops⟩
      have all : ∀ c ∈ line, decide (c ≠ '\n') = true := by
        intro c hc
        simpa using ne_of_mem_of_not_mem hc noBreak
      rw [List.cons_append, comment, takeWhile_run all stops]
      rfl

/-- One text is left, and it is the one without noise. -/
theorem stripped_iff : Stripped cs left ↔ withoutNoise cs = left := by
  simp only [Stripped, withoutNoise, finds_blockString.without_iff,
    finds_directiveWithArguments.without_iff, finds_directive.without_iff,
    finds_comment.without_iff]
  constructor
  · rintro ⟨_, _, _, rfl, rfl, rfl, rfl⟩
    rfl
  · intro h
    exact ⟨_, _, _, rfl, rfl, rfl, h⟩

end SchemaClient.Source
