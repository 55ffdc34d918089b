import SchemaClient.Proofs.Source.Grammar

/-!
# Type expressions of any depth

A type expression is a name or a list of a type expression, each with or without a bang. A type
reference tells of it whether the outermost type admits null and whether it is a list. The base is
the innermost name unless a list inside the list is required: the bang of such a list ends the
trimming of brackets, and all that stands in front of it stays in the base.
-/

namespace SchemaClient

open Text Source

/-- A run of word characters. -/
structure TypeName where
  letters : List Char
  nonempty : letters ≠ []
  isWord : ∀ c ∈ letters, isWordChar c = true

/-- `N`, `N!`, `[T]` and `[T]!`, nested to any depth. -/
inductive TypeExpr
  | named (name : TypeName) (required : Bool)
  | list (element : TypeExpr) (required : Bool)

namespace TypeExpr

def letters : TypeExpr → List Char
  | named n required => n.letters ++ bang required
  | list e required => '[' :: (e.letters ++ ']' :: bang required)

def text (e : TypeExpr) : String :=
  String.ofList e.letters

def required : TypeExpr → Bool
  | named _ required | list _ required => required

def isList : TypeExpr → Bool
  | named .. => false
  | list .. => true

def innermost : TypeExpr → TypeName
  | named n _ => n
  | list e _ => e.innermost

/-- Whether every list inside the outermost one admits null. -/
def innerListsNullable : TypeExpr → Bool
  | named .. => true
  | list e _ => !(e.isList && e.required) && e.innerListsNullable

/-- What an expression leaves of itself between the brackets of a list, once brackets and a last
bang are trimmed away. -/
def remainder : TypeExpr → List Char
  | named n _ => n.letters
  | list e false => e.remainder
  | list e true => e.letters.dropWhile TypeRef.isBracket ++ [']']

/-- The base name that a reference finds. -/
def base : TypeExpr → List Char
  | named n _ => n.letters
  | list e _ => e.remainder

end TypeExpr

section Trimming

variable {p : Char → Bool} {cs : List Char} {c : Char}

theorem trimEndBy_concat_of_pos (h : p c = true) (cs : List Char) :
    trimEndBy p (cs ++ [c]) = trimEndBy p cs := by
  rw [trimEndBy, List.reverse_append, List.reverse_singleton, List.singleton_append,
    List.dropWhile_cons_of_pos h]
  rfl

theorem trimEndBy_concat_of_neg (h : p c = false) (cs : List Char) :
    trimEndBy p (cs ++ [c]) = cs ++ [c] := by
  rw [trimEndBy, List.reverse_append, List.reverse_singleton, List.singleton_append,
    (Stops.cons h).dropWhile, List.reverse_cons, List.reverse_reverse]

/-- Nothing is trimmed from a text of characters that stay. -/
theorem trimEndBy_of_none (h : ∀ c ∈ cs, p c = false) : trimEndBy p cs = cs := by
  rcases List.eq_nil_or_concat cs with rfl | ⟨ds, c, rfl⟩
  · rfl
  · rw [List.concat_eq_append] at h ⊢
    apply trimEndBy_concat_of_neg
    apply h
    simp

end Trimming

namespace TypeName

variable {c : Char} (n : TypeName)

theorem not_isBang (hc : c ∈ n.letters) : TypeRef.isBang c = false := by
  have hword := n.isWord c hc
  have hne : c ≠ '!' := ne_of_apply hword (by decide)
  simp [TypeRef.isBang, hne]

theorem not_isBracket (hc : c ∈ n.letters) : TypeRef.isBracket c = false := by
  have hword := n.isWord c hc
  have opening : c ≠ '[' := ne_of_apply hword (by decide)
  have closing : c ≠ ']' := ne_of_apply hword (by decide)
  simp [TypeRef.isBracket, opening, closing]

theorem stops_bracket (cs : List Char) : Stops TypeRef.isBracket (n.letters ++ cs) := by
  obtain ⟨c, w, hw⟩ := List.exists_cons_of_ne_nil n.nonempty
  rw [hw]
  exact Stops.cons (n.not_isBracket (by rw [hw]; exact List.mem_cons_self))

end TypeName

namespace TypeExpr

/-- The expression without the bang of its outermost type. -/
def outer : TypeExpr → List Char
  | named n _ => n.letters
  | list e _ => '[' :: (e.letters ++ [']'])

theorem letters_eq (e : TypeExpr) : e.letters = e.outer ++ bang e.required := by
  cases e with
  | named n required => rfl
  | list e required => simp [letters, outer, TypeExpr.required]

theorem trimEnd_outer (e : TypeExpr) : trimEndBy TypeRef.isBang e.outer = e.outer := by
  cases e with
  | named n required => exact trimEndBy_of_none fun c hc => n.not_isBang hc
  | list e required => exact trimEndBy_concat_of_neg (by decide) ('[' :: e.letters)

/-- The last bang is the only one at the end. -/
theorem trimEnd_letters (e : TypeExpr) : trimEndBy TypeRef.isBang e.letters = e.outer := by
  rw [letters_eq]
  cases e.required with
  | false => rw [bang, if_neg (by simp), List.append_nil, trimEnd_outer]
  | true => rw [bang, if_pos rfl, trimEndBy_concat_of_pos rfl, trimEnd_outer]

theorem getLast?_outer (e : TypeExpr) : e.outer.getLast? ≠ some '!' := by
  intro last
  cases e with
  | named n required =>
    have hnot := n.not_isBang (List.mem_of_getLast? last)
    cases hnot
  | list e required =>
    have closing : (list e required).outer.getLast? = some ']' :=
      List.getLast?_concat (l := '[' :: e.letters)
    rw [closing] at last
    cases last

theorem getLast?_letters (e : TypeExpr) :
    e.letters.getLast? = some '!' ↔ e.required = true := by
  rw [letters_eq]
  cases e.required with
  | false =>
    rw [bang, if_neg (by simp), List.append_nil]
    simpa using e.getLast?_outer
  | true => simp [bang]

theorem exists_not_isBracket (e : TypeExpr) : ∃ c ∈ e.letters, TypeRef.isBracket c = false := by
  induction e with
  | named n required =>
    obtain ⟨c, w, hw⟩ := List.exists_cons_of_ne_nil n.nonempty
    have hc : c ∈ n.letters := by rw [hw]; exact List.mem_cons_self
    exact ⟨c, List.mem_append_left _ hc, n.not_isBracket hc⟩
  | list e required ih =>
    obtain ⟨c, hc, hnot⟩ := ih
    exact ⟨c, by simp [letters, hc], hnot⟩

/-- Brackets at the start are dropped from the expression alone, whatever follows it. -/
theorem dropWhile_letters_append (e : TypeExpr) (cs : List Char) :
    (e.letters ++ cs).dropWhile TypeRef.isBracket =
      e.letters.dropWhile TypeRef.isBracket ++ cs := by
  obtain ⟨c, hc, hnot⟩ := e.exists_not_isBracket
  rw [List.dropWhile_append, if_neg]
  intro hempty
  have hmem : c ∈ e.letters.takeWhile TypeRef.isBracket := by
    have whole := List.takeWhile_append_dropWhile (p := TypeRef.isBracket) (l := e.letters)
    rw [List.isEmpty_iff.mp hempty, List.append_nil] at whole
    rwa [whole]
  have hbracket := List.all_eq_true.mp List.all_takeWhile c hmem
  rw [hnot] at hbracket
  cases hbracket

/-- What trimming leaves of an expression between brackets. -/
theorem trim_letters (e : TypeExpr) :
    trimEndBy TypeRef.isBang
      (trimEndBy TypeRef.isBracket (e.letters.dropWhile TypeRef.isBracket)) = e.remainder := by
  induction e with
  | named n required =>
    have mark : ∀ c ∈ n.letters ++ bang required, TypeRef.isBracket c = false := by
      intro c hc
      rcases List.mem_append.mp hc with hc | hc
      · exact n.not_isBracket hc
      · rw [mem_bang hc]
        decide
    have trimmed := (named n required).trimEnd_letters
    rw [letters] at trimmed ⊢
    rw [(n.stops_bracket _).dropWhile, trimEndBy_of_none mark, trimmed]
    rfl
  | list e required ih =>
    have start : (list e required).letters.dropWhile TypeRef.isBracket =
        e.letters.dropWhile TypeRef.isBracket ++ ']' :: bang required := by
      rw [letters, List.dropWhile_cons_of_pos rfl, dropWhile_letters_append]
    rw [start]
    cases required with
    | false =>
      rw [bang, if_neg (by simp), trimEndBy_concat_of_pos rfl]
      exact ih
    | true =>
      have shape : e.letters.dropWhile TypeRef.isBracket ++ ']' :: bang true =
          (e.letters.dropWhile TypeRef.isBracket ++ [']']) ++ ['!'] := by
        simp [bang]
      -- The bang of an inner list is no bracket, so the brackets in front of it stay.
      rw [shape, trimEndBy_concat_of_neg (by decide), trimEndBy_concat_of_pos rfl,
        trimEndBy_concat_of_neg (by decide)]
      rfl

theorem elementBase_letters (e : TypeExpr) :
    TypeRef.elementBase ('[' :: (e.letters ++ [']'])) = e.remainder := by
  have start : ('[' :: (e.letters ++ [']'])).dropWhile TypeRef.isBracket =
      e.letters.dropWhile TypeRef.isBracket ++ [']'] := by
    rw [List.dropWhile_cons_of_pos rfl, dropWhile_letters_append]
  rw [TypeRef.elementBase, trimBy_eq, start, trimEndBy_concat_of_pos rfl]
  exact e.trim_letters

/-- A base with a bracket is no name. -/
theorem remainder_eq_innermost_iff (e : TypeExpr) :
    e.remainder = e.innermost.letters ↔
      !(e.isList && e.required) && e.innerListsNullable := by
  induction e with
  | named n required => simp [remainder, innermost, isList, innerListsNullable]
  | list e required ih =>
    cases required with
    | false => simpa [remainder, innermost, isList, innerListsNullable, TypeExpr.required] using ih
    | true =>
      constructor
      · intro h
        have closing : ']' ∈ e.innermost.letters := by
          have h : e.letters.dropWhile TypeRef.isBracket ++ [']'] = e.innermost.letters := h
          rw [← h]
          simp
        have hnot := e.innermost.not_isBracket closing
        cases hnot
      · intro h
        simp [isList, TypeExpr.required] at h

theorem base_eq_innermost_iff (e : TypeExpr) :
    e.base = e.innermost.letters ↔ e.innerListsNullable := by
  cases e with
  | named n required => simp [base, innermost, innerListsNullable]
  | list e required => exact e.remainder_eq_innermost_iff

theorem head?_outer (e : TypeExpr) : e.outer.head? = some '[' ↔ e.isList = true := by
  cases e with
  | named n required =>
    have head : n.letters.head? ≠ some '[' := by
      intro h
      have hnot := n.not_isBracket (List.mem_of_mem_head? h)
      cases hnot
    simpa [outer, isList] using head
  | list e required => simp [outer, isList]

theorem base_eq (e : TypeExpr) :
    (if e.isList then TypeRef.elementBase e.outer else e.outer) = e.base := by
  cases e with
  | named n required => rfl
  | list e required => exact e.elementBase_letters

/-- A reference to a type expression: the outermost type is told exactly, and the base is the
innermost name exactly if no list inside the list is required. -/
theorem parse_text (e : TypeExpr) :
    (TypeRef.parse e.text).nullable = !e.required ∧
      (TypeRef.parse e.text).isList = e.isList ∧
      (TypeRef.parse e.text).base = String.ofList e.base ∧
      ((TypeRef.parse e.text).base = String.ofList e.innermost.letters ↔
        e.innerListsNullable) := by
  have nullable : (TypeRef.parse e.text).nullable = !e.required := by
    simp only [TypeRef.parse, text, String.toList_ofList, ne_eq, e.getLast?_letters]
    cases e.required <;> rfl
  have isList : (TypeRef.parse e.text).isList = e.isList := by
    simp only [TypeRef.parse, text, String.toList_ofList, trimEnd_letters, head?_outer,
      Bool.decide_eq_true]
  have base : (TypeRef.parse e.text).base = String.ofList e.base := by
    rw [← e.base_eq, ← isList]
    simp only [TypeRef.parse, text, String.toList_ofList, trimEnd_letters, decide_eq_true_eq]
  refine ⟨nullable, isList, base, ?_⟩
  rw [base, String.ofList_inj, base_eq_innermost_iff]

example : (TypeRef.parse "[[Int]!]").base = "Int]" := by decide

end TypeExpr

end SchemaClient
