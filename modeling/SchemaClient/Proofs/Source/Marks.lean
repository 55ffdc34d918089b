import Mathlib.Data.List.TakeWhile
import SchemaClient.Proofs.Text.Delimited
import SchemaClient.Source.Normal

/-!
# The marks around noise

A block string reaches from three quotes to the next three, and the arguments of a directive from
the parenthesis behind its name to the next one that closes. A directive without arguments ends with
its name.
-/

namespace SchemaClient.Source

open Text

variable {cs : List Char}

/-- The first place where a mark stands is looked for, and `k` characters of the mark are counted
with those in front of it. -/
structure Searches (mark : List Char → Bool) (k : Nat) (ahead : List Char → Option Nat) : Prop where
  nil : ahead [] = none
  cons : ∀ c cs, ahead (c :: cs) =
    if mark (c :: cs) = true then some k else (ahead cs).map (· + 1)

namespace Searches

variable {mark : List Char → Bool} {k m n : Nat} {ahead : List Char → Option Nat} {r t : List Char}

theorem le (h : Searches mark k ahead) (long : ∀ cs, mark cs = true → k + m ≤ cs.length)
    (found : ahead cs = some n) : n + m ≤ cs.length := by
  induction cs generalizing n with
  | nil =>
    rw [h.nil] at found
    cases found
  | cons c cs ih =>
    rw [h.cons] at found
    split at found
    · rename_i here
      rw [← Option.some.inj found]
      exact long _ here
    · obtain ⟨n, hn, rfl⟩ := Option.map_eq_some_iff.mp found
      have := ih hn
      rw [List.length_cons]
      omega

theorem kept (h : Searches mark k ahead) (seam : ∀ c cs, mark (c :: cs ++ r) = mark (c :: cs))
    (found : ahead t = some n) : ahead (t ++ r) = some n := by
  induction t generalizing n with
  | nil =>
    rw [h.nil] at found
    cases found
  | cons c t ih =>
    rw [h.cons] at found
    rw [List.cons_append, h.cons, ← List.cons_append, seam]
    split at found
    · rename_i here
      rw [if_pos here, found]
    · rename_i later
      obtain ⟨n, hn, rfl⟩ := Option.map_eq_some_iff.mp found
      rw [if_neg later, ih hn, Option.map_some]

theorem append (h : Searches mark k ahead) (seam : ∀ c cs, mark (c :: cs ++ r) = mark (c :: cs))
    (none : ahead t = none) : ahead (t ++ r) = (ahead r).map (t.length + ·) := by
  induction t with
  | nil => simp
  | cons c t ih =>
    rw [h.cons] at none
    split at none
    · cases none
    · rename_i later
      rw [Option.map_eq_none_iff] at none
      rw [List.cons_append, h.cons, ← List.cons_append, seam, if_neg later, ih none,
        Option.map_map]
      congr 1
      funext m
      simp only [Function.comp_def, List.length_cons]
      omega

end Searches

section Strings

variable {r : List Char}

def quotes : List Char := ['"', '"', '"']

theorem blockString_eq (cs : List Char) :
    blockString cs = (after? quotes cs).bind fun inner => (quotesAhead inner).map (· + 6) := by
  unfold blockString
  split
  · rfl
  · rename_i hne
    cases h : after? quotes cs with
    | none => rfl
    | some inner => exact absurd (after?_eq_some h) (hne inner)

theorem quotesAhead_cons (c : Char) (cs : List Char) : quotesAhead (c :: cs) =
    if (after? quotes (c :: cs)).isSome then some 0 else (quotesAhead cs).map (· + 1) := by
  rw [quotesAhead.eq_def]
  split
  · rename_i h
    cases h
  · rename_i heq
    rw [heq]
    rfl
  · rename_i hne heq
    obtain ⟨rfl, rfl⟩ := List.cons.inj heq
    split
    · rename_i h
      obtain ⟨inner, h⟩ := Option.isSome_iff_exists.mp h
      obtain ⟨hc, hcs⟩ := List.cons.inj (after?_eq_some h)
      exact absurd hcs (hne inner hc)
    · rfl

theorem quotesAhead_eq_none (h : '"' ∉ cs) : quotesAhead cs = none := by
  induction cs with
  | nil => rfl
  | cons c cs ih =>
    rw [List.mem_cons, not_or] at h
    have hquoted : after? quotes (c :: cs) = none := by
      rw [quotes, after?, if_neg h.1]
    rw [quotesAhead_cons, hquoted, ih h.2]
    rfl

theorem searches_quotesAhead : Searches (fun cs => (after? quotes cs).isSome) 0 quotesAhead :=
  ⟨rfl, quotesAhead_cons⟩

theorem quotes_seam (seam : Stops quotes.contains r) (c : Char) (cs : List Char) :
    (after? quotes (c :: cs ++ r)).isSome = (after? quotes (c :: cs)).isSome := by
  rw [after?_append_of_stops seam, Option.isSome_map]

/-- A block string stands between three quotes and the next three. -/
def strings : Delimited blockString where
  opening cs := (after? quotes cs).map fun inner => (3, inner)
  closes cs := (quotesAhead cs).map (· + 3)
  joins := quotes.contains
  pattern_eq cs := by
    rw [blockString_eq]
    cases after? quotes cs with
    | none => rfl
    | some inner =>
      simp only [Option.bind_some, Option.map_some, Option.map_map, Function.comp_def]
      congr 1
      funext n
      omega
  opening_length h := by
    obtain ⟨inner, hinner, heq⟩ := Option.map_eq_some_iff.mp h
    cases heq
    rw [after?_eq_some hinner, List.length_append]
    rfl
  opening_append seam := by
    rw [after?_append_of_stops seam, Option.map_map, Option.map_map]
    rfl
  closes_le h := by
    obtain ⟨n, hn, rfl⟩ := Option.map_eq_some_iff.mp h
    refine searches_quotesAhead.le (fun cs here => ?_) hn
    obtain ⟨inner, hinner⟩ := Option.isSome_iff_exists.mp here
    simp [after?_eq_some hinner, quotes]
  closes_kept h seam := by
    obtain ⟨n, hn, rfl⟩ := Option.map_eq_some_iff.mp h
    rw [searches_quotesAhead.kept (quotes_seam seam) hn, Option.map_some]
  closes_append h seam := by
    rw [searches_quotesAhead.append (quotes_seam seam) (Option.map_eq_none_iff.mp h),
      Option.map_map, Option.map_map]
    rfl

end Strings

section Arguments

variable {r t inner : List Char}

/-- The length of a text up to its first closing parenthesis. -/
def parenthesisAhead (cs : List Char) : Option Nat :=
  if ')' ∈ cs then some ((cs.takeWhile (· ≠ ')')).length + 1) else none

/-- The length of `@name(` at the head of a text, and the text behind it. -/
def argumentsAt? (cs : List Char) : Option (Nat × List Char) := do
  let (name, rest) ← (after? ['@'] cs).bind (run? isNameChar)
  let inner ← after? ['('] rest
  pure (name.length + 2, inner)

theorem parenthesised?_eq (cs : List Char) : parenthesised? cs =
    (after? ['('] cs).bind fun inner =>
      if ')' ∈ inner then some (inner.takeWhile (· ≠ ')'), (inner.dropWhile (· ≠ ')')).tail)
      else none := by
  have closes : ∀ inner : List Char, inner.dropWhile (· ≠ ')') = [] ↔ ')' ∉ inner := by
    intro inner
    rw [List.dropWhile_eq_nil_iff]
    constructor
    · intro h hmem
      simpa using h ')' hmem
    · intro h c hc
      simpa using ne_of_mem_of_not_mem hc h
  unfold parenthesised?
  split
  · rename_i inner
    rw [show after? ['('] ('(' :: inner) = some inner from rfl, Option.bind_some]
    split
    · rename_i hnil
      rw [if_neg ((closes inner).mp hnil)]
    · rename_i d rest hcons
      have hmem : ')' ∈ inner := by
        apply Decidable.byContradiction
        intro hmem
        rw [(closes inner).mpr hmem] at hcons
        cases hcons
      rw [if_pos hmem, hcons, List.tail_cons]
  · rename_i hne
    cases h : after? ['('] cs with
    | none => rfl
    | some inner => exact absurd (after?_eq_some h) (hne inner)

theorem directiveWithArguments_eq (cs : List Char) : directiveWithArguments cs =
    (argumentsAt? cs).bind fun (k, inner) => (parenthesisAhead inner).map (k + ·) := by
  unfold directiveWithArguments argumentsAt?
  split
  · rename_i cs
    rw [show after? ['@'] ('@' :: cs) = some cs from rfl, Option.bind_some]
    cases run? isNameChar cs with
    | none => rfl
    | some found =>
      obtain ⟨name, rest⟩ := found
      simp only [Option.bind_eq_bind, Option.bind_some, parenthesised?_eq]
      cases after? ['('] rest with
      | none => rfl
      | some inner =>
        simp only [Option.bind_some, Option.pure_def, parenthesisAhead]
        split
        · exact congrArg some (by simp only; omega)
        · rfl
  · rename_i hne
    cases h : after? ['@'] cs with
    | none => rfl
    | some rest => exact absurd (after?_eq_some h) (hne rest)

theorem directive_eq (cs : List Char) : directive cs =
    ((after? ['@'] cs).bind (run? isNameChar)).map fun (name, _) => name.length + 1 := by
  unfold directive
  split
  · rfl
  · rename_i hne
    cases h : after? ['@'] cs with
    | none => rfl
    | some rest => exact absurd (after?_eq_some h) (hne rest)

/-- A character that may belong to a directive begun in front of it. -/
def joinsDirective (c : Char) : Bool :=
  isNameChar c || c = '('

theorem named?_append (seam : Stops isNameChar r) (c : Char) (cs : List Char) :
    (after? ['@'] (c :: cs ++ r)).bind (run? isNameChar) =
      ((after? ['@'] (c :: cs)).bind (run? isNameChar)).map fun (name, rest) =>
        (name, rest ++ r) := by
  by_cases hc : '@' = c
  · subst hc
    exact run?_append_of_stops seam cs
  · simp [after?, hc]

theorem argumentsAt?_append (seam : Stops joinsDirective r) (c : Char) (cs : List Char) :
    argumentsAt? (c :: cs ++ r) =
      (argumentsAt? (c :: cs)).map fun (k, inner) => (k, inner ++ r) := by
  have hname : Stops isNameChar r := seam.mono fun d hd => by simp [joinsDirective, hd]
  have hopen : Stops ['('].contains r := seam.mono fun d hd => by
    rw [joinsDirective, List.mem_singleton.mp (List.contains_iff_mem.mp hd)]
    rfl
  unfold argumentsAt?
  rw [named?_append hname]
  cases (after? ['@'] (c :: cs)).bind (run? isNameChar) with
  | none => rfl
  | some found =>
    obtain ⟨name, rest⟩ := found
    simp only [Option.map_some, Option.bind_eq_bind, Option.bind_some,
      after?_append_of_stops hopen]
    cases after? ['('] rest with
    | none => rfl
    | some inner => rfl

theorem argumentsAt?_length {k : Nat} (h : argumentsAt? cs = some (k, inner)) :
    cs.length = k + inner.length := by
  simp only [argumentsAt?, Option.bind_eq_bind, Option.bind_eq_some_iff] at h
  obtain ⟨⟨name, rest⟩, ⟨named, hnamed, hrun⟩, inner, hinner, heq⟩ := h
  cases heq
  have hrest : rest = ['('] ++ inner := after?_eq_some hinner
  rw [after?_eq_some hnamed, (run?_eq_some hrun).1, hrest]
  simp only [List.length_append, List.length_cons, List.length_nil]
  omega

theorem parenthesisAhead_cons (c : Char) (cs : List Char) : parenthesisAhead (c :: cs) =
    if c = ')' then some 1 else (parenthesisAhead cs).map (· + 1) := by
  unfold parenthesisAhead
  by_cases hc : c = ')'
  · simp [hc]
  · by_cases hmem : ')' ∈ cs
    · simp [hc, hmem]
    · simp [hc, hmem, Ne.symm hc]

theorem searches_parenthesisAhead :
    Searches (fun cs => cs.head? = some ')') 1 parenthesisAhead :=
  ⟨rfl, fun c cs => by simp [parenthesisAhead_cons]⟩

theorem parenthesisAhead_eq_none : parenthesisAhead cs = none ↔ ')' ∉ cs := by
  unfold parenthesisAhead
  split
  · rename_i h
    simp [h]
  · rename_i h
    simp [h]

theorem parenthesisAhead_append (h : ')' ∉ t) (r : List Char) :
    parenthesisAhead (t ++ r) = (parenthesisAhead r).map (t.length + ·) :=
  searches_parenthesisAhead.append (fun _ _ => rfl) (parenthesisAhead_eq_none.mpr h)

/-- The arguments of a directive stand between a name with a parenthesis and the next one that
closes. -/
def arguments : Delimited directiveWithArguments where
  opening := argumentsAt?
  closes := parenthesisAhead
  joins := joinsDirective
  pattern_eq := directiveWithArguments_eq
  opening_length := argumentsAt?_length
  opening_append seam := argumentsAt?_append seam _ _
  closes_le := by
    refine fun h => searches_parenthesisAhead.le (m := 0) (fun cs here => ?_) h
    cases cs with
    | nil => cases here
    | cons c cs => simp
  closes_kept h _ := searches_parenthesisAhead.kept (fun _ _ => rfl) h
  closes_append h _ := parenthesisAhead_append (parenthesisAhead_eq_none.mp h) _

/-- A directive without arguments needs no mark behind its name. -/
def names : Delimited directive where
  opening cs := ((after? ['@'] cs).bind (run? isNameChar)).map fun (name, rest) =>
    (name.length + 1, rest)
  closes _ := some 0
  joins := isNameChar
  pattern_eq cs := by
    rw [directive_eq]
    cases (after? ['@'] cs).bind (run? isNameChar) with
    | none => rfl
    | some found => rfl
  opening_length h := by
    simp only [Option.map_eq_some_iff, Option.bind_eq_some_iff] at h
    obtain ⟨⟨name, rest⟩, ⟨named, hnamed, hrun⟩, heq⟩ := h
    cases heq
    rw [after?_eq_some hnamed, (run?_eq_some hrun).1]
    simp only [List.length_append, List.length_cons, List.length_nil]
    omega
  opening_append seam := by
    rw [named?_append seam, Option.map_map, Option.map_map]
    rfl
  closes_le h := by
    cases h
    exact Nat.zero_le _
  closes_kept h _ := h
  closes_append h _ := by cases h

end Arguments

end SchemaClient.Source
