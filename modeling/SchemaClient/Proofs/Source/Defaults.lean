import SchemaClient.Proofs.Source.Constants

/-!
# Default values of arguments

The constant behind an equals sign is not read, but the scan for arguments runs through it. What it
finds there is taken for further arguments, and a closing parenthesis in a string ends the list.
So the default values of root fields are ignored exactly if they are inert and hold no closing
parenthesis.
-/

namespace SchemaClient.Source

open Text

/-! ## Scans over a seam -/

/-- A scan of two texts finds what it finds in each of them, if no match reaches over the seam. -/
theorem collect_append {α : Type} {p : Pattern α} {u r : List Char}
    (inside : ∀ t x n, p t = some (x, n) → n ≤ t.length)
    (apart : ∀ t, t ≠ [] → t <:+ u → p (t ++ r) = p t) :
    collect p (u ++ r) = collect p u ++ collect p r := by
  suffices ∀ passed ≤ u.length,
      collectFrom p passed (u ++ r) = collectFrom p passed u ++ collect p r from
    this 0 (Nat.zero_le _)
  induction u with
  | nil =>
    intro passed hpassed
    obtain rfl : passed = 0 := by simpa using hpassed
    rfl
  | cons c u ih =>
    have later := ih fun t nonempty ht => apart t nonempty (ht.trans (List.suffix_cons c u))
    intro passed hpassed
    rw [List.length_cons] at hpassed
    match passed with
    | passed + 1 => exact later passed (by omega)
    | 0 =>
      have same := apart (c :: u) (by simp) (List.suffix_refl _)
      rw [List.cons_append] at same ⊢
      rw [collectFrom, collectFrom, same]
      cases found : p (c :: u) with
      | none => exact later 0 (Nat.zero_le _)
      | some match? =>
        obtain ⟨x, n⟩ := match?
        have fits := inside _ _ _ found
        rw [List.length_cons] at fits
        exact congrArg (x :: ·) (later (n - 1) (by omega))

/-- No field reaches from the first text into the second. -/
structure Seam (u r : List Char) : Prop where
  solid : ∀ c ∈ u.getLast?, isBlank c = false ∧ c ≠ ':'
  apart : Apart u r
  next : typeAfterColon? r = none

section Seams

variable {a t u r : List Char}

theorem Seam.of_append (h : Seam (a ++ t) r) : Seam t r := by
  have last : ∀ c ∈ t.getLast?, c ∈ (a ++ t).getLast? := by
    intro c hc
    rw [List.getLast?_append, hc]
    rfl
  exact ⟨fun c hc => h.solid c (last c hc), fun c hc => h.apart c (last c hc), h.next⟩

theorem Seam.run? {p : Char → Bool} (h : Seam t r) (nonempty : t ≠ [])
    (hp : ∀ c, p c = true → isTypeChar c = true) :
    run? p (t ++ r) = (run? p t).map fun (w, s) => (w, s ++ r) := by
  by_cases last : p (t.getLast nonempty) = true
  · have stops : Stops p r :=
      (h.apart _ (List.getLast?_eq_some_getLast nonempty) (hp _ last)).mono hp
    exact run?_append_of_stops stops t
  · -- The run ends in front of the last character, so it is the same with any text behind this.
    have stops : ∀ cs, Stops p (t.getLast nonempty :: cs) :=
      fun _ => Stops.cons (by simpa using last)
    have parted : ∀ cs, Text.run? p (t ++ cs) =
        (Text.run? p t.dropLast).map fun (w, s) => (w, s ++ t.getLast nonempty :: cs) := by
      intro cs
      rw [← run?_append_of_stops (stops cs), ← List.singleton_append, ← List.append_assoc,
        List.dropLast_concat_getLast]
    have whole := parted []
    rw [List.append_nil] at whole
    rw [parted r, whole, Option.map_map]
    simp [Function.comp_def]

/-- Behind a text whose last character is no blank, nothing is skipped. -/
theorem skipBlanks_append (last : ∀ c ∈ t.getLast?, isBlank c = false) (nonempty : t ≠ [])
    (r : List Char) : skipBlanks (t ++ r) = skipBlanks t ++ r ∧ skipBlanks t ≠ [] := by
  induction t with
  | nil => exact absurd rfl nonempty
  | cons c t ih =>
    by_cases blank : isBlank c = true
    · have more : t ≠ [] := by
        rintro rfl
        have solid := last c rfl
        rw [blank] at solid
        cases solid
      have skipped : ∀ cs, skipBlanks (c :: cs) = skipBlanks cs :=
        fun _ => List.dropWhile_cons_of_pos blank
      rw [List.cons_append, skipped, skipped]
      refine ih (fun d hd => last d ?_) more
      rw [List.getLast?_cons_of_ne_nil more]
      exact hd
    · have kept : ∀ cs, skipBlanks (c :: cs) = c :: cs :=
        fun _ => List.dropWhile_cons_of_neg blank
      rw [List.cons_append, kept, kept]
      exact ⟨rfl, by simp⟩

/-- Where a text ends with neither a blank nor a colon, its colon does not depend on what follows:
there is none in front, or the type behind it starts in the text. -/
theorem typeAfterColon?_cases (last : ∀ c ∈ t.getLast?, isBlank c = false ∧ c ≠ ':')
    (nonempty : t ≠ []) : (∀ r, typeAfterColon? (t ++ r) = none) ∨
      ∃ u, u ≠ [] ∧ u <:+ t ∧ ∀ r, typeAfterColon? (t ++ r) = run? isTypeChar (u ++ r) := by
  induction t with
  | nil => exact absurd rfl nonempty
  | cons c t ih =>
    have later : t ≠ [] → ∀ d ∈ t.getLast?, isBlank d = false ∧ d ≠ ':' := by
      intro more d hd
      apply last d
      rw [List.getLast?_cons_of_ne_nil more]
      exact hd
    by_cases blank : isBlank c = true
    · have more : t ≠ [] := by
        rintro rfl
        have solid := (last c rfl).1
        rw [blank] at solid
        cases solid
      have passed : ∀ r, typeAfterColon? (c :: t ++ r) = typeAfterColon? (t ++ r) :=
        fun r => typeAfterColon?_blank blank (t ++ r)
      rcases ih (later more) more with nothing | ⟨u, hu, suffix, same⟩
      · exact .inl fun r => (passed r).trans (nothing r)
      · exact .inr ⟨u, hu, suffix.trans (List.suffix_cons c t), fun r => (passed r).trans (same r)⟩
    · by_cases colon : c = ':'
      · subst colon
        have more : t ≠ [] := by
          rintro rfl
          exact (last ':' rfl).2 rfl
        have skipped := skipBlanks_append (fun d hd => (later more d hd).1) more
        refine .inr ⟨skipBlanks t, (skipped []).2, ?_, ?_⟩
        · exact (List.dropWhile_suffix isBlank).trans (List.suffix_cons ':' t)
        · intro r
          rw [← (skipped r).1]
          exact typeAfterColon?_colon (t ++ r)
      · have solid : isBlank c = false := by simpa using blank
        exact .inl fun r => typeAfterColon?_cons solid colon (t ++ r)

theorem Seam.typeAfterColon? (h : Seam t r) :
    typeAfterColon? (t ++ r) = (typeAfterColon? t).map fun (w, s) => (w, s ++ r) := by
  by_cases empty : t = []
  · subst empty
    exact h.next
  · rcases typeAfterColon?_cases h.solid empty with nothing | ⟨u, nonempty, ⟨a, rfl⟩, same⟩
    · have alone := nothing []
      rw [List.append_nil] at alone
      rw [nothing, alone]
      rfl
    · have alone := same []
      rw [List.append_nil, List.append_nil] at alone
      rw [same, alone]
      exact h.of_append.run? nonempty fun _ hc => hc

theorem Seam.fieldPattern (h : Seam t r) (nonempty : t ≠ []) :
    fieldPattern (t ++ r) = fieldPattern t := by
  rw [Source.fieldPattern, Source.fieldPattern,
    h.run? nonempty fun _ => isTypeChar_of_isNameChar]
  cases name : Text.run? isNameChar t with
  | none => rfl
  | some found =>
    obtain ⟨w, s⟩ := found
    obtain ⟨rfl, -, -, -⟩ := run?_eq_some name
    have type := (Seam.of_append h).typeAfterColon?
    cases htype : Source.typeAfterColon? s with
    | none => simp [htype, type]
    | some found =>
      obtain ⟨v, q⟩ := found
      have length : ((w ++ s) ++ r).length - (q ++ r).length = (w ++ s).length - q.length := by
        simp only [List.length_append]
        omega
      simp only [Option.map_some, Option.bind_eq_bind, Option.bind_some, type, htype, length]

theorem fieldsIn_seam (h : Seam u r) : fieldsIn (u ++ r) = fieldsIn u ++ fieldsIn r := by
  refine collect_append ?_ ?_
  · intro t x n ht
    rw [fieldPattern] at ht
    simp only [Option.bind_eq_bind, Option.bind_eq_some_iff] at ht
    obtain ⟨_, -, _, -, hn⟩ := ht
    obtain ⟨-, rfl⟩ := Prod.mk.inj (Option.some.inj hn)
    exact Nat.sub_le _ _
  · rintro t nonempty ⟨front, rfl⟩
    exact h.of_append.fieldPattern nonempty

end Seams

/-! ## Root fields with default values -/

/-- An argument, perhaps with a default value, and perhaps with a comma behind it. -/
structure Argument where
  line : FieldLine
  default : Option Constant
  comma : Bool

namespace Argument

def defaultWords (a : Argument) : List (List Char) :=
  match a.default with
  | none => []
  | some v => [['='], v.letters]

def commaWords (a : Argument) : List (List Char) :=
  if a.comma then [[',']] else []

def words (a : Argument) : List (List Char) :=
  a.line.words ++ (a.defaultWords ++ a.commaWords)

def bare (a : Argument) : Argument :=
  { a with default := none }

/-- What a scan for fields finds in the default value. -/
def strays (a : Argument) : List Field :=
  match a.default with
  | none => []
  | some v => fieldsIn v.letters

end Argument

/-- `name(arguments): Type`, without parentheses where there are no arguments. -/
structure RootField where
  name : SchemaName
  args : List Argument
  type : TypeForm

namespace RootField

def words (f : RootField) : List (List Char) :=
  match f.args with
  | [] => [f.name.letters, [':'], f.type.letters]
  | args => f.name.letters :: ['('] :: (args.flatMap (·.words) ++ [[')'], [':'], f.type.letters])

/-- The same root field without default values. -/
def bare (f : RootField) : RootField :=
  { f with args := f.args.map (·.bare) }

/-- The root field with the arguments that it declares. -/
def declared (f : RootField) : OperationField :=
  ⟨f.name.text, f.args.map (·.line.field), .parse f.type.text⟩

/-- The root field with what is found in default values among its arguments. -/
def found (f : RootField) : OperationField :=
  ⟨f.name.text, f.args.flatMap fun a => a.line.field :: a.strays, .parse f.type.text⟩

def defaults (f : RootField) : List Constant :=
  f.args.filterMap (·.default)

end RootField

section Arguments

variable {cs : List Char} {ws : List (List Char)} {args : List Argument}

theorem typeAfterColon?_spaced (h : Spaced ws cs)
    (head : ∀ w ∈ ws.head?, ∃ c w', w = c :: w' ∧ isBlank c = false ∧ c ≠ ':') :
    typeAfterColon? cs = none := by
  cases h with
  | @gap g hg =>
    have skipped := typeAfterColon?_gap hg []
    rw [List.append_nil] at skipped
    exact skipped
  | @word g w _ _ hg _ _ =>
    obtain ⟨c, w', rfl, blank, colon⟩ := head w rfl
    rw [List.append_assoc, typeAfterColon?_gap hg]
    exact typeAfterColon?_cons blank colon _

/-- Behind a default value stand a comma, a name or the end of the list. -/
theorem head_behind_default (a : Argument) (args : List Argument) :
    ∀ w ∈ (a.commaWords ++ args.flatMap (·.words)).head?,
      ∃ c w', w = c :: w' ∧ isBlank c = false ∧ c ≠ ':' := by
  intro w hw
  cases comma : a.comma with
  | true =>
    simp only [Argument.commaWords, comma, if_true, List.singleton_append, List.head?_cons,
      Option.mem_some_iff] at hw
    exact ⟨',', [], hw.symm, by decide, by decide⟩
  | false =>
    cases args with
    | nil => simp [Argument.commaWords, comma] at hw
    | cons b args =>
      simp only [Argument.commaWords, comma, Bool.false_eq_true, if_false, List.nil_append,
        List.flatMap_cons, Argument.words, FieldLine.words, List.cons_append, List.head?_cons,
        Option.mem_some_iff] at hw
      obtain ⟨c, w', hname, hc⟩ := b.line.name.exists_head
      exact ⟨c, w', hw ▸ hname, isBlank_of_isNameChar hc,
        ne_colon_of_isTypeChar (isTypeChar_of_isNameChar hc)⟩

theorem fieldsIn_comma {a : Argument} (h : Spaced (a.commaWords ++ ws) cs) :
    ∃ rest, Spaced ws rest ∧ fieldsIn cs = fieldsIn rest := by
  cases comma : a.comma with
  | false => exact ⟨cs, by simpa [Argument.commaWords, comma] using h, rfl⟩
  | true =>
    have list : Spaced ([','] :: ws) cs := by simpa [Argument.commaWords, comma] using h
    cases list with
    | @word g _ _ rest hg _ hrest =>
      exact ⟨rest, hrest, fieldsIn_pass (hg.not_isNameChar_concat (by decide)) rest⟩

theorem fieldsIn_default {a : Argument}
    (head : ∀ w ∈ ws.head?, ∃ c w', w = c :: w' ∧ isBlank c = false ∧ c ≠ ':')
    (h : Spaced (a.defaultWords ++ ws) cs) :
    ∃ rest, Spaced ws rest ∧ fieldsIn cs = a.strays ++ fieldsIn rest := by
  cases default : a.default with
  | none =>
    refine ⟨cs, by simpa [Argument.defaultWords, default] using h, ?_⟩
    simp [Argument.strays, default]
  | some v =>
    have list : Spaced (['='] :: v.letters :: ws) cs := by
      simpa [Argument.defaultWords, default] using h
    cases list with
    | @word g _ _ _ hg _ hvalue =>
      cases hvalue with
      | @word g' _ _ rest hg' apart hrest =>
        refine ⟨rest, hrest, ?_⟩
        have seam : Seam v.letters rest := by
          refine ⟨?_, apart, typeAfterColon?_spaced hrest head⟩
          obtain ⟨front, last, hv, tight⟩ := v.exists_last
          intro c hc
          rw [hv, List.getLast?_concat] at hc
          rw [← Option.some.inj hc]
          exact ⟨tight.1, tight.2.1⟩
        have sign := hg.not_isNameChar_concat (show isNameChar '=' = false by decide)
        rw [fieldsIn_pass sign, List.append_assoc, fieldsIn_pass hg'.not_isNameChar,
          fieldsIn_seam seam, Argument.strays, default]

/-- Every argument is found, and behind it what its default value holds. -/
theorem fieldsIn_defaults (h : Spaced (args.flatMap (·.words)) cs) :
    fieldsIn cs = args.flatMap fun a => a.line.field :: a.strays := by
  induction args generalizing cs with
  | nil =>
    cases h with
    | gap hg => exact fieldsIn_gap hg
  | cons a args ih =>
    rw [List.flatMap_cons, Argument.words, List.append_assoc, List.append_assoc] at h
    obtain ⟨behindLine, hline, line⟩ := fieldsIn_field h
    obtain ⟨behindDefault, hdefault, default⟩ := fieldsIn_default (head_behind_default a args) hline
    obtain ⟨rest, hrest, comma⟩ := fieldsIn_comma hdefault
    rw [line, default, comma, ih hrest, List.flatMap_cons, List.cons_append]

end Arguments

section Lists

variable {c : Char} {cs inner w : List Char} {ws : List (List Char)} {args : List Argument}

/-- A word of an argument list is a default value or has no parenthesis in it. -/
theorem word_cases (h : w ∈ args.flatMap (·.words)) :
    (∃ v ∈ args.filterMap (·.default), w = v.letters) ∨ ∀ c ∈ w, isParenthesis c = false := by
  obtain ⟨a, ha, hw⟩ := List.mem_flatMap.mp h
  rw [Argument.words, List.mem_append, List.mem_append] at hw
  rcases hw with hw | hw | hw
  · exact .inr (a.line.isParenthesis_of_mem hw)
  · cases default : a.default with
    | none => simp [Argument.defaultWords, default] at hw
    | some v =>
      simp only [Argument.defaultWords, default, List.mem_cons, List.not_mem_nil, or_false] at hw
      rcases hw with rfl | rfl
      · exact .inr (by decide)
      · exact .inl ⟨v, List.mem_filterMap.mpr ⟨a, ha, default⟩, rfl⟩
  · cases comma : a.comma with
    | false => simp [Argument.commaWords, comma] at hw
    | true =>
      simp only [Argument.commaWords, comma, if_true, List.mem_singleton] at hw
      subst hw
      exact .inr (by decide)

theorem isParenthesis_last (h : Spaced ws cs)
    (words : ∀ w ∈ ws, ∀ c ∈ w.getLast?, isParenthesis c = false) :
    ∀ c ∈ cs.getLast?, isParenthesis c = false := by
  induction h with
  | gap hg => exact fun c hc => isParenthesis_of_isBlank (hg c (List.mem_of_getLast? hc))
  | @word g w ws cs hg _ _ ih =>
    intro c hc
    rw [List.getLast?_append, List.getLast?_append, Option.mem_def, Option.or_eq_some_iff,
      Option.or_eq_some_iff] at hc
    rcases hc with hc | ⟨-, hc | ⟨-, hc⟩⟩
    · exact ih (fun w hw => words w (List.mem_cons_of_mem _ hw)) c hc
    · exact words w List.mem_cons_self c hc
    · exact isParenthesis_of_isBlank (hg c (List.mem_of_getLast? hc))

/-- Only parentheses around the list are trimmed, none inside a string at its end. -/
theorem trimBy_arguments (nonempty : args ≠ []) (h : Spaced (args.flatMap (·.words)) inner) :
    trimBy isParenthesis inner = inner := by
  apply trimBy_of_ends
  · obtain ⟨a, args, rfl⟩ := List.exists_cons_of_ne_nil nonempty
    rw [List.flatMap_cons, Argument.words, List.append_assoc] at h
    obtain ⟨g, g₁, g₂, rest, rfl, hg, -⟩ := spaced_field h
    obtain ⟨d, w, hname, hd⟩ := a.line.name.exists_head
    intro c hc
    cases g with
    | nil =>
      simp only [hname, List.nil_append, List.cons_append, List.head?_cons,
        Option.mem_some_iff] at hc
      subst hc
      exact isParenthesis_of_isTypeChar (isTypeChar_of_isNameChar hd)
    | cons e g =>
      obtain rfl : e = c := by simpa using hc
      exact isParenthesis_of_isBlank hg.head
  · refine isParenthesis_last h ?_
    intro w hw c hc
    rcases word_cases hw with ⟨v, -, rfl⟩ | plain
    · obtain ⟨front, last, hv, tight⟩ := v.exists_last
      rw [hv, List.getLast?_concat] at hc
      rw [← Option.some.inj hc]
      exact tight.2.2
    · exact plain c (List.mem_of_getLast? hc)

theorem notMem_arguments (open? : ∀ v ∈ args.filterMap (·.default), ')' ∉ v.letters)
    (h : Spaced (args.flatMap (·.words)) inner) : ')' ∉ inner := by
  intro hmem
  refine h.chars (P := (· ≠ ')')) (fun c hc => ne_of_apply hc (by decide)) ?_ _ hmem rfl
  rintro w hw c hc rfl
  rcases word_cases hw with ⟨v, hv, rfl⟩ | plain
  · exact open? v hv hc
  · cases plain _ hc

end Lists

section RootFields

variable {f : RootField} {cs : List Char} {ws : List (List Char)}

/-- A root field is found, with what its default values hold. -/
theorem operationsIn_rootField (h : Spaced (f.words ++ ws) cs)
    (open? : ∀ v ∈ f.defaults, ')' ∉ v.letters) :
    ∃ rest, Spaced ws rest ∧ operationsIn cs = f.found :: operationsIn rest := by
  obtain ⟨name, args, type⟩ := f
  cases args with
  | nil => exact operationsIn_operation (o := ⟨name, [], type⟩) h
  | cons a args =>
    replace h : Spaced (name.letters :: ['('] :: ((a :: args).flatMap (·.words) ++
        [')'] :: [':'] :: type.letters :: ws)) cs := by
      simpa [RootField.words] using h
    obtain ⟨inner, rest, hinner, hrest, found⟩ :=
      operationsIn_list h fun inner hinner => notMem_arguments open? hinner
    refine ⟨rest, hrest, ?_⟩
    rw [found, argumentsIn, trimBy_arguments (by simp) hinner, fieldsIn_defaults hinner]
    rfl

end RootFields

/-! ## Parentheses in strings -/

/-- Behind an opening parenthesis, the text closes the list and goes on with a colon and a type. -/
def Resumes (cs : List Char) : Prop :=
  ((parenthesised? ('(' :: cs)).bind fun list => typeAfterColon? list.2).isSome = true

instance (cs : List Char) : Decidable (Resumes cs) :=
  inferInstanceAs (Decidable (_ = true))

/-- The first closing parenthesis is not followed by a colon and a type, whatever the text goes on
with. -/
def Cuts (cs : List Char) : Prop :=
  ∃ u v, cs = u ++ ')' :: v ∧ ')' ∉ u ∧ ∀ r, typeAfterColon? (v ++ r) = none

section Cuts

variable {cs t w : List Char} {ws : List (List Char)}

theorem typeAfterColon?_append (last : ∀ c ∈ t.getLast?, isBlank c = false ∧ c ≠ ':')
    (nonempty : t ≠ []) (h : typeAfterColon? t = none) (r : List Char) :
    typeAfterColon? (t ++ r) = none := by
  rcases typeAfterColon?_cases last nonempty with nothing | ⟨u, hu, -, same⟩
  · exact nothing r
  · obtain ⟨c, u, rfl⟩ := List.exists_cons_of_ne_nil hu
    have alone := same []
    rw [List.append_nil, List.append_nil, h] at alone
    have stops : Stops isTypeChar (c :: u) := run?_eq_none.mp alone.symm
    rw [same, List.cons_append, run?_eq_none]
    exact Stops.cons stops.head

theorem cuts_of_mem (v : Constant) (h : ')' ∈ v.letters) (ends : ¬ Resumes v.letters) :
    Cuts v.letters := by
  obtain ⟨u, t, hv, first⟩ := List.eq_append_cons_of_mem h
  obtain ⟨front, c, hlast, tight⟩ := v.exists_last
  have stopped : typeAfterColon? t = none := by
    rw [hv, Resumes, parenthesised?_parentheses first] at ends
    simpa using ends
  have last : (')' :: t).getLast? = some c := by
    have whole : v.letters.getLast? = some c := by rw [hlast, List.getLast?_concat]
    rw [hv, List.getLast?_append, List.getLast?_cons, Option.some_or] at whole
    rw [List.getLast?_cons]
    exact whole
  have nonempty : t ≠ [] := by
    rintro rfl
    cases last
    exact absurd tight.2.2 (by decide)
  rw [List.getLast?_cons_of_ne_nil nonempty] at last
  refine ⟨u, t, hv, first, typeAfterColon?_append ?_ nonempty stopped⟩
  intro d hd
  rw [last] at hd
  cases hd
  exact ⟨tight.1, tight.2.1⟩

/-- The first word with a closing parenthesis decides what follows that of the text. -/
theorem Spaced.cuts (h : Spaced ws cs) (words : ∀ w ∈ ws, ')' ∈ w → Cuts w)
    (some : ∃ w ∈ ws, ')' ∈ w) : Cuts cs := by
  induction h with
  | gap _ =>
    obtain ⟨w, hw, -⟩ := some
    cases hw
  | @word g w ws cs hg _ _ ih =>
    have noGap : ')' ∉ g := fun hc => by cases hg ')' hc
    by_cases hw : ')' ∈ w
    · obtain ⟨u, v, rfl, first, cut⟩ := words w List.mem_cons_self hw
      refine ⟨g ++ u, v ++ cs, by simp, by simp [noGap, first], ?_⟩
      intro r
      rw [List.append_assoc]
      exact cut _
    · have later : ∃ w ∈ ws, ')' ∈ w := by
        obtain ⟨w', hmem, hw'⟩ := some
        rcases List.mem_cons.mp hmem with rfl | hmem
        · exact absurd hw' hw
        · exact ⟨w', hmem, hw'⟩
      obtain ⟨u, v, rfl, first, cut⟩ := ih (fun w hw => words w (List.mem_cons_of_mem _ hw)) later
      exact ⟨g ++ w ++ u, v, by simp, by simp [noGap, hw, first], cut⟩

end Cuts

section CutFields

variable {f : RootField} {cs behind r u v w : List Char} {ws : List (List Char)}

theorem collect_pass_suffixes {α : Type} {p : Pattern α}
    (h : ∀ t, t ≠ [] → t <:+ w → p (t ++ r) = none) : collect p (w ++ r) = collect p r := by
  induction w with
  | nil => rfl
  | cons c w ih =>
    have here := h (c :: w) (by simp) (List.suffix_refl _)
    rw [List.cons_append] at here
    rw [List.cons_append, collect, collectFrom, here]
    exact ih fun t nonempty ht => h t nonempty (ht.trans (List.suffix_cons c w))

theorem operationPattern_cut (nonempty : w ≠ []) (name : ∀ c ∈ w, isNameChar c = true)
    (stops : Stops isNameChar behind) (list : parenthesised? (skipBlanks behind) = some (u, v))
    (cut : typeAfterColon? v = none) : operationPattern (w ++ behind) = none := by
  rw [operationPattern, run?_run nonempty name stops]
  simp [list, cut]

theorem cuts_arguments {args : List Argument} {inner : List Char}
    (h : Spaced (args.flatMap (·.words)) inner)
    (cut : ∃ v ∈ args.filterMap (·.default), ')' ∈ v.letters)
    (ends : ∀ v ∈ args.filterMap (·.default), ¬ Resumes v.letters) : Cuts inner := by
  refine h.cuts ?_ ?_
  · intro w hw hmem
    rcases word_cases hw with ⟨v, hv, rfl⟩ | plain
    · exact cuts_of_mem v hmem (ends v hv)
    · cases plain _ hmem
  · obtain ⟨v, hv, hmem⟩ := cut
    obtain ⟨a, ha, default⟩ := List.mem_filterMap.mp hv
    refine ⟨v.letters, List.mem_flatMap.mpr ⟨a, ha, ?_⟩, hmem⟩
    simp [Argument.words, Argument.defaultWords, default]

/-- A root field is lost at a closing parenthesis in one of its default values. Its first argument
is found in its place. -/
theorem operationsIn_cut (h : Spaced (f.words ++ ws) cs) (cut : ∃ v ∈ f.defaults, ')' ∈ v.letters)
    (ends : ∀ v ∈ f.defaults, ¬ Resumes v.letters) :
    ∃ first more, operationsIn cs = first :: more ∧ first ≠ f.declared := by
  obtain ⟨name, args, type⟩ := f
  cases args with
  | nil =>
    obtain ⟨v, hv, -⟩ := cut
    cases hv
  | cons a args =>
    replace h : Spaced (name.letters :: ['('] :: ((a :: args).flatMap (·.words) ++
        [')'] :: [':'] :: type.letters :: ws)) cs := by
      simpa [RootField.words] using h
    cases h with
    | @word g _ _ _ hg _ h =>
      cases h with
      | @word g₁ _ _ tail hg₁ _ h =>
        obtain ⟨inner, behind, htail, hinner, -, -⟩ := h.split
        obtain ⟨u, v, rfl, first, stopped⟩ := cuts_arguments hinner cut ends
        have shape : g ++ name.letters ++ (g₁ ++ ['('] ++ tail) =
            g ++ (name.letters ++ (g₁ ++ '(' :: tail)) := by
          simp
        have list : parenthesised? (skipBlanks (g₁ ++ '(' :: tail)) =
            some (u, v ++ ([')'] ++ behind)) := by
          rw [skipBlanks_gap hg₁ (Stops.cons (by decide)), htail]
          simp only [List.append_assoc, List.cons_append]
          exact parenthesised?_parentheses first _
        have stops : Stops isNameChar (g₁ ++ '(' :: tail) :=
          hg₁.stops (fun _ => isNameChar_of_isBlank) (Stops.cons (by decide))
        have lost : operationsIn (name.letters ++ (g₁ ++ '(' :: tail)) =
            operationsIn (g₁ ++ '(' :: tail) := by
          refine collect_pass_suffixes fun t nonempty ht => ?_
          exact operationPattern_cut nonempty (fun c hc => name.isWord.2 c (ht.mem hc)) stops list
            (stopped _)
        have opened : operationsIn (g₁ ++ '(' :: tail) = operationsIn tail := by
          have mark := hg₁.not_isNameChar_concat (show isNameChar '(' = false by decide)
          have passed := operationsIn_pass mark tail
          rwa [List.append_assoc] at passed
        have argument : Spaced (a.line.words ++ (a.defaultWords ++ (a.commaWords ++
            (args.flatMap (·.words) ++ [')'] :: [':'] :: type.letters :: ws)))) tail := by
          simpa [Argument.words] using h
        obtain ⟨rest, -, found⟩ :=
          operationsIn_operation (o := ⟨a.line.name, [], a.line.type⟩) argument
        have whole := operationsIn_pass hg.not_isNameChar (name.letters ++ (g₁ ++ '(' :: tail))
        rw [← shape] at whole
        refine ⟨_, _, ((whole.trans lost).trans opened).trans found, ?_⟩
        intro same
        have args := congrArg OperationField.args same
        cases args

end CutFields

/-! ## Bodies of root types -/

section Bodies

variable {cs : List Char} {fields : List RootField}

theorem strays_eq_nil (a : Argument) : a.strays = [] ↔ ∀ v ∈ a.default, v.Inert := by
  cases default : a.default with
  | none => simp [Argument.strays, default]
  | some v => simp [Argument.strays, default, fieldsIn_letters]

theorem length_le_flatMap_strays (args : List Argument) :
    args.length ≤ (args.flatMap fun a => a.line.field :: a.strays).length := by
  induction args with
  | nil => exact Nat.le_refl 0
  | cons a args ih =>
    rw [List.flatMap_cons, List.length_append, List.length_cons, List.length_cons]
    omega

theorem flatMap_strays_eq (args : List Argument) :
    (args.flatMap fun a => a.line.field :: a.strays) = args.map (·.line.field) ↔
      ∀ a ∈ args, a.strays = [] := by
  induction args with
  | nil => simp
  | cons a args ih =>
    rw [List.flatMap_cons, List.map_cons, List.cons_append, List.cons_inj_right,
      List.forall_mem_cons, ← ih]
    constructor
    · intro same
      have lengths := congrArg List.length same
      have least := length_le_flatMap_strays args
      rw [List.length_append, List.length_map] at lengths
      have none : a.strays = [] := List.eq_nil_of_length_eq_zero (by omega)
      rw [none, List.nil_append] at same
      exact ⟨none, same⟩
    · rintro ⟨none, same⟩
      rw [none, List.nil_append, same]

/-- Nothing is found beside the declared arguments exactly if all default values are inert. -/
theorem found_eq_declared (f : RootField) : f.found = f.declared ↔ ∀ v ∈ f.defaults, v.Inert := by
  have lists : f.found = f.declared ↔ ∀ a ∈ f.args, a.strays = [] := by
    rw [RootField.found, RootField.declared, ← flatMap_strays_eq]
    simp
  rw [lists]
  constructor
  · intro strays v hv
    obtain ⟨a, ha, default⟩ := List.mem_filterMap.mp hv
    exact (strays_eq_nil a).mp (strays a ha) v default
  · intro inert a ha
    exact (strays_eq_nil a).mpr fun v hv => inert v (List.mem_filterMap.mpr ⟨a, ha, hv⟩)

theorem defaults_bare (f : RootField) : f.bare.defaults = [] := by
  simp [RootField.defaults, RootField.bare, Argument.bare]

theorem found_bare (f : RootField) : f.bare.found = f.declared := by
  have declared : f.bare.declared = f.declared := by
    simp [RootField.declared, RootField.bare, Argument.bare]
  rw [← declared, found_eq_declared, defaults_bare]
  simp

theorem operationsIn_rootFields (h : Spaced (fields.flatMap (·.words)) cs)
    (open? : ∀ f ∈ fields, ∀ v ∈ f.defaults, ')' ∉ v.letters) :
    operationsIn cs = fields.map (·.found) := by
  induction fields generalizing cs with
  | nil => exact operationsIn_gap h
  | cons f fields ih =>
    obtain ⟨here, later⟩ := List.forall_mem_cons.mp open?
    rw [List.flatMap_cons] at h
    obtain ⟨rest, hrest, found⟩ := operationsIn_rootField h here
    rw [found, ih hrest later, List.map_cons]

/-- Without a parenthesis that could close another list, the declared fields are found exactly if
all default values are inert and hold no closing parenthesis. -/
theorem operationsIn_eq_declared (h : Spaced (fields.flatMap (·.words)) cs)
    (ends : ∀ f ∈ fields, ∀ v ∈ f.defaults, ¬ Resumes v.letters) :
    operationsIn cs = fields.map (·.declared) ↔
      ∀ f ∈ fields, ∀ v ∈ f.defaults, v.Inert ∧ ')' ∉ v.letters := by
  induction fields generalizing cs with
  | nil => exact iff_of_true (operationsIn_gap h) (by simp)
  | cons f fields ih =>
    obtain ⟨here, later⟩ := List.forall_mem_cons.mp ends
    rw [List.flatMap_cons] at h
    rw [List.map_cons, List.forall_mem_cons]
    by_cases cut : ∃ v ∈ f.defaults, ')' ∈ v.letters
    · obtain ⟨first, more, found, other⟩ := operationsIn_cut h cut here
      refine iff_of_false ?_ ?_
      · rw [found]
        exact fun same => other (List.cons.inj same).1
      · obtain ⟨v, hv, hmem⟩ := cut
        exact fun all => (all.1 v hv).2 hmem
    · have open? : ∀ v ∈ f.defaults, ')' ∉ v.letters := fun v hv hmem => cut ⟨v, hv, hmem⟩
      obtain ⟨rest, hrest, found⟩ := operationsIn_rootField h open?
      rw [found, List.cons.injEq, ih hrest later, found_eq_declared]
      exact and_congr_left fun _ => ⟨fun inert v hv => ⟨inert v hv, open? v hv⟩,
        fun all v hv => (all v hv).1⟩

end Bodies

/-- The root fields of a body are found as they are declared where there are no default values.
With default values that hold no closing parenthesis, each argument is followed by what looks like
fields in its value. Default values are ignored exactly if all are inert and hold no closing
parenthesis, those aside behind whose first closing parenthesis stand a colon and a type. -/
theorem operationsIn_defaults {fields : List RootField} {cs bare : List Char}
    (h : Spaced (fields.flatMap (·.words)) cs)
    (hbare : Spaced (fields.flatMap (·.bare.words)) bare) :
    operationsIn bare = fields.map (·.declared) ∧
      ((∀ f ∈ fields, ∀ v ∈ f.defaults, ')' ∉ v.letters) →
        operationsIn cs = fields.map (·.found)) ∧
      ((∀ f ∈ fields, ∀ v ∈ f.defaults, ¬ Resumes v.letters) →
        (operationsIn cs = operationsIn bare ↔
          ∀ f ∈ fields, ∀ v ∈ f.defaults, v.Inert ∧ ')' ∉ v.letters)) := by
  have declared : operationsIn bare = fields.map (·.declared) := by
    rw [← List.flatMap_map] at hbare
    rw [operationsIn_rootFields hbare, List.map_map]
    · exact List.map_congr_left fun f _ => found_bare f
    · intro f hf
      obtain ⟨f, -, rfl⟩ := List.mem_map.mp hf
      rw [defaults_bare]
      simp
  refine ⟨declared, operationsIn_rootFields h, ?_⟩
  intro ends
  rw [declared]
  exact operationsIn_eq_declared h ends

/-- Words around a colon in a string and a member of an object are found as arguments, and a
parenthesis in a string loses its root field. -/
theorem operationsIn_defaults_stray :
    operationsIn
        " f ( a : A = \"b: B\" , c : [C!] = [-1.5, \x7bd : null\x7d] ) : [F!]! me : User".toList =
      [⟨"f", [.of "a" "A", .of "b" "B", .of "c" "[C!]", .of "d" "null"], .parse "[F!]!"⟩,
        ⟨"me", [], .parse "User"⟩] ∧
    operationsIn " f ( a : A , c : [C!] ) : [F!]! me : User".toList =
      [⟨"f", [.of "a" "A", .of "c" "[C!]"], .parse "[F!]!"⟩, ⟨"me", [], .parse "User"⟩] ∧
    operationsIn " me ( mood : String = \":)\" ) : User".toList ≠
      operationsIn " me ( mood : String ) : User".toList := by
  let a : Argument :=
    ⟨⟨⟨['a'], by decide⟩, .named ⟨['A'], by decide⟩ false⟩, some (.string "b: B".toList), true⟩
  let null : Members :=
    .member ⟨[], by decide⟩ ⟨['d'], by decide⟩ ⟨[' '], by decide⟩ ⟨[' '], by decide⟩
      (.word ⟨"null".toList, by decide⟩) (.close ⟨[], by decide⟩)
  let items : Items :=
    .item ⟨[], by decide⟩ (.number ⟨true, '1', ['.', '5'], by decide, by decide⟩)
      (.item ⟨[',', ' '], by decide⟩ (.object null) (.close ⟨[], by decide⟩))
  let c : Argument :=
    ⟨⟨⟨['c'], by decide⟩, .list ⟨['C'], by decide⟩ true false⟩, some (.list items), false⟩
  let mood : Argument :=
    ⟨⟨⟨"mood".toList, by decide⟩, .named ⟨"String".toList, by decide⟩ false⟩,
      some (.string ":)".toList), false⟩
  let two : List RootField :=
    [⟨⟨['f'], by decide⟩, [a, c], .list ⟨['F'], by decide⟩ true true⟩,
      ⟨⟨"me".toList, by decide⟩, [], .named ⟨"User".toList, by decide⟩ false⟩]
  let me : List RootField :=
    [⟨⟨"me".toList, by decide⟩, [mood], .named ⟨"User".toList, by decide⟩ false⟩]
  have spaced : ∀ words : List (List Char), Spaced words (words.flatMap ([' '] ++ ·)) :=
    Spaced.flatMap (by decide) (by simp)
  have found := operationsIn_defaults (spaced (two.flatMap (·.words))) (spaced _)
  have lost := operationsIn_defaults (spaced (me.flatMap (·.words))) (spaced _)
  refine ⟨found.2.1 (by decide), found.1, ?_⟩
  intro same
  have open? := (lost.2.2 (by decide)).mp same _ List.mem_cons_self _ List.mem_cons_self
  exact absurd open?.2 (by decide)

end SchemaClient.Source
