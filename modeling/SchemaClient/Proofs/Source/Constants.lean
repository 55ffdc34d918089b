import SchemaClient.Proofs.Source.EntryScan

/-!
# Constants in a text

Constants stand behind the equals sign of a default value. No reader knows them: a scan for fields
runs through their letters. It finds nothing in a constant exactly if the constant is inert, that
is, if no string in it holds a field and no member of an object has a value that looks like a type.
-/

namespace SchemaClient.Source

open Text

/-- Blanks and commas, between the parts of a constant. -/
structure Filler where
  letters : List Char
  fills : ∀ c ∈ letters, isBlank c = true ∨ c = ','

/-- The blanks on one side of a colon. -/
structure Blanks where
  letters : List Char
  gap : Gap letters

/-- An integer or a float: a sign, a digit, and whatever numbers are made of behind it. -/
structure Numeral where
  negative : Bool
  first : Char
  behind : List Char
  isDigit : first.isDigit = true
  behind_fits : ∀ c ∈ behind, c.isDigit = true ∨ c ∈ ['.', 'e', 'E', '+', '-']

def Numeral.letters (n : Numeral) : List Char :=
  (if n.negative then ['-'] else []) ++ n.first :: n.behind

mutual

/-- A constant as it is written. A word is `true`, `false`, `null` or the value of an enum. Between
the quotes of a string may stand anything, so strings with escapes and block strings are among
them. -/
inductive Constant
  | number (n : Numeral)
  | word (n : SchemaName)
  | string (content : List Char)
  | list (items : Items)
  | object (members : Members)

/-- The items of a list, up to its bracket. -/
inductive Items
  | close (filler : Filler)
  | item (filler : Filler) (value : Constant) (more : Items)

/-- The members of an object, up to its brace. -/
inductive Members
  | close (filler : Filler)
  | member (filler : Filler) (name : SchemaName) (before behind : Blanks) (value : Constant)
      (more : Members)

end

mutual

def Constant.letters : Constant → List Char
  | .number n => n.letters
  | .word n => n.letters
  | .string content => '"' :: (content ++ ['"'])
  | .list items => '[' :: (items.letters ++ [']'])
  | .object members => '\x7b' :: (members.letters ++ ['\x7d'])

def Items.letters : Items → List Char
  | .close filler => filler.letters
  | .item filler value more => filler.letters ++ (value.letters ++ more.letters)

def Members.letters : Members → List Char
  | .close filler => filler.letters
  | .member filler name before behind value more =>
    filler.letters ++ (name.letters ++ (before.letters ++ ':' :: (behind.letters ++
      (value.letters ++ more.letters))))

end

/-- Behind a name and a colon, the constant is read as a type. -/
def Constant.opensType : Constant → Bool
  | .number n => !n.negative
  | .word _ | .list _ => true
  | .string _ | .object _ => false

mutual

/-- The constant has nothing in it that a scan for fields takes for one. -/
def Constant.Inert : Constant → Prop
  | .number _ | .word _ => True
  | .string content => fieldsIn content = []
  | .list items => items.Inert
  | .object members => members.Inert

def Items.Inert : Items → Prop
  | .close _ => True
  | .item _ value more => value.Inert ∧ more.Inert

def Members.Inert : Members → Prop
  | .close _ => True
  | .member _ _ _ _ value more => value.opensType = false ∧ value.Inert ∧ more.Inert

end

/-! ## Scans for fields, one character at a time -/

section Scan

variable {c : Char} {cs g r w : List Char}

theorem typeAfterColon?_cons (blank : isBlank c = false) (colon : c ≠ ':') (cs : List Char) :
    typeAfterColon? (c :: cs) = none := by
  have head : skipBlanks (c :: cs) = c :: cs := (Stops.cons blank).dropWhile
  rw [typeAfterColon?, head]
  split
  · rename_i heq
    exact absurd (List.cons.inj heq).1 colon
  · rfl

theorem typeAfterColon?_blank (blank : isBlank c = true) (cs : List Char) :
    typeAfterColon? (c :: cs) = typeAfterColon? cs := by
  have skipped : skipBlanks (c :: cs) = skipBlanks cs := List.dropWhile_cons_of_pos blank
  rw [typeAfterColon?, typeAfterColon?, skipped]

theorem typeAfterColon?_gap (hg : Gap g) (cs : List Char) :
    typeAfterColon? (g ++ cs) = typeAfterColon? cs := by
  have skipped : skipBlanks (g ++ cs) = skipBlanks cs := List.dropWhile_append_of_pos hg
  rw [typeAfterColon?, typeAfterColon?, skipped]

theorem typeAfterColon?_colon (cs : List Char) :
    typeAfterColon? (':' :: cs) = run? isTypeChar (skipBlanks cs) := by
  have head : skipBlanks (':' :: cs) = ':' :: cs := (Stops.cons (by decide)).dropWhile
  rw [typeAfterColon?, head]
  rfl

theorem ne_colon_of_isTypeChar (h : isTypeChar c = true) : c ≠ ':' :=
  ne_of_apply h (by decide)

theorem typeAfterColon?_typeChar (h : isTypeChar c = true) (cs : List Char) :
    typeAfterColon? (c :: cs) = none :=
  typeAfterColon?_cons (isBlank_of_isTypeChar h) (ne_colon_of_isTypeChar h) cs

theorem fieldPattern_eq_none (h : isNameChar c = true) :
    fieldPattern (c :: cs) = none ↔ typeAfterColon? (cs.dropWhile isNameChar) = none := by
  have run : run? isNameChar (c :: cs) =
      some (c :: cs.takeWhile isNameChar, cs.dropWhile isNameChar) := by
    rw [run?, List.takeWhile_cons_of_pos h, List.dropWhile_cons_of_pos h]
  rw [fieldPattern, run]
  cases type : typeAfterColon? (cs.dropWhile isNameChar) with
  | none => simp [type]
  | some found => simp [type]

theorem fieldsIn_cons_eq_nil :
    fieldsIn (c :: cs) = [] ↔ fieldPattern (c :: cs) = none ∧ fieldsIn cs = [] := by
  rw [fieldsIn, collect, collectFrom]
  split
  · rename_i h
    simp only [h, true_and]
    rfl
  · rename_i h
    simp [h]

/-- A field is found where a character of a name is followed by a colon and a type. -/
theorem fieldsIn_cons (c : Char) (cs : List Char) : fieldsIn (c :: cs) = [] ↔
    (isNameChar c = true → typeAfterColon? cs = none) ∧ fieldsIn cs = [] := by
  rw [fieldsIn_cons_eq_nil, and_congr_left_iff]
  intro nothing
  by_cases hc : isNameChar c = true
  · simp only [hc, true_imp_iff]
    rw [fieldPattern_eq_none hc]
    cases cs with
    | nil => rfl
    | cons d cs =>
      by_cases hd : isNameChar d = true
      · rw [fieldsIn_cons_eq_nil, fieldPattern_eq_none hd] at nothing
        rw [List.dropWhile_cons_of_pos hd,
          typeAfterColon?_typeChar (isTypeChar_of_isNameChar hd)]
        simp only [nothing.1]
      · rw [List.dropWhile_cons_of_neg hd]
  · have hfalse : isNameChar c = false := by simpa using hc
    simp [hfalse, fieldPattern_cons hfalse]

/-- Behind a word without colons and blanks, the scan goes on as if the text began there. -/
theorem fieldsIn_solid (blank : ∀ c ∈ w, isBlank c = false) (colon : ∀ c ∈ w, c ≠ ':')
    (hr : typeAfterColon? r = none) : fieldsIn (w ++ r) = [] ↔ fieldsIn r = [] := by
  induction w with
  | nil => rfl
  | cons c w ih =>
    have next : typeAfterColon? (w ++ r) = none := by
      cases w with
      | nil => exact hr
      | cons d w => exact typeAfterColon?_cons (blank d (by simp)) (colon d (by simp)) _
    rw [List.cons_append, fieldsIn_cons, ih (fun c hc => blank c (List.mem_cons_of_mem _ hc))
      fun c hc => colon c (List.mem_cons_of_mem _ hc)]
    simp [next]

theorem fieldsIn_name (n : SchemaName) (r : List Char) :
    fieldsIn (n.letters ++ r) = [] ↔ typeAfterColon? r = none ∧ fieldsIn r = [] := by
  have word : ∀ w : List Char, w ≠ [] → (∀ c ∈ w, isNameChar c = true) →
      (fieldsIn (w ++ r) = [] ↔ typeAfterColon? r = none ∧ fieldsIn r = []) := by
    intro w nonempty all
    induction w with
    | nil => exact absurd rfl nonempty
    | cons c w ih =>
      have hc := all c List.mem_cons_self
      rw [List.cons_append, fieldsIn_cons]
      cases w with
      | nil => simp [hc]
      | cons d w =>
        have hd := isTypeChar_of_isNameChar (all d (by simp))
        rw [ih (by simp) fun c hc => all c (List.mem_cons_of_mem _ hc), List.cons_append,
          typeAfterColon?_typeChar hd]
        simp
  exact word n.letters n.isWord.1 n.isWord.2

end Scan

/-! ## Scans through constants -/

section Constants

variable {c : Char} {cs r : List Char}

theorem isTypeChar_of_isDigit (h : c.isDigit = true) : isTypeChar c = true := by
  simp [isTypeChar, isNameChar, Char.isAlphanum, h]

/-- A character that neither separates words nor closes a list of arguments. -/
def Tight (c : Char) : Prop :=
  isBlank c = false ∧ c ≠ ':' ∧ isParenthesis c = false

instance (c : Char) : Decidable (Tight c) :=
  inferInstanceAs (Decidable (_ ∧ _ ∧ _))

theorem tight_of_isTypeChar (h : isTypeChar c = true) : Tight c :=
  ⟨isBlank_of_isTypeChar h, ne_colon_of_isTypeChar h, isParenthesis_of_isTypeChar h⟩

theorem Numeral.letters_tight (n : Numeral) : ∀ c ∈ n.letters, Tight c := by
  have digit : ∀ c : Char, c.isDigit = true → Tight c :=
    fun c hc => tight_of_isTypeChar (isTypeChar_of_isDigit hc)
  have mark : ∀ c ∈ ['.', 'e', 'E', '+', '-'], Tight c := by decide
  intro c hc
  rcases List.mem_append.mp hc with hc | hc
  · cases hn : n.negative with
    | false => simp [hn] at hc
    | true =>
      simp only [hn, if_true, List.mem_singleton] at hc
      exact mark c (by simp [hc])
  · rcases List.mem_cons.mp hc with rfl | hc
    · exact digit _ n.isDigit
    · exact (n.behind_fits c hc).elim (digit c) (mark c)

/-- The first character of a constant tells whether it opens a type. -/
theorem Constant.exists_head (v : Constant) : ∃ c cs, v.letters = c :: cs ∧
    isBlank c = false ∧ c ≠ ':' ∧ isTypeChar c = v.opensType := by
  cases v with
  | number n =>
    cases hn : n.negative with
    | true =>
      have type : isTypeChar '-' = false := by decide
      exact ⟨'-', n.first :: n.behind, by simp [letters, Numeral.letters, hn], by decide,
        by decide, by simp [opensType, hn, type]⟩
    | false =>
      refine ⟨n.first, n.behind, by simp [letters, Numeral.letters, hn], ?_⟩
      have type : isTypeChar n.first = true := isTypeChar_of_isDigit n.isDigit
      exact ⟨isBlank_of_isTypeChar type, ne_colon_of_isTypeChar type, by simp [opensType, hn, type]⟩
  | word n =>
    obtain ⟨c, cs, hw, hc⟩ := n.exists_head
    have type := isTypeChar_of_isNameChar hc
    exact ⟨c, cs, hw, isBlank_of_isTypeChar type, ne_colon_of_isTypeChar type, type⟩
  | string content => exact ⟨_, _, rfl, by decide, by decide, rfl⟩
  | list items => exact ⟨_, _, rfl, by decide, by decide, rfl⟩
  | object members => exact ⟨_, _, rfl, by decide, by decide, rfl⟩

theorem Constant.exists_last (v : Constant) : ∃ cs c, v.letters = cs ++ [c] ∧ Tight c := by
  have solid : ∀ w : List Char, w ≠ [] → (∀ c ∈ w, Tight c) → ∃ cs c, w = cs ++ [c] ∧ Tight c :=
    fun w nonempty tight => ⟨w.dropLast, w.getLast nonempty,
      (List.dropLast_concat_getLast nonempty).symm, tight _ (List.getLast_mem nonempty)⟩
  cases v with
  | number n => exact solid n.letters (by simp [Numeral.letters]) n.letters_tight
  | word n =>
    have tight : ∀ c ∈ n.letters, Tight c :=
      fun c hc => tight_of_isTypeChar (isTypeChar_of_isNameChar (n.isWord.2 c hc))
    exact solid n.letters n.isWord.1 tight
  | string content => exact ⟨'"' :: content, '"', rfl, by decide⟩
  | list items => exact ⟨'[' :: items.letters, ']', rfl, by decide⟩
  | object members => exact ⟨'\x7b' :: members.letters, '\x7d', rfl, by decide⟩

theorem typeAfterColon?_constant (v : Constant) (r : List Char) :
    typeAfterColon? (v.letters ++ r) = none := by
  obtain ⟨c, cs, hv, blank, colon, -⟩ := v.exists_head
  rw [hv, List.cons_append]
  exact typeAfterColon?_cons blank colon _

theorem Filler.not_isNameChar (f : Filler) : ∀ c ∈ f.letters, isNameChar c = false := by
  intro c hc
  rcases f.fills c hc with hc | rfl
  · exact isNameChar_of_isBlank hc
  · decide

theorem typeAfterColon?_filler (f : Filler) (hr : typeAfterColon? r = none) :
    typeAfterColon? (f.letters ++ r) = none := by
  obtain ⟨letters, fills⟩ := f
  induction letters with
  | nil => exact hr
  | cons c letters ih =>
    rcases fills c List.mem_cons_self with hc | rfl
    · exact (typeAfterColon?_blank hc _).trans (ih fun c hc => fills c (List.mem_cons_of_mem _ hc))
    · exact typeAfterColon?_cons (by decide) (by decide) _

theorem typeAfterColon?_items (items : Items) (r : List Char) :
    typeAfterColon? (items.letters ++ ']' :: r) = none := by
  cases items with
  | close filler =>
    exact typeAfterColon?_filler filler (typeAfterColon?_cons (by decide) (by decide) _)
  | item filler value more =>
    rw [Items.letters, List.append_assoc, List.append_assoc]
    exact typeAfterColon?_filler filler (typeAfterColon?_constant value _)

theorem typeAfterColon?_members (members : Members) (r : List Char) :
    typeAfterColon? (members.letters ++ '\x7d' :: r) = none := by
  cases members with
  | close filler =>
    exact typeAfterColon?_filler filler (typeAfterColon?_cons (by decide) (by decide) _)
  | member filler name before behind value more =>
    obtain ⟨c, cs, hname, hc⟩ := name.exists_head
    rw [Members.letters, hname, List.append_assoc]
    exact typeAfterColon?_filler filler (typeAfterColon?_typeChar (isTypeChar_of_isNameChar hc) _)

theorem run?_eq_none {p : Char → Bool} : run? p cs = none ↔ Stops p cs := by
  cases cs with
  | nil => exact iff_of_true rfl Stops.nil
  | cons c cs =>
    cases hc : p c with
    | false => exact iff_of_true (Stops.cons hc).run? (Stops.cons hc)
    | true =>
      refine iff_of_false ?_ ?_
      · simp [run?, hc]
      · intro stops
        rw [stops.head] at hc
        cases hc

/-- No type reaches over a quote. -/
theorem typeAfterColon?_quote (cs r : List Char) :
    typeAfterColon? (cs ++ '"' :: r) = none ↔ typeAfterColon? cs = none := by
  have quote : ∀ r, typeAfterColon? ('"' :: r) = none :=
    typeAfterColon?_cons (by decide) (by decide)
  induction cs with
  | nil => exact iff_of_true (quote r) rfl
  | cons c cs ih =>
    by_cases blank : isBlank c = true
    · rw [List.cons_append, typeAfterColon?_blank blank, typeAfterColon?_blank blank]
      exact ih
    · by_cases colon : c = ':'
      · subst colon
        have skipped : skipBlanks (cs ++ '"' :: r) = skipBlanks cs ++ '"' :: r := by
          rw [skipBlanks, skipBlanks, List.dropWhile_append]
          split
          · rename_i hempty
            rw [List.isEmpty_iff.mp hempty, (Stops.cons (by decide)).dropWhile]
            rfl
          · rfl
        rw [List.cons_append, typeAfterColon?_colon, typeAfterColon?_colon, skipped, run?_eq_none,
          run?_eq_none]
        exact ⟨Stops.of_append, fun stops => stops.append (Stops.cons (by decide))⟩
      · have solid : isBlank c = false := by simpa using blank
        exact iff_of_true (typeAfterColon?_cons solid colon _) (typeAfterColon?_cons solid colon _)

/-- A quote parts the fields of a string from those behind it. -/
theorem fieldsIn_quote (cs r : List Char) :
    fieldsIn (cs ++ '"' :: r) = [] ↔ fieldsIn cs = [] ∧ fieldsIn r = [] := by
  induction cs with
  | nil =>
    have quote : isNameChar '"' = false := by decide
    have nothing : fieldsIn [] = [] := rfl
    rw [List.nil_append, fieldsIn_cons]
    simp [quote, nothing]
  | cons c cs ih =>
    rw [List.cons_append, fieldsIn_cons c, fieldsIn_cons c, typeAfterColon?_quote, and_assoc]
    exact and_congr_right fun _ => ih

/-- A member is found as a field exactly if its value opens a type. -/
theorem fieldsIn_member (name : SchemaName) (before behind : Blanks) (value : Constant)
    (r : List Char) :
    fieldsIn (name.letters ++ (before.letters ++ ':' :: (behind.letters ++ (value.letters ++ r)))) =
      [] ↔ value.opensType = false ∧ fieldsIn (value.letters ++ r) = [] := by
  obtain ⟨c, cs, hv, blank, -, type⟩ := value.exists_head
  have marks : ∀ c ∈ before.letters ++ ':' :: behind.letters, isNameChar c = false := by
    intro c hc
    rcases List.mem_append.mp hc with hc | hc
    · exact before.gap.not_isNameChar c hc
    · rcases List.mem_cons.mp hc with rfl | hc
      · decide
      · exact behind.gap.not_isNameChar c hc
  have reads : typeAfterColon? (before.letters ++ ':' :: (behind.letters ++ (value.letters ++ r))) =
      none ↔ value.opensType = false := by
    have skipped : skipBlanks (behind.letters ++ (value.letters ++ r)) = value.letters ++ r :=
      skipBlanks_gap behind.gap (by rw [hv]; exact Stops.cons blank)
    rw [typeAfterColon?_gap before.gap, typeAfterColon?_colon, skipped, run?_eq_none, ← type, hv]
    exact ⟨Stops.head, Stops.cons⟩
  have passed := fieldsIn_pass marks (value.letters ++ r)
  rw [List.append_assoc, List.cons_append] at passed
  rw [fieldsIn_name, reads, passed]

mutual

theorem fieldsIn_constant : ∀ (v : Constant) (r : List Char), typeAfterColon? r = none →
    (fieldsIn (v.letters ++ r) = [] ↔ v.Inert ∧ fieldsIn r = [])
  | .number n, r, hr => by
    have blank : ∀ c ∈ n.letters, isBlank c = false := fun c hc => (n.letters_tight c hc).1
    have colon : ∀ c ∈ n.letters, c ≠ ':' := fun c hc => (n.letters_tight c hc).2.1
    rw [Constant.letters, fieldsIn_solid blank colon hr, Constant.Inert, true_and]
  | .word n, r, hr => by
    rw [Constant.letters, fieldsIn_name, Constant.Inert]
    simp [hr]
  | .string content, r, _ => by
    have quote := fieldsIn_quote [] (content ++ '"' :: r)
    rw [List.nil_append] at quote
    have nothing : fieldsIn [] = [] := rfl
    rw [Constant.letters, List.cons_append, List.append_assoc, List.singleton_append, quote,
      fieldsIn_quote, Constant.Inert]
    simp [nothing]
  | .list items, r, hr => by
    have bracket : isNameChar '[' = false := by decide
    rw [Constant.letters, List.cons_append, List.append_assoc, fieldsIn_cons, List.singleton_append,
      fieldsIn_items items r hr, Constant.Inert]
    simp [bracket]
  | .object members, r, hr => by
    have brace : isNameChar '\x7b' = false := by decide
    rw [Constant.letters, List.cons_append, List.append_assoc, fieldsIn_cons, List.singleton_append,
      fieldsIn_members members r hr, Constant.Inert]
    simp [brace]

theorem fieldsIn_items : ∀ (items : Items) (r : List Char), typeAfterColon? r = none →
    (fieldsIn (items.letters ++ ']' :: r) = [] ↔ items.Inert ∧ fieldsIn r = [])
  | .close filler, r, _ => by
    have bracket : isNameChar ']' = false := by decide
    rw [Items.letters, fieldsIn_pass filler.not_isNameChar, fieldsIn_cons, Items.Inert]
    simp [bracket]
  | .item filler value more, r, hr => by
    rw [Items.letters, List.append_assoc, fieldsIn_pass filler.not_isNameChar, List.append_assoc,
      fieldsIn_constant value _ (typeAfterColon?_items more r), fieldsIn_items more r hr,
      Items.Inert, and_assoc]

theorem fieldsIn_members : ∀ (members : Members) (r : List Char), typeAfterColon? r = none →
    (fieldsIn (members.letters ++ '\x7d' :: r) = [] ↔ members.Inert ∧ fieldsIn r = [])
  | .close filler, r, _ => by
    have brace : isNameChar '\x7d' = false := by decide
    rw [Members.letters, fieldsIn_pass filler.not_isNameChar, fieldsIn_cons, Members.Inert]
    simp [brace]
  | .member filler name before behind value more, r, hr => by
    rw [Members.letters, List.append_assoc, fieldsIn_pass filler.not_isNameChar]
    simp only [List.append_assoc, List.cons_append]
    rw [fieldsIn_member, fieldsIn_constant value _ (typeAfterColon?_members more r),
      fieldsIn_members more r hr, Members.Inert, and_assoc, and_assoc]

end

/-- The scan for fields finds nothing in a constant exactly if it is inert. -/
theorem fieldsIn_letters (v : Constant) : fieldsIn v.letters = [] ↔ v.Inert := by
  have h := fieldsIn_constant v [] rfl
  rw [List.append_nil] at h
  exact h.trans (and_iff_left rfl)

end Constants

end SchemaClient.Source
