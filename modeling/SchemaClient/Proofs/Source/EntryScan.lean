import SchemaClient.Proofs.Source.Grammar

/-!
# Entries read back from a body

Fields, operations and enum values that stand in a body in the practical grammar are found, each
once and in order, however they are spaced.
-/

namespace SchemaClient.Source

open Text

section Patterns

variable {c : Char} {cs g₁ g₂ f t rest : List Char}

theorem fieldPattern_cons (h : isNameChar c = false) (cs : List Char) :
    fieldPattern (c :: cs) = none := by
  rw [fieldPattern, (Stops.cons h).run?]
  rfl

theorem operationPattern_cons (h : isNameChar c = false) (cs : List Char) :
    operationPattern (c :: cs) = none := by
  rw [operationPattern, (Stops.cons h).run?]
  rfl

theorem valuePattern_cons (h : isNameChar c = false) (cs : List Char) :
    valuePattern (c :: cs) = none := by
  rw [valuePattern, (Stops.cons h).run?]
  rfl

theorem skipBlanks_gap (hg : Gap g₁) (h : Stops isBlank cs) : skipBlanks (g₁ ++ cs) = cs :=
  dropWhile_run hg h

theorem TypeForm.stops_blank (t : TypeForm) (cs : List Char) : Stops isBlank (t.letters ++ cs) := by
  obtain ⟨c, w, hw⟩ := List.exists_cons_of_ne_nil t.nonempty
  have hc := t.letters_isTypeChar c (by rw [hw]; exact List.mem_cons_self)
  rw [hw]
  exact Stops.cons (isBlank_of_isTypeChar hc)

theorem typeAfterColon?_type (hg₁ : Gap g₁) (hg₂ : Gap g₂) (t : TypeForm)
    (stops : Stops isTypeChar rest) :
    typeAfterColon? (g₁ ++ ':' :: (g₂ ++ (t.letters ++ rest))) = some (t.letters, rest) := by
  have colon : skipBlanks (g₁ ++ ':' :: (g₂ ++ (t.letters ++ rest))) =
      ':' :: (g₂ ++ (t.letters ++ rest)) := skipBlanks_gap hg₁ (Stops.cons (by decide))
  rw [typeAfterColon?, colon]
  simp only
  rw [skipBlanks_gap hg₂ (t.stops_blank rest), run?_run t.nonempty t.letters_isTypeChar stops]

theorem Gap.stops_colon (hg : Gap g₁) (cs : List Char) : Stops isNameChar (g₁ ++ ':' :: cs) :=
  hg.stops (fun _ => isNameChar_of_isBlank) (Stops.cons (by decide))

/-- The words of a field at the head of a text. -/
theorem fieldPattern_field (l : FieldLine) (hg₁ : Gap g₁) (hg₂ : Gap g₂)
    (stops : Stops isTypeChar rest) :
    fieldPattern (l.name.letters ++ (g₁ ++ ':' :: (g₂ ++ l.type.letters)) ++ rest) =
      some (l.field, (l.name.letters ++ (g₁ ++ ':' :: (g₂ ++ l.type.letters))).length) := by
  have shape : l.name.letters ++ (g₁ ++ ':' :: (g₂ ++ l.type.letters)) ++ rest =
      l.name.letters ++ (g₁ ++ ':' :: (g₂ ++ (l.type.letters ++ rest))) := by
    simp
  rw [fieldPattern, shape, run?_run l.name.isWord.1 l.name.isWord.2 (hg₁.stops_colon _)]
  simp only [Option.bind_eq_bind, Option.bind_some, typeAfterColon?_type hg₁ hg₂ l.type stops]
  rw [← shape, List.length_append, Nat.add_sub_cancel]
  rfl

end Patterns

section Fields

variable {cs : List Char} {ws : List (List Char)}

theorem TypeForm.stops_of_apart {t : TypeForm} (h : Apart t.letters cs) : Stops isTypeChar cs :=
  h _ (List.getLast?_eq_some_getLast t.nonempty)
    (t.letters_isTypeChar _ (List.getLast_mem t.nonempty))

/-- A text that begins with the words of a field, taken apart. -/
theorem spaced_field {l : FieldLine} (h : Spaced (l.words ++ ws) cs) :
    ∃ g g₁ g₂ rest, cs = g ++ (l.name.letters ++ (g₁ ++ ':' :: (g₂ ++ l.type.letters)) ++ rest) ∧
      Gap g ∧ Gap g₁ ∧ Gap g₂ ∧ Stops isTypeChar rest ∧ Spaced ws rest := by
  cases h with
  | @word g _ _ _ hg _ h =>
    cases h with
    | @word g₁ _ _ _ hg₁ _ h =>
      cases h with
      | @word g₂ _ _ rest hg₂ apart h =>
        exact ⟨g, g₁, g₂, rest, by simp, hg, hg₁, hg₂, TypeForm.stops_of_apart apart, h⟩

/-- No field starts in characters that are of no name. -/
theorem fieldsIn_pass {w : List Char} (h : ∀ c ∈ w, isNameChar c = false) (r : List Char) :
    fieldsIn (w ++ r) = fieldsIn r :=
  collect_pass (fun c hc cs => fieldPattern_cons (h c hc) cs) r

theorem operationsIn_pass {w : List Char} (h : ∀ c ∈ w, isNameChar c = false) (r : List Char) :
    operationsIn (w ++ r) = operationsIn r :=
  collect_pass (fun c hc cs => operationPattern_cons (h c hc) cs) r

theorem fieldsIn_field {l : FieldLine} (h : Spaced (l.words ++ ws) cs) :
    ∃ rest, Spaced ws rest ∧ fieldsIn cs = l.field :: fieldsIn rest := by
  obtain ⟨g, g₁, g₂, rest, rfl, hg, hg₁, hg₂, stops, hrest⟩ := spaced_field h
  refine ⟨rest, hrest, ?_⟩
  rw [fieldsIn_pass hg.not_isNameChar]
  exact collect_match (by simp [l.name.isWord.1]) (fieldPattern_field l hg₁ hg₂ stops)

theorem fieldsIn_gap {g : List Char} (hg : Gap g) : fieldsIn g = [] := by
  have passed := fieldsIn_pass hg.not_isNameChar []
  rwa [List.append_nil] at passed

theorem fieldsIn_spaced {fields : List FieldLine} (h : Spaced (fields.flatMap (·.words)) cs) :
    fieldsIn cs = fields.map (·.field) := by
  induction fields generalizing cs with
  | nil =>
    cases h with
    | gap hg => exact fieldsIn_gap hg
  | cons l fields ih =>
    rw [List.flatMap_cons] at h
    obtain ⟨rest, hrest, hfields⟩ := fieldsIn_field h
    rw [hfields, ih hrest, List.map_cons]

theorem fieldsIn_arguments {args : List FieldLine} (h : Spaced (argumentWords args) cs) :
    fieldsIn cs = args.map (·.field) := by
  induction args using argumentWords.induct generalizing cs with
  | case1 =>
    cases h with
    | gap hg => exact fieldsIn_gap hg
  | case2 a =>
    have single : Spaced (a.words ++ []) cs := by simpa [argumentWords] using h
    obtain ⟨rest, hrest, hfields⟩ := fieldsIn_field single
    cases hrest with
    | gap hg => rw [hfields, fieldsIn_gap hg, List.map_singleton]
  | case3 a b as ih =>
    obtain ⟨rest, hrest, hfields⟩ := fieldsIn_field h
    cases hrest with
    | @word g _ _ rest hg _ hrest =>
      have comma : fieldsIn (g ++ [','] ++ rest) = fieldsIn rest :=
        fieldsIn_pass (hg.not_isNameChar_concat (by decide)) rest
      rw [hfields, comma, ih hrest]
      rfl

end Fields

section Operations

variable {cs inner rest : List Char} {ws : List (List Char)}

theorem parenthesised?_parentheses (h : ')' ∉ inner) (rest : List Char) :
    parenthesised? ('(' :: (inner ++ ')' :: rest)) = some (inner, rest) := by
  have all : ∀ c ∈ inner, decide (c ≠ ')') = true := by
    intro c hc
    rw [decide_eq_true_eq]
    rintro rfl
    exact h hc
  have stops : Stops (fun c => decide (c ≠ ')')) (')' :: rest) := Stops.cons (by decide)
  rw [parenthesised?, dropWhile_run all stops, takeWhile_run all stops]

theorem isParenthesis_of_apply {p : Char → Bool} {c : Char} (h : p c = true)
    (opening : p '(' = false) (closing : p ')' = false) : isParenthesis c = false := by
  simp [isParenthesis, ne_of_apply h opening, ne_of_apply h closing]

theorem isParenthesis_of_isTypeChar {c : Char} (h : isTypeChar c = true) :
    isParenthesis c = false :=
  isParenthesis_of_apply h (by decide) (by decide)

theorem isParenthesis_of_isBlank {c : Char} (h : isBlank c = true) : isParenthesis c = false :=
  isParenthesis_of_apply h (by decide) (by decide)

theorem FieldLine.isParenthesis_of_mem {w : List Char} (l : FieldLine) (hw : w ∈ l.words) :
    ∀ c ∈ w, isParenthesis c = false := by
  intro c hc
  simp only [FieldLine.words, List.mem_cons, List.not_mem_nil, or_false] at hw
  rcases hw with rfl | rfl | rfl
  · exact isParenthesis_of_isTypeChar (isTypeChar_of_isNameChar (l.name.isWord.2 c hc))
  · rw [List.mem_singleton.mp hc]
    decide
  · exact isParenthesis_of_isTypeChar (l.type.letters_isTypeChar c hc)

/-- An argument list holds no parenthesis. -/
theorem isParenthesis_arguments {args : List FieldLine} (h : Spaced (argumentWords args) inner) :
    ∀ c ∈ inner, isParenthesis c = false := by
  refine h.chars (fun c hc => isParenthesis_of_isBlank hc) ?_
  clear h
  induction args using argumentWords.induct with
  | case1 => simp [argumentWords]
  | case2 a => exact fun w hw => a.isParenthesis_of_mem hw
  | case3 a b as ih =>
    intro w hw
    rw [argumentWords, List.mem_append, List.mem_cons] at hw
    rcases hw with hw | rfl | hw
    · exact a.isParenthesis_of_mem hw
    · decide
    · exact ih w hw

theorem trimBy_of_ends {p : Char → Bool} (first : ∀ c ∈ cs.head?, p c = false)
    (last : ∀ c ∈ cs.getLast?, p c = false) : trimBy p cs = cs := by
  have front : Stops p cs := first
  have back : Stops p cs.reverse := by
    intro c hc
    rw [List.head?_reverse] at hc
    exact last c hc
  rw [trimBy, front.dropWhile, back.dropWhile, List.reverse_reverse]

theorem trimBy_of_forall {p : Char → Bool} (h : ∀ c ∈ cs, p c = false) : trimBy p cs = cs :=
  trimBy_of_ends (fun c hc => h c (List.mem_of_head? hc)) fun c hc => h c (List.mem_of_getLast? hc)

theorem operationPattern_of {o : OperationLine} {behind front : List Char} {args : List Field}
    {g₁ g₂ : List Char} (stops : Stops isNameChar behind)
    (list : ((parenthesised? (skipBlanks behind)).map fun found =>
      (argumentsIn found.1, found.2)).getD ([], behind) =
        (args, g₁ ++ ':' :: (g₂ ++ (o.type.letters ++ rest))))
    (hg₁ : Gap g₁) (hg₂ : Gap g₂) (hrest : Stops isTypeChar rest)
    (hfront : o.name.letters ++ behind = front ++ rest) :
    operationPattern (front ++ rest) =
      some (⟨o.name.text, args, .parse o.type.text⟩, front.length) := by
  have length : (front ++ rest).length - rest.length = front.length := by
    rw [List.length_append, Nat.add_sub_cancel]
  rw [← hfront, operationPattern, run?_run o.name.isWord.1 o.name.isWord.2 stops, hfront]
  cases hlist : parenthesised? (skipBlanks behind) with
  | none =>
    rw [hlist] at list
    obtain ⟨rfl, rfl⟩ := Prod.mk.inj list
    simp only [Option.bind_eq_bind, Option.bind_some, hlist,
      typeAfterColon?_type hg₁ hg₂ o.type hrest, length]
    rfl
  | some found =>
    rw [hlist] at list
    obtain ⟨rfl, hbehind⟩ := Prod.mk.inj list
    simp only [Option.bind_eq_bind, Option.bind_some, hlist, hbehind,
      typeAfterColon?_type hg₁ hg₂ o.type hrest, length]
    rfl

/-- An operation with a list of arguments that holds no closing parenthesis. -/
theorem operationsIn_list {name : SchemaName} {type : TypeForm} {list : List (List Char)}
    (h : Spaced (name.letters :: ['('] :: (list ++ [')'] :: [':'] :: type.letters :: ws)) cs)
    (noClose : ∀ inner, Spaced list inner → ')' ∉ inner) :
    ∃ inner rest, Spaced list inner ∧ Spaced ws rest ∧ operationsIn cs =
      ⟨name.text, argumentsIn inner, .parse type.text⟩ :: operationsIn rest := by
  cases h with
  | @word g _ _ _ hg _ h =>
    cases h with
    | @word g₁ _ _ _ hg₁ _ h =>
      obtain ⟨inner, behind, rfl, hinner, -, hbehind⟩ := h.split
      cases hbehind with
      | @word g₂ _ _ _ hg₂ _ htype =>
        cases htype with
        | @word g₃ _ _ rest hg₃ apart hrest =>
          let list := g₁ ++ '(' :: (inner ++ ')' :: (g₂ ++ ':' :: (g₃ ++ type.letters)))
          refine ⟨inner, rest, hinner, hrest, ?_⟩
          have shape : g ++ name.letters ++ (g₁ ++ ['('] ++ (inner ++ [')'] ++
              (g₂ ++ [':'] ++ (g₃ ++ type.letters ++ rest)))) =
              g ++ (name.letters ++ list ++ rest) := by
            simp [list]
          rw [shape, operationsIn_pass hg.not_isNameChar]
          have stops : Stops isNameChar (list ++ rest) := by
            simp only [list, List.append_assoc, List.cons_append]
            exact hg₁.stops (fun _ => isNameChar_of_isBlank) (Stops.cons (by decide))
          refine collect_match (by simp [name.isWord.1]) (operationPattern_of
            (o := ⟨name, [], type⟩) stops ?_ hg₂ hg₃ (TypeForm.stops_of_apart apart)
            (by simp))
          have open? : skipBlanks (list ++ rest) = '(' :: (inner ++ ')' ::
              (g₂ ++ ':' :: (g₃ ++ (type.letters ++ rest)))) := by
            simp only [list, List.append_assoc, List.cons_append]
            exact skipBlanks_gap hg₁ (Stops.cons (by decide))
          rw [open?, parenthesised?_parentheses (noClose inner hinner)]
          rfl

theorem operationsIn_operation {o : OperationLine} (h : Spaced (o.words ++ ws) cs) :
    ∃ rest, Spaced ws rest ∧ operationsIn cs = o.operation :: operationsIn rest := by
  obtain ⟨name, args, type⟩ := o
  cases args with
  | nil =>
    obtain ⟨g, g₁, g₂, rest, rfl, hg, hg₁, hg₂, stops, hrest⟩ := spaced_field (l := ⟨name, type⟩) h
    refine ⟨rest, hrest, ?_⟩
    rw [operationsIn_pass hg.not_isNameChar]
    refine collect_match (by simp [name.isWord.1]) (operationPattern_of (o := ⟨name, [], type⟩)
      (hg₁.stops_colon (g₂ ++ (type.letters ++ rest))) ?_ hg₁ hg₂ stops (by simp))
    rw [skipBlanks_gap hg₁ (Stops.cons (by decide))]
    rfl
  | cons a as =>
    replace h : Spaced (name.letters :: ['('] :: (argumentWords (a :: as) ++
        [')'] :: [':'] :: type.letters :: ws)) cs := by
      simpa [OperationLine.words] using h
    have noClose : ∀ inner, Spaced (argumentWords (a :: as)) inner → ')' ∉ inner :=
      fun inner hinner hc => by cases isParenthesis_arguments hinner ')' hc
    obtain ⟨inner, rest, hinner, hrest, found⟩ := operationsIn_list h noClose
    refine ⟨rest, hrest, ?_⟩
    rw [found, argumentsIn, trimBy_of_forall (isParenthesis_arguments hinner),
      fieldsIn_arguments hinner]
    rfl

theorem operationsIn_gap (h : Spaced [] cs) : operationsIn cs = [] := by
  cases h with
  | gap hg =>
    have passed := operationsIn_pass hg.not_isNameChar []
    rwa [List.append_nil] at passed

theorem operationsIn_spaced {operations : List OperationLine}
    (h : Spaced (operations.flatMap (·.words)) cs) :
    operationsIn cs = operations.map (·.operation) := by
  induction operations generalizing cs with
  | nil => exact operationsIn_gap h
  | cons o operations ih =>
    rw [List.flatMap_cons] at h
    obtain ⟨rest, hrest, hoperations⟩ := operationsIn_operation h
    rw [hoperations, ih hrest, List.map_cons]

end Operations

section Values

variable {cs : List Char}

theorem valuesIn_spaced {values : List SchemaName} (h : Spaced (values.map (·.letters)) cs) :
    valuesIn cs = values.map (·.text) := by
  induction values generalizing cs with
  | nil =>
    cases h with
    | gap hg =>
      have := collect_pass (fun c hc cs => valuePattern_cons (hg.not_isNameChar c hc) cs) []
      rw [List.append_nil] at this
      exact this
  | cons v values ih =>
    cases h with
    | @word g _ _ rest hg apart hrest =>
      have value : valuePattern (v.letters ++ rest) = some (v.text, v.letters.length) := by
        rw [valuePattern, run?_run v.isWord.1 v.isWord.2 (apart.stops v.isWord)]
        rfl
      rw [List.append_assoc, valuesIn,
        collect_pass fun c hc cs => valuePattern_cons (hg.not_isNameChar c hc) cs,
        collect_match v.isWord.1 value, List.map_cons]
      exact congrArg (v.text :: ·) (ih hrest)

/-- A text with a character of a name has a value. -/
theorem valuesIn_ne_nil {c : Char} (hmem : c ∈ cs) (hc : isNameChar c = true) :
    valuesIn cs ≠ [] := by
  induction cs with
  | nil => cases hmem
  | cons d cs ih =>
    cases hd : isNameChar d with
    | true => simp [valuesIn, collect, collectFrom, valuePattern, run?, hd]
    | false =>
      have hne : c ≠ d := by
        rintro rfl
        rw [hc] at hd
        cases hd
      rw [valuesIn, collect, collectFrom, valuePattern_cons hd]
      exact ih ((List.mem_cons.mp hmem).resolve_left hne)

end Values

end SchemaClient.Source
