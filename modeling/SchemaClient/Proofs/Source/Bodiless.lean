import SchemaClient.Proofs.Source.Directives
import SchemaClient.Proofs.Source.RoundTrip

/-!
# Definitions without a body

A definition without a body stands in front of the next block like the words of a longer header.
Scalars and unions are passed over. An object type, an input type or an enum without a body takes
the block for its own, unless that is a block of the same kind and name.
-/

namespace SchemaClient.Source

open Text

/-- A definition that ends without a block. -/
inductive BodilessForm
  | definition (kind : DefinitionKind) (name : SchemaName)
  | scalar (name : SchemaName)
  | union (name member : SchemaName) (members : List SchemaName)

namespace BodilessForm

def names : BodilessForm → List SchemaName
  | definition _ n | scalar n => [n]
  | union n m ms => n :: m :: ms

def scalarWord : List Char := ['s', 'c', 'a', 'l', 'a', 'r']

def unionWord : List Char := ['u', 'n', 'i', 'o', 'n']

/-- `type N`, `scalar N` and `union N = A | B`. -/
def words : BodilessForm → List (List Char)
  | definition kind n => [kind.keyword.toList, n.letters]
  | scalar n => [scalarWord, n.letters]
  | union n m ms =>
    unionWord :: n.letters :: ['='] :: m.letters :: ms.flatMap fun m => [['|'], m.letters]

end BodilessForm

/-- A definition without a body as it is written, with or without `extend` in front. Its names are
no keywords of definitions with a body. -/
structure Bodiless where
  extended : Bool
  form : BodilessForm
  plain : ∀ n ∈ form.names, ∀ kind : DefinitionKind, n.letters ≠ kind.keyword.toList

namespace Bodiless

def words (b : Bodiless) : List (List Char) :=
  (if b.extended then [extendWord] else []) ++ b.form.words

/-- What would be the header of the next block is one already: the block has the kind and the name
of the definition. -/
def LeavesAlone (b : Bodiless) (after : List WrittenBlock) : Prop :=
  ∀ kind n, b.form = .definition kind n → ∀ w ∈ after.head?, w.block.kind = kind ∧ w.block.name = n

/-- The next block is left alone, or is an enum without values when it is taken. -/
def Unseen (b : Bodiless) (after : List WrittenBlock) : Prop :=
  ∀ kind n, b.form = .definition kind n → ∀ w ∈ after.head?,
    (w.block.kind = kind ∧ w.block.name = n) ∨ (kind = .enum ∧ w.block.innerWords = [])

end Bodiless

/-- A definition without a body in front of a text, with directives, and blank space behind it
unless the text has some. -/
structure BodilessText (b : Bodiless) (q : List Char) where
  letters : List Char
  core : List Char
  gap : List Char
  bare : Bare Enclosed letters core
  spaced : Spaced b.words core
  isGap : Gap gap
  apart : Stops (fun c => !isBlank c) (gap ++ q)

def BodilessText.text {b : Bodiless} {q : List Char} (d : BodilessText b q) : List Char :=
  d.letters ++ d.gap

section Words

variable {b : Bodiless} {kind : DefinitionKind} {keyword : List Char} {us ws : List (List Char)}

theorem isMark_of {c : Char} (h : isWordChar c = false ∧ isBlank c = false ∧ isBrace c = false) :
    IsMark [c] := by
  refine ⟨by simp, fun d hd => ?_⟩
  rw [List.mem_singleton.mp hd]
  exact h

theorem BodilessForm.word_cases {f : BodilessForm} {w : List Char} (hw : w ∈ f.words) :
    (∃ n ∈ f.names, w = n.letters) ∨
      (∃ kind n, f = .definition kind n ∧ w = kind.keyword.toList) ∨
      w ∈ [scalarWord, unionWord, ['='], ['|']] := by
  cases f with
  | definition kind n =>
    simp only [words, List.mem_cons, List.not_mem_nil, or_false] at hw
    rcases hw with rfl | rfl
    · exact .inr (.inl ⟨kind, n, rfl, rfl⟩)
    · exact .inl ⟨n, List.mem_cons_self, rfl⟩
  | scalar n =>
    simp only [words, List.mem_cons, List.not_mem_nil, or_false] at hw
    rcases hw with rfl | rfl
    · exact .inr (.inr (by simp))
    · exact .inl ⟨n, List.mem_cons_self, rfl⟩
  | union n m ms =>
    simp only [words, List.mem_cons, List.mem_flatMap, List.not_mem_nil, or_false] at hw
    rcases hw with rfl | rfl | rfl | rfl | ⟨m', hm, rfl | rfl⟩
    · exact .inr (.inr (by simp))
    · exact .inl ⟨n, by simp [names], rfl⟩
    · exact .inr (.inr (by simp))
    · exact .inl ⟨m, by simp [names], rfl⟩
    · exact .inr (.inr (by simp))
    · exact .inl ⟨m', by simp [names, hm], rfl⟩

theorem BodilessForm.isToken (f : BodilessForm) : ∀ w ∈ f.words, IsToken w := by
  intro w hw
  rcases word_cases hw with ⟨n, -, rfl⟩ | ⟨kind, -, -, rfl⟩ | fixed
  · exact .inl n.isWord
  · exact .inl (isWord_keyword kind)
  · simp only [List.mem_cons, List.not_mem_nil, or_false] at fixed
    rcases fixed with rfl | rfl | rfl | rfl
    · exact .inl ⟨by decide, by decide⟩
    · exact .inl ⟨by decide, by decide⟩
    · exact .inr (isMark_of (by decide))
    · exact .inr (isMark_of (by decide))

/-- No other kind of block is announced by a definition without a body. -/
theorem BodilessForm.ne_keyword {f : BodilessForm}
    (plain : ∀ n ∈ f.names, ∀ kind : DefinitionKind, n.letters ≠ kind.keyword.toList)
    (other : ∀ n, f ≠ .definition kind n) : ∀ w ∈ f.words, w ≠ kind.keyword.toList := by
  intro w hw
  rcases word_cases hw with ⟨n, hn, rfl⟩ | ⟨kind', n, rfl, rfl⟩ | fixed
  · exact plain n hn kind
  · intro same
    exact other n (by rw [keyword_injective same])
  · have table : ∀ kind : DefinitionKind, ∀ w ∈ [scalarWord, unionWord, ['='], ['|']],
        w ≠ kind.keyword.toList := by
      intro kind
      cases kind <;> decide
    exact table kind w fixed

theorem Bodiless.isToken (b : Bodiless) : ∀ w ∈ b.words, IsToken w := by
  intro w hw
  rw [words, List.mem_append] at hw
  rcases hw with hw | hw
  · split at hw
    · rw [List.mem_singleton.mp hw]
      exact .inl isWord_extend
    · cases hw
  · exact b.form.isToken w hw

theorem announced_append_of_ne (h : ∀ w ∈ us, w ≠ keyword) (ws : List (List Char)) :
    announced keyword (us ++ ws) = announced keyword ws := by
  induction us with
  | nil => rfl
  | cons w us ih =>
    rw [List.cons_append, announced_cons_of_ne (h w List.mem_cons_self),
      ih fun w hw => h w (List.mem_cons_of_mem _ hw)]

/-- The name of the block behind a definition without a body. -/
theorem announced_bodiless (b : Bodiless) (kind : DefinitionKind) (ws : List (List Char)) :
    announced kind.keyword.toList (b.words ++ ws) =
      match b.form with
      | .definition k n =>
        if k = kind then some n.letters else announced kind.keyword.toList ws
      | _ => announced kind.keyword.toList ws := by
  have extension : announced kind.keyword.toList (b.words ++ ws) =
      announced kind.keyword.toList (b.form.words ++ ws) := by
    rw [Bodiless.words, List.append_assoc]
    refine announced_append_of_ne (fun w hw => ?_) _
    split at hw
    · rw [List.mem_singleton.mp hw]
      exact extend_ne_keyword kind
    · cases hw
  have plain := b.plain
  rw [extension]
  clear extension
  generalize b.form = form at plain ⊢
  by_cases own : ∃ n, form = .definition kind n
  · obtain ⟨n, rfl⟩ := own
    simp only [if_true]
    exact announced_keyword n.isName ws
  · rw [not_exists] at own
    rw [announced_append_of_ne (BodilessForm.ne_keyword plain own) ws]
    cases form with
    | definition k n =>
      have other : k ≠ kind := fun same => own n (by rw [same])
      simp only [if_neg other]
    | scalar n => rfl
    | union n m ms => rfl

end Words

section Blocks

variable {kind : DefinitionKind} {us ws : List (List Char)} {bp bq : List BlockText} {c : BlockText}
  {tp tq u : List Char} {w : WrittenBlock} {b : Bodiless}

/-- The definition that a block makes behind these words. -/
def definitionBehind (kind : DefinitionKind) (ws : List (List Char)) (c : BlockText) :
    List RawDefinition :=
  ((announced kind.keyword.toList ws).map fun n => ⟨String.ofList n, c.body⟩).toList

theorem Gap.braceless {g : List Char} (h : Gap g) : Braceless g :=
  fun c hc => isBrace_of_isBlank (h c hc)

/-- Words in front of a block are read as a part of its header. -/
theorem definitionsIn_between (kind : DefinitionKind) (hp : ∀ b ∈ bp, b.Clean) (htp : Gap tp)
    (hu : Spaced us u) (tokens : ∀ w ∈ us, IsToken w) (apart : Apart u (joined (c :: bq) tq))
    (hc : c.Announces ws) (hq : ∀ b ∈ bq, b.Clean) (htq : Gap tq) :
    definitionsIn kind
        (String.ofList (trim (collapse (joined bp tp ++ (u ++ joined (c :: bq) tq))))) =
      bp.filterMap (·.definition? kind) ++
        (definitionBehind kind (us ++ ws) c ++ bq.filterMap (·.definition? kind)) := by
  have shape : joined bp tp ++ (u ++ joined (c :: bq) tq) =
      joined (bp ++ ⟨tp ++ (u ++ c.head), c.inner⟩ :: bq) tq := by
    rw [joined_append, joined_tail_append]
    simp only [joined, List.append_assoc]
  have announces : BlockText.Announces (us ++ ws) ⟨tp ++ (u ++ c.head), c.inner⟩ := by
    refine ⟨(hu.append hc.spaced apart.of_append).gap_append htp, fun w hw => ?_, hc.braceless⟩
    rcases List.mem_append.mp hw with hw | hw
    · exact tokens w hw
    · exact hc.tokens w hw
  have clean : ∀ b ∈ bp ++ ⟨tp ++ (u ++ c.head), c.inner⟩ :: bq, BlockText.Clean b := by
    intro b hb
    rcases List.mem_append.mp hb with hb | hb
    · exact hp b hb
    · rcases List.mem_cons.mp hb with rfl | hb
      · exact ⟨_, announces⟩
      · exact hq b hb
  rw [shape, definitionsIn_normal kind clean htq.braceless, List.filterMap_append,
    List.filterMap_cons, BlockText.definition?, announces.name?, definitionBehind]
  cases announced kind.keyword.toList (us ++ ws) with
  | none => rfl
  | some n => rfl

/-- Words behind the last block are no part of a header. -/
theorem definitionsIn_behind (kind : DefinitionKind) (hp : ∀ b ∈ bp, b.Clean) (htp : Gap tp)
    (hu : Braceless u) :
    definitionsIn kind (String.ofList (trim (collapse (joined bp tp ++ u)))) =
      bp.filterMap (·.definition? kind) := by
  rw [joined_tail_append]
  refine definitionsIn_normal kind hp fun d hd => ?_
  rcases List.mem_append.mp hd with hd | hd
  · exact htp.braceless d hd
  · exact hu d hd

theorem definitionBehind_headWords (w : WrittenBlock) (kind : DefinitionKind) (c : BlockText) :
    definitionBehind kind w.headWords c =
      if w.block.kind = kind then [⟨w.block.name.text, c.body⟩] else [] := by
  rw [definitionBehind, announced_headWords]
  split
  · rfl
  · rfl

theorem definitionBehind_bodiless (b : Bodiless) (kind : DefinitionKind) (c : BlockText) :
    definitionBehind kind (b.words ++ ws) c =
      match b.form with
      | .definition k n =>
        if k = kind then [⟨n.text, c.body⟩] else definitionBehind kind ws c
      | _ => definitionBehind kind ws c := by
  rw [definitionBehind, announced_bodiless]
  cases b.form with
  | definition k n =>
    simp only
    split
    · rfl
    · rfl
  | scalar n => rfl
  | union n m ms => rfl

end Blocks

section Insertion

variable {before after : List WrittenBlock} {w : WrittenBlock} {b : Bodiless} {p q cs : List Char}

theorem Gap.quiet {g : List Char} (h : Gap g) : Quiet g :=
  fun c hc => plain_of_apply (h c hc) (by decide)

theorem Quiet.append {u v : List Char} (hu : Quiet u) (hv : Quiet v) : Quiet (u ++ v) := by
  intro c hc
  rcases List.mem_append.mp hc with hc | hc
  · exact hu c hc
  · exact hv c hc

namespace BodilessText

/-- What the text says. -/
def said (d : BodilessText b q) : List Char :=
  d.core ++ d.gap

theorem spaced_said (d : BodilessText b q) : Spaced b.words d.said := by
  have apart : Apart d.core d.gap := fun c hc ht => by
    cases hg : d.gap with
    | nil => exact Stops.nil
    | cons e g => exact Stops.cons (isTypeChar_of_isBlank (d.isGap e (hg ▸ List.mem_cons_self)))
  have h := d.spaced.append (.gap d.isGap) apart
  rwa [List.append_nil] at h

theorem apart_said (d : BodilessText b q) : Apart d.said q := by
  intro c hc ht
  have apart := d.apart
  cases hg : d.gap with
  | nil =>
    rw [hg, List.nil_append] at apart
    exact apart.mono fun e he => by
      cases hb : isBlank e with
      | false => rfl
      | true =>
        rw [isTypeChar_of_isBlank hb] at he
        cases he
  | cons e g =>
    have hlast : (e :: g).getLast (List.cons_ne_nil e g) ∈ d.gap := by
      rw [hg]
      exact List.getLast_mem _
    rw [said, List.getLast?_append, hg,
      List.getLast?_eq_some_getLast (List.cons_ne_nil e g)] at hc
    cases hc
    rw [isTypeChar_of_isBlank (d.isGap _ hlast)] at ht
    cases ht

theorem withoutNoise_text (d : BodilessText b q) (hp : Quiet p) (hq : Quiet q) :
    withoutNoise (p ++ (d.text ++ q)) = p ++ (d.said ++ q) := by
  have seam : Stops joinsDirective (d.gap ++ q) := d.apart.mono fun c hc => by
    simp only [joinsDirective, Bool.or_eq_true, decide_eq_true_eq] at hc
    rcases hc with hc | rfl
    · simp [isBlank_of_isNameChar hc]
    · decide
  have bare := Bare.quiet_append hp (d.bare.append (d.isGap.quiet.append hq) seam)
  rw [text, said, List.append_assoc, List.append_assoc, bare.withoutNoise_eq]

end BodilessText

theorem brace_mem (h : Spaced (after.flatMap (·.words)) cs) (nonempty : after ≠ []) :
    '\x7b' ∈ cs := by
  obtain ⟨w, ws, rfl⟩ := List.exists_cons_of_ne_nil nonempty
  rw [List.flatMap_cons] at h
  obtain ⟨c, rest, rfl, -⟩ := spaced_block h
  simp

theorem normal_quiet (h : Quiet cs) : normal cs = trim (collapse cs) := by
  rw [normal, withoutNoise_of_quiet h]

theorem clean_joined {ws : List WrittenBlock} (h : Spaced (ws.flatMap (·.words)) cs) :
    ∃ bs tail, cs = joined bs tail ∧ Gap tail ∧ List.Forall₂ WrittenBlock.StandsIn ws bs ∧
      ∀ b ∈ bs, b.Clean := by
  obtain ⟨bs, tail, rfl, htail, hbs⟩ := spaced_blocks h
  exact ⟨bs, tail, rfl, htail, hbs, clean_of_standsIn hbs⟩

/-- Behind the last block, a definition without a body makes no definition. -/
theorem insert_behind (hp : Spaced (before.flatMap (·.words)) p) (hq : Gap q)
    (d : BodilessText b q) (kind : DefinitionKind) :
    definitionsIn kind (String.ofList (normal (p ++ (d.text ++ q)))) =
      definitionsIn kind (String.ofList (normal (p ++ q))) := by
  have quiet := quiet_of_spaced hp
  have braceless : Braceless d.said := d.spaced_said.chars (P := fun c => isBrace c = false)
    (fun c hc => isBrace_of_isBlank hc) fun w hw => (b.isToken w hw).isBrace
  obtain ⟨bp, tp, rfl, htp, -, clean⟩ := clean_joined hp
  rw [normal, d.withoutNoise_text quiet hq.quiet, normal_quiet (quiet.append hq.quiet),
    definitionsIn_behind kind clean htp hq.braceless, definitionsIn_behind kind clean htp]
  intro c hc
  rcases List.mem_append.mp hc with hc | hc
  · exact braceless c hc
  · exact hq.braceless c hc

/-- In front of a block, a definition without a body changes at most what that block makes. -/
theorem insert_between (hp : Spaced (before.flatMap (·.words)) p)
    (hq : Spaced ((w :: after).flatMap (·.words)) q) (d : BodilessText b q) :
    ∃ (c : BlockText) (front behind : DefinitionKind → List RawDefinition), w.StandsIn c ∧
      ∀ kind,
        definitionsIn kind (String.ofList (normal (p ++ (d.text ++ q)))) =
          front kind ++ (definitionBehind kind (b.words ++ w.headWords) c ++ behind kind) ∧
        definitionsIn kind (String.ofList (normal (p ++ q))) =
          front kind ++ (definitionBehind kind w.headWords c ++ behind kind) := by
  have quietp := quiet_of_spaced hp
  have quietq := quiet_of_spaced hq
  have apart := d.apart_said
  obtain ⟨bp, tp, rfl, htp, -, cleanp⟩ := clean_joined hp
  have without := d.withoutNoise_text quietp quietq
  have plain := normal_quiet (quietp.append quietq)
  obtain ⟨bq, tq, rfl, htq, hbq, cleanq⟩ := clean_joined hq
  cases hbq with
  | @cons w c ws bq hc hrest =>
    have cleanq' : ∀ b ∈ bq, b.Clean := fun b hb => cleanq b (List.mem_cons_of_mem _ hb)
    refine ⟨c, fun kind => bp.filterMap (·.definition? kind),
      fun kind => bq.filterMap (·.definition? kind), hc, fun kind => ⟨?_, ?_⟩⟩
    · rw [normal, without]
      exact definitionsIn_between kind cleanp htp d.spaced_said b.isToken apart hc.announces
        cleanq' htq
    · have nothing : Spaced [] [] := .gap Gap.nil
      have h := definitionsIn_between kind cleanp htp nothing (by simp) Apart.nil_left
        hc.announces cleanq' htq
      rwa [List.nil_append, List.nil_append, ← plain] at h

end Insertion

section Taken

variable {kind : DefinitionKind} {ws : List (List Char)} {w : WrittenBlock} {b : Bodiless}
  {c : BlockText} {n : SchemaName}

theorem SchemaName.text_injective {n m : SchemaName} (h : n.text = m.text) : n = m := by
  have hl : n.letters = m.letters := by
    simpa [SchemaName.text] using congrArg String.toList h
  cases n
  cases m
  simpa using hl

theorem definitionBehind_taken (h : b.form = .definition kind n) (c : BlockText) :
    definitionBehind kind (b.words ++ ws) c = [⟨n.text, c.body⟩] := by
  rw [definitionBehind_bodiless, h]
  simp only [if_true]

theorem definitionBehind_passed (h : ∀ n, b.form ≠ .definition kind n) (c : BlockText) :
    definitionBehind kind (b.words ++ ws) c = definitionBehind kind ws c := by
  rw [definitionBehind_bodiless]
  split
  · rename_i k n hform
    rw [if_neg]
    rintro rfl
    exact h n hform
  · rfl

/-- A block that is taken from its own definition shows in everything that can be seen of a
definition. -/
theorem left_of_filterMap_eq {α : Type} {g : RawDefinition → Option α} (name : α → String)
    {front behind : List RawDefinition} (named : ∀ d x, g d = some x → name x = d.name)
    (shown : g ⟨n.text, c.body⟩ ≠ none)
    (same : (front ++ ([RawDefinition.mk n.text c.body] ++ behind)).filterMap g =
      (front ++ (definitionBehind kind w.headWords c ++ behind)).filterMap g) :
    w.block.kind = kind ∧ w.block.name = n := by
  obtain ⟨x, hx⟩ := Option.ne_none_iff_exists'.mp shown
  simp only [List.filterMap_append, List.append_cancel_left_eq, List.append_cancel_right_eq,
    definitionBehind_headWords, List.filterMap_cons, hx, List.filterMap_nil] at same
  split at same
  · rename_i hkind
    refine ⟨hkind, SchemaName.text_injective ?_⟩
    rw [List.filterMap_cons, List.filterMap_nil] at same
    split at same
    · cases same
    · rename_i y hy
      rw [List.cons.injEq] at same
      have hn := named _ _ hx
      rw [same.1, named _ _ hy] at hn
      exact hn
  · cases same

theorem exists_name_of_innerWords (b : Block) (h : b.innerWords ≠ []) :
    ∃ n : SchemaName, n.letters ∈ b.innerWords := by
  have fields : ∀ ls : List FieldLine, ls.flatMap (·.words) ≠ [] →
      ∃ n : SchemaName, n.letters ∈ ls.flatMap (·.words) := by
    intro ls h
    cases ls with
    | nil => exact absurd rfl h
    | cons l ls => exact ⟨l.name, by simp [FieldLine.words]⟩
  have operations : ∀ os : List OperationLine, os.flatMap (·.words) ≠ [] →
      ∃ n : SchemaName, n.letters ∈ os.flatMap (·.words) := by
    intro os h
    cases os with
    | nil => exact absurd rfl h
    | cons o os =>
      refine ⟨o.name, List.mem_flatMap.mpr ⟨o, List.mem_cons_self, ?_⟩⟩
      rw [OperationLine.words]
      split
      · exact List.mem_cons_self
      · exact List.mem_cons_self
  cases b with
  | object _ ls _ => exact fields ls h
  | input _ ls => exact fields ls h
  | root _ os => exact operations os h
  | subscription os => exact operations os h
  | enum _ v vs => exact ⟨v, List.mem_cons_self⟩

/-- A body has values exactly if its block has entries. -/
theorem valuesIn_body (h : w.StandsIn c) :
    valuesIn c.body.toList = [] ↔ w.block.innerWords = [] := by
  have body := h.body
  constructor
  · intro none
    apply Decidable.byContradiction
    intro entries
    obtain ⟨n, hn⟩ := exists_name_of_innerWords w.block entries
    obtain ⟨a, b, hab⟩ := List.append_of_mem hn
    rw [hab] at body
    obtain ⟨u, v, huv, -⟩ := body.split
    obtain ⟨d, ds, hd⟩ := List.exists_cons_of_ne_nil n.isWord.1
    refine valuesIn_ne_nil (c := d) ?_ (n.isWord.2 d (hd ▸ List.mem_cons_self)) none
    rw [huv, hd]
    simp
  · intro entries
    rw [entries] at body
    have none : Spaced (([] : List SchemaName).map (·.letters)) c.body.toList := body
    exact valuesIn_spaced none

end Taken

section Models

variable {s t : String}

def objectOf? (d : RawDefinition) : Option ObjectType :=
  if reservedTypeNames.contains d.name then none else some ⟨d.name, fieldsIn d.body.toList⟩

def inputOf? (d : RawDefinition) : Option InputType :=
  some ⟨d.name, fieldsIn d.body.toList⟩

def enumOf? (d : RawDefinition) : Option EnumType :=
  if (valuesIn d.body.toList).isEmpty then none else some ⟨d.name, valuesIn d.body.toList⟩

theorem objectsIn_eq (s : String) :
    objectsIn s = (definitionsIn .object s).filterMap objectOf? := by
  rw [objectsIn]
  induction definitionsIn .object s with
  | nil => rfl
  | cons d ds ih =>
    rw [List.filterMap_cons, ← ih, objectOf?]
    cases h : reservedTypeNames.contains d.name with
    | true => simp only [List.filter_cons, h, Bool.not_true, Bool.false_eq_true, if_false, if_true]
    | false =>
      simp only [List.filter_cons, h, Bool.not_false, Bool.false_eq_true, if_false, if_true,
        List.map_cons]

theorem inputsIn_eq (s : String) : inputsIn s = (definitionsIn .input s).filterMap inputOf? := by
  rw [inputsIn, ← List.filterMap_eq_map]
  rfl

theorem enumsIn_eq (s : String) : enumsIn s = (definitionsIn .enum s).filterMap enumOf? := by
  rw [enumsIn]
  induction definitionsIn .enum s with
  | nil => rfl
  | cons d ds ih =>
    rw [List.filterMap_cons, ← ih, enumOf?, List.map_cons]
    cases h : (valuesIn d.body.toList).isEmpty with
    | true => simp only [List.filter_cons, h, Bool.not_true, Bool.false_eq_true, if_false, if_true]
    | false =>
      simp only [List.filter_cons, h, Bool.not_false, Bool.false_eq_true, if_false, if_true]

/-- A model depends on the object types, the input types and the enums with values. -/
theorem modelOf_congr (objects : definitionsIn .object s = definitionsIn .object t)
    (inputs : definitionsIn .input s = definitionsIn .input t) (enums : enumsIn s = enumsIn t) :
    modelOf s = modelOf t := by
  simp only [modelOf, objectsIn, inputsIn, rootFieldsIn, bodyOf?, objects, inputs, enums]

theorem definitions_of_modelOf (h : modelOf s = modelOf t) :
    objectsIn s = objectsIn t ∧ inputsIn s = inputsIn t ∧ enumsIn s = enumsIn t :=
  ⟨congrArg SchemaModel.objectTypes h, congrArg SchemaModel.inputTypes h,
    congrArg SchemaModel.enums h⟩

end Models

section Results

variable {before after : List WrittenBlock} {w : WrittenBlock} {b : Bodiless} {p q : List Char}

/-- The definitions stay as they are exactly if the next block is left alone. -/
theorem definitionsIn_insert_iff (hp : Spaced (before.flatMap (·.words)) p)
    (hq : Spaced (after.flatMap (·.words)) q) (d : BodilessText b q) :
    (∀ kind, definitionsIn kind (String.ofList (normal (p ++ (d.text ++ q)))) =
      definitionsIn kind (String.ofList (normal (p ++ q)))) ↔ b.LeavesAlone after := by
  cases after with
  | nil =>
    cases hq with
    | gap hq =>
      refine ⟨fun _ => ?_, fun _ => insert_behind hp hq d⟩
      intro kind n _ w hw
      cases hw
  | cons w ws =>
    obtain ⟨c, front, behind, -, found⟩ := insert_between hp hq d
    constructor
    · intro same kind n hform w' hw
      cases hw
      have same := same kind
      rw [(found kind).1, (found kind).2, definitionBehind_taken hform] at same
      refine left_of_filterMap_eq (g := some) RawDefinition.name ?_ (by simp)
        (congrArg (List.filterMap some) same)
      intro d x hx
      rw [Option.some.inj hx]
    · intro leaves kind
      rw [(found kind).1, (found kind).2]
      by_cases taken : ∃ n, b.form = .definition kind n
      · obtain ⟨n, hform⟩ := taken
        obtain ⟨hkind, hname⟩ := leaves kind n hform w rfl
        rw [definitionBehind_taken hform, definitionBehind_headWords, if_pos hkind, hname]
      · rw [definitionBehind_passed fun n hform => taken ⟨n, hform⟩]

theorem analyse_insert_iff (hp : Spaced (before.flatMap (·.words)) p)
    (hq : Spaced (after.flatMap (·.words)) q) (nonempty : before ≠ [] ∨ after ≠ [])
    (d : BodilessText b q) :
    analyse (String.ofList (p ++ (d.text ++ q))) = analyse (String.ofList (p ++ q)) ↔
      modelOf (String.ofList (normal (p ++ (d.text ++ q)))) =
        modelOf (String.ofList (normal (p ++ q))) := by
  have quietp := quiet_of_spaced hp
  have quietq := quiet_of_spaced hq
  have brace : ∀ u, '\x7b' ∈ p ++ (u ++ q) := by
    intro u
    rcases nonempty with h | h
    · exact List.mem_append_left _ (brace_mem hp h)
    · exact List.mem_append_right _ (List.mem_append_right _ (brace_mem hq h))
  have inserted : normal (p ++ (d.text ++ q)) ≠ [] := by
    rw [normal, d.withoutNoise_text quietp quietq]
    exact trim_collapse_ne_nil (brace _) (by decide)
  have plain : normal (p ++ q) ≠ [] := by
    rw [normal_quiet (quietp.append quietq)]
    exact trim_collapse_ne_nil (brace []) (by decide)
  rw [analyse_of_ne_nil inserted, analyse_of_ne_nil plain, Except.ok.injEq]

/-- An enum that takes a block without entries has no values, so it is not seen. -/
theorem modelOf_of_unseen (hp : Spaced (before.flatMap (·.words)) p)
    (hq : Spaced (after.flatMap (·.words)) q) (d : BodilessText b q) (unseen : b.Unseen after) :
    modelOf (String.ofList (normal (p ++ (d.text ++ q)))) =
      modelOf (String.ofList (normal (p ++ q))) := by
  by_cases leaves : b.LeavesAlone after
  · have same := (definitionsIn_insert_iff hp hq d).mpr leaves
    exact modelOf_congr (same .object) (same .input)
      (by rw [enumsIn_eq, enumsIn_eq, same .enum])
  · cases after with
    | nil => exact absurd (fun _ _ _ _ hw => by cases hw) leaves
    | cons w ws =>
      obtain ⟨c, front, behind, hc, found⟩ := insert_between hp hq d
      have emptyEnum : ∃ n, b.form = .definition .enum n ∧ w.block.innerWords = [] := by
        apply Classical.byContradiction
        intro none
        refine leaves fun kind n hform w' hw => ?_
        cases hw
        rcases unseen kind n hform w rfl with alone | ⟨rfl, entries⟩
        · exact alone
        · exact absurd ⟨n, hform, entries⟩ none
      obtain ⟨n, hform, entries⟩ := emptyEnum
      have passed : ∀ kind, kind ≠ .enum →
          definitionsIn kind (String.ofList (normal (p ++ (d.text ++ q)))) =
            definitionsIn kind (String.ofList (normal (p ++ q))) := by
        intro kind hkind
        rw [(found kind).1, (found kind).2, definitionBehind_passed]
        intro m hm
        rw [hform] at hm
        cases hm
        exact hkind rfl
      have hidden : ∀ name, enumOf? ⟨name, c.body⟩ = none := by
        intro name
        simp [enumOf?, (valuesIn_body hc).mpr entries]
      refine modelOf_congr (passed .object (by decide)) (passed .input (by decide)) ?_
      rw [enumsIn_eq, enumsIn_eq, (found .enum).1, (found .enum).2, definitionBehind_taken hform,
        definitionBehind_headWords]
      split
      · simp [hidden]
      · simp [hidden]

/-- What is seen of the next block tells whether it is left alone. -/
theorem unseen_of_modelOf (hp : Spaced (before.flatMap (·.words)) p)
    (hq : Spaced (after.flatMap (·.words)) q) (d : BodilessText b q)
    (ordinary : ∀ n, b.form = .definition .object n → n.text ∉ reservedTypeNames)
    (same : modelOf (String.ofList (normal (p ++ (d.text ++ q)))) =
      modelOf (String.ofList (normal (p ++ q)))) : b.Unseen after := by
  obtain ⟨objects, inputs, enums⟩ := definitions_of_modelOf same
  intro kind n hform w hw
  cases after with
  | nil => cases hw
  | cons w' ws =>
    cases hw
    obtain ⟨c, front, behind, hc, found⟩ := insert_between hp hq d
    cases kind with
    | object =>
      rw [objectsIn_eq, objectsIn_eq, (found .object).1, (found .object).2,
        definitionBehind_taken hform] at objects
      refine .inl (left_of_filterMap_eq ObjectType.name ?_ ?_ objects)
      · intro d x hx
        unfold objectOf? at hx
        split at hx
        · cases hx
        · rw [← Option.some.inj hx]
      · simpa [objectOf?] using ordinary n hform
    | input =>
      rw [inputsIn_eq, inputsIn_eq, (found .input).1, (found .input).2,
        definitionBehind_taken hform] at inputs
      refine .inl (left_of_filterMap_eq InputType.name ?_ ?_ inputs)
      · intro d x hx
        rw [← Option.some.inj hx]
      · simp [inputOf?]
    | enum =>
      by_cases entries : w.block.innerWords = []
      · exact .inr ⟨rfl, entries⟩
      rw [enumsIn_eq, enumsIn_eq, (found .enum).1, (found .enum).2,
        definitionBehind_taken hform] at enums
      refine .inl (left_of_filterMap_eq EnumType.name ?_ ?_ enums)
      · intro d x hx
        unfold enumOf? at hx
        split at hx
        · cases hx
        · rw [← Option.some.inj hx]
      · simpa [enumOf?] using fun h => entries ((valuesIn_body hc).mp h)

/-- Behind the blocks, and in front of a block that is left alone, a definition without a body
changes nothing. In front of any other block it changes the definitions, and where they can be told
apart also the model. -/
theorem analyse_insert_bodiless (hp : Spaced (before.flatMap (·.words)) p)
    (hq : Spaced (after.flatMap (·.words)) q) (nonempty : before ≠ [] ∨ after ≠ [])
    (d : BodilessText b q) :
    ((∀ kind, definitionsIn kind (String.ofList (normal (p ++ (d.text ++ q)))) =
      definitionsIn kind (String.ofList (normal (p ++ q)))) ↔ b.LeavesAlone after) ∧
    (b.LeavesAlone after →
      analyse (String.ofList (p ++ (d.text ++ q))) = analyse (String.ofList (p ++ q))) ∧
    ((∀ n, b.form = .definition .object n → n.text ∉ reservedTypeNames) →
      (analyse (String.ofList (p ++ (d.text ++ q))) = analyse (String.ofList (p ++ q)) ↔
        b.Unseen after)) := by
  have unseen : b.LeavesAlone after → b.Unseen after :=
    fun leaves kind n hform w hw => .inl (leaves kind n hform w hw)
  refine ⟨definitionsIn_insert_iff hp hq d, fun leaves => ?_, fun ordinary => ?_⟩
  · exact (analyse_insert_iff hp hq nonempty d).mpr (modelOf_of_unseen hp hq d (unseen leaves))
  · rw [analyse_insert_iff hp hq nonempty d]
    exact ⟨unseen_of_modelOf hp hq d ordinary, modelOf_of_unseen hp hq d⟩

/-- `type User { id: ID }`. -/
def userBlock : WrittenBlock where
  extended := false
  block := .object ⟨"User".toList, by decide⟩
    [⟨⟨"id".toList, by decide⟩, .named ⟨"ID".toList, by decide⟩ false⟩] (by decide)

def userText : List Char :=
  userBlock.words.flatMap ([' '] ++ ·)

/-- `type Marker`. -/
def marker : Bodiless where
  extended := false
  form := .definition .object ⟨"Marker".toList, by decide⟩
  plain := by
    intro n hn kind
    rw [List.mem_singleton.mp hn]
    cases kind <;> decide

/-- The marker with a directive. -/
def markerText : BodilessText marker userText where
  letters := "type Marker ".toList ++
    '@' :: ("internal".toList ++ '(' :: ("since: 2".toList ++ [')']))
  core := "type Marker ".toList ++ []
  gap := []
  bare := .quiet_append (by unfold Quiet; decide)
    (.arguments ⟨by decide, by decide⟩ (by decide) .nil)
  spaced := .word (g := []) Gap.nil (fun _ _ _ => Stops.cons (by decide))
    (.word (g := [' ']) (by decide) (fun _ _ _ => Stops.cons (by decide)) (.gap (by decide)))
  isGap := Gap.nil
  apart := Stops.cons (by decide)

theorem analyse_insert_bodiless_marker :
    Spaced ([userBlock].flatMap (·.words)) userText ∧
      analyse (String.ofList ([] ++ (markerText.text ++ userText))) ≠
        analyse (String.ofList ([] ++ userText)) := by
  have user : Spaced ([userBlock].flatMap (·.words)) userText := by
    rw [List.flatMap_singleton]
    exact Spaced.flatMap (by decide) (by simp) userBlock.words
  have start : Spaced (([] : List WrittenBlock).flatMap (·.words)) [] := .gap Gap.nil
  have exact' := analyse_insert_bodiless start user (.inr (by simp)) markerText
  refine ⟨user, fun same => ?_⟩
  have ordinary : ∀ n, marker.form = .definition .object n → n.text ∉ reservedTypeNames := by
    rintro n h
    cases h
    decide
  rcases (exact'.2.2 ordinary).mp same .object _ rfl userBlock rfl with ⟨-, name⟩ | ⟨kind, -⟩
  · exact absurd (congrArg SchemaName.letters name) (by decide)
  · cases kind

end Results

end SchemaClient.Source
