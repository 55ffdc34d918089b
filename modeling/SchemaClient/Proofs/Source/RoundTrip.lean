import Mathlib.Data.List.Forall2
import SchemaClient.Proofs.Source.BlockText
import SchemaClient.Proofs.Source.EntryScan
import SchemaClient.Proofs.Source.Noise

/-!
# Analysis reads back what the grammar writes

A document of the practical grammar is found again in every text that spaces its words: each block
with its name and its entries, in order. A name is never taken for a keyword, because no header
starts inside a body and in front of a body the first keyword is the one of the block.
-/

namespace SchemaClient.Source

open Text

section Layout

variable {cs : List Char} {ws : List WrittenBlock} {w : WrittenBlock} {b : BlockText}

/-- The written block is what this part of a text shows. -/
structure WrittenBlock.StandsIn (w : WrittenBlock) (b : BlockText) : Prop where
  announces : b.Announces w.headWords
  inner : Spaced w.block.innerWords b.inner

theorem WrittenBlock.headWords_isWord (w : WrittenBlock) : ∀ v ∈ w.headWords, IsWord v := by
  intro v hv
  rw [headWords, List.mem_append] at hv
  rcases hv with hv | hv
  · split at hv
    · rw [List.mem_singleton.mp hv]
      exact isWord_extend
    · cases hv
  · simp only [List.mem_cons, List.not_mem_nil, or_false] at hv
    rcases hv with rfl | rfl
    · exact isWord_keyword _
    · exact w.block.name.isWord

theorem braceless_of_spaced {words : List (List Char)} (h : Spaced words cs)
    (entries : ∀ v ∈ words, IsEntryWord v) : Braceless cs :=
  h.chars (fun _ => isBrace_of_isBlank)
    fun v hv c hc => isBrace_of_isEntryChar ((entries v hv).2 c hc)

/-- A text that begins with the words of a block, cut at the braces. -/
theorem spaced_block {words : List (List Char)} (h : Spaced (w.words ++ words) cs) :
    ∃ b rest, cs = b.head ++ '\x7b' :: (b.inner ++ '\x7d' :: rest) ∧ w.StandsIn b ∧
      Spaced words rest := by
  have h : Spaced (w.headWords ++ ['\x7b'] :: (w.block.innerWords ++ ['\x7d'] :: words)) cs := by
    simpa [WrittenBlock.words] using h
  obtain ⟨head, behind, rfl, hhead, -, hbehind⟩ := h.split
  obtain ⟨inner, rest, rfl, hinner, -, hrest⟩ := hbehind.split
  refine ⟨⟨head, inner⟩, rest, by simp, ⟨⟨hhead, ?_, ?_⟩, hinner⟩, hrest⟩
  · exact fun v hv => .inl (w.headWords_isWord v hv)
  · exact braceless_of_spaced hinner w.block.isEntryWord

theorem spaced_blocks (h : Spaced (ws.flatMap (·.words)) cs) :
    ∃ bs tail, cs = joined bs tail ∧ Gap tail ∧ List.Forall₂ WrittenBlock.StandsIn ws bs := by
  induction ws generalizing cs with
  | nil =>
    cases h with
    | gap hg => exact ⟨[], _, rfl, hg, .nil⟩
  | cons w ws ih =>
    rw [List.flatMap_cons] at h
    obtain ⟨b, rest, rfl, hb, hrest⟩ := spaced_block h
    obtain ⟨bs, tail, rfl, htail, hbs⟩ := ih hrest
    exact ⟨b :: bs, tail, rfl, htail, .cons hb hbs⟩

theorem clean_of_standsIn {bs : List BlockText} (h : List.Forall₂ WrittenBlock.StandsIn ws bs) :
    ∀ b ∈ bs, b.Clean := by
  induction h with
  | nil => simp
  | cons hb _ ih =>
    intro b hmem
    rcases List.mem_cons.mp hmem with rfl | hmem
    · exact ⟨_, hb.announces⟩
    · exact ih b hmem

theorem filterMap_standsIn {α : Type} {bs : List BlockText} {f : BlockText → Option α}
    {g : WrittenBlock → Option α} (h : List.Forall₂ WrittenBlock.StandsIn ws bs)
    (agree : ∀ w b, WrittenBlock.StandsIn w b → f b = g w) : bs.filterMap f = ws.filterMap g := by
  induction h with
  | nil => rfl
  | cons hb _ ih => rw [List.filterMap_cons, List.filterMap_cons, agree _ _ hb, ih]

end Layout

section Definitions

variable {w : WrittenBlock} {b : BlockText} {kind : DefinitionKind}

theorem keyword_injective {k l : DefinitionKind} (h : k.keyword.toList = l.keyword.toList) :
    k = l := by
  revert h
  cases k <;> cases l <;> decide

theorem announced_headWords (w : WrittenBlock) (kind : DefinitionKind) :
    announced kind.keyword.toList w.headWords =
      if w.block.kind = kind then some w.block.name.letters else none := by
  have plain : announced kind.keyword.toList
      [w.block.kind.keyword.toList, w.block.name.letters] =
        if w.block.kind = kind then some w.block.name.letters else none := by
    split
    · rename_i hkind
      rw [hkind]
      exact announced_keyword w.block.name.isName []
    · rename_i hkind
      rw [announced_cons_of_ne fun h => hkind (keyword_injective h)]
      rfl
  rw [WrittenBlock.headWords]
  split
  · rw [List.singleton_append, announced_cons_of_ne (extend_ne_keyword kind), plain]
  · exact plain

theorem definition?_standsIn (h : w.StandsIn b) (kind : DefinitionKind) :
    b.definition? kind = if w.block.kind = kind then
      some ⟨w.block.name.text, b.body⟩ else none := by
  rw [BlockText.definition?, h.announces.name?, announced_headWords]
  split
  · rfl
  · rfl

/-- The body keeps its words in the normal form. -/
theorem WrittenBlock.StandsIn.body (h : w.StandsIn b) :
    Spaced w.block.innerWords b.body.toList := by
  have solid : ∀ v ∈ w.block.innerWords, Solid v := fun v hv =>
    ⟨(w.block.isEntryWord v hv).1, fun c hc =>
      isBlank_of_isEntryChar ((w.block.isEntryWord v hv).2 c hc)⟩
  rw [BlockText.body, String.toList_ofList]
  exact (h.inner.collapse solid).trim solid

end Definitions

section Models

variable {text : String} {ws : List WrittenBlock} {bs : List BlockText}

theorem objectsIn_standsIn
    (found : definitionsIn .object text = bs.filterMap (·.definition? .object))
    (h : List.Forall₂ WrittenBlock.StandsIn ws bs) :
    objectsIn text = ws.filterMap (·.block.object?) := by
  rw [objectsIn, found, List.filter_filterMap, List.map_filterMap]
  refine filterMap_standsIn h ?_
  rintro ⟨extended, block⟩ b hb
  have body := hb.body
  rw [definition?_standsIn hb]
  cases block with
  | object n fields ordinary =>
    simp [Block.kind, Block.name, Block.object?, ordinary, fieldsIn_spaced body]
  | input n fields => rfl
  | enum n v vs => rfl
  | root kind os => cases kind <;> rfl
  | subscription os => rfl

theorem inputsIn_standsIn (found : definitionsIn .input text = bs.filterMap (·.definition? .input))
    (h : List.Forall₂ WrittenBlock.StandsIn ws bs) :
    inputsIn text = ws.filterMap (·.block.input?) := by
  rw [inputsIn, found, List.map_filterMap]
  refine filterMap_standsIn h ?_
  rintro ⟨extended, block⟩ b hb
  have body := hb.body
  rw [definition?_standsIn hb]
  cases block with
  | input n fields => simp [Block.kind, Block.name, Block.input?, fieldsIn_spaced body]
  | object n fields ordinary => rfl
  | enum n v vs => rfl
  | root kind os => rfl
  | subscription os => rfl

theorem enumsIn_standsIn (found : definitionsIn .enum text = bs.filterMap (·.definition? .enum))
    (h : List.Forall₂ WrittenBlock.StandsIn ws bs) :
    enumsIn text = ws.filterMap (·.block.enum?) := by
  rw [enumsIn, found, List.map_filterMap, List.filter_filterMap]
  refine filterMap_standsIn h ?_
  rintro ⟨extended, block⟩ b hb
  have body := hb.body
  rw [definition?_standsIn hb]
  cases block with
  | enum n v vs =>
    have values : valuesIn b.body.toList = (v :: vs).map (·.text) :=
      valuesIn_spaced body
    simp only [Block.kind, Block.name, Block.enum?, if_true, Option.map_some, values]
    rfl
  | object n fields ordinary => rfl
  | input n fields => rfl
  | root kind os => rfl
  | subscription os => rfl

theorem rootFieldsIn_eq (kind : OperationKind) (text : String) :
    rootFieldsIn kind text =
      ((((definitionsIn .object text).filter (·.name = kind.rootType)).map
        fun d => operationsIn d.body.toList).head?).getD [] := by
  rw [rootFieldsIn, bodyOf?, List.head?_map, List.head?_filter]
  cases (definitionsIn .object text).find? (·.name = kind.rootType) with
  | none => rfl
  | some d => rfl

theorem name_eq_rootType {n : SchemaName} (ordinary : n.text ∉ reservedTypeNames)
    (kind : OperationKind) : n.text ≠ kind.rootType := by
  intro h
  rw [h] at ordinary
  cases kind <;> exact ordinary (by decide)

theorem rootFieldsIn_standsIn (kind : OperationKind)
    (found : definitionsIn .object text = bs.filterMap (·.definition? .object))
    (h : List.Forall₂ WrittenBlock.StandsIn ws bs)
    (single : (ws.filterMap (·.block.root? kind)).length ≤ 1) :
    rootFieldsIn kind text = (ws.filterMap (·.block.root? kind)).flatten := by
  have roots : ((definitionsIn .object text).filter (·.name = kind.rootType)).map
      (fun d => operationsIn d.body.toList) = ws.filterMap (·.block.root? kind) := by
    rw [found, List.filter_filterMap, List.map_filterMap]
    refine filterMap_standsIn h ?_
    rintro ⟨extended, block⟩ b hb
    have body := hb.body
    rw [definition?_standsIn hb]
    cases block with
    | root k os =>
      cases k <;> cases kind <;>
        simp [Block.kind, Block.name, Block.root?, SchemaName.text, OperationKind.rootType,
          operationsIn_spaced body]
    | object n fields ordinary =>
      simp [Block.kind, Block.name, Block.root?, name_eq_rootType ordinary kind]
    | input n fields => rfl
    | enum n v vs => rfl
    | subscription os => cases kind <;> rfl
  rw [rootFieldsIn_eq, roots]
  revert single
  cases ws.filterMap (·.block.root? kind) with
  | nil => exact fun _ => rfl
  | cons os rest =>
    cases rest with
    | nil => exact fun _ => by simp
    | cons os' rest =>
      intro single
      simp at single

end Models

section Documents

variable {text : List Char} {ws : List WrittenBlock} {bs : List BlockText} {tail : List Char}

theorem quiet_of_spaced (h : Spaced (ws.flatMap (·.words)) text) : Quiet text := by
  have entry : ∀ c, isEntryChar c = true → c ≠ '"' ∧ c ≠ '@' ∧ c ≠ '#' :=
    fun c hc => plain_of_apply hc (by decide)
  refine h.chars (fun c hc => plain_of_apply hc (by decide)) ?_
  intro v hv c hc
  obtain ⟨w, -, hv⟩ := List.mem_flatMap.mp hv
  simp only [WrittenBlock.words, List.mem_append, List.mem_cons, List.not_mem_nil, or_false] at hv
  rcases hv with hv | rfl | hv | rfl
  · exact plain_of_apply ((w.headWords_isWord v hv).2 c hc) (by decide)
  · rw [List.mem_singleton.mp hc]
    decide
  · exact entry c ((w.block.isEntryWord v hv).2 c hc)
  · rw [List.mem_singleton.mp hc]
    decide

theorem trim_joined_ne_nil (h : bs ≠ []) : trim (collapse (joined bs tail)) ≠ [] := by
  obtain ⟨b, bs, rfl⟩ := List.exists_cons_of_ne_nil h
  rw [collapse_joined, List.map_cons, trim_joined, joined]
  simp

/-- Analysing a document, however its words are spaced, gives exactly what the document says. -/
theorem analyse_written (d : Document) (h : Spaced d.words text) :
    analyse (String.ofList text) = .ok d.model := by
  obtain ⟨bs, tail, rfl, htail, hbs⟩ := spaced_blocks h
  have normalText : normal (joined bs tail) = trim (collapse (joined bs tail)) := by
    rw [normal, withoutNoise_of_quiet (quiet_of_spaced h)]
  have nonempty : normal (joined bs tail) ≠ [] := by
    rw [normalText]
    apply trim_joined_ne_nil
    intro hnil
    have hlen := hbs.length_eq
    rw [hnil] at hlen
    exact d.nonempty (List.eq_nil_of_length_eq_zero hlen)
  have found : ∀ kind, definitionsIn kind (String.ofList (normal (joined bs tail))) =
      bs.filterMap (·.definition? kind) := by
    intro kind
    rw [normalText]
    exact definitionsIn_normal kind (clean_of_standsIn hbs) fun c hc =>
      isBrace_of_isBlank (htail c hc)
  have model : modelOf (String.ofList (normal (joined bs tail))) = d.model := by
    rw [modelOf, objectsIn_standsIn (found .object) hbs, inputsIn_standsIn (found .input) hbs,
      enumsIn_standsIn (found .enum) hbs,
      rootFieldsIn_standsIn .query (found .object) hbs (d.single .query),
      rootFieldsIn_standsIn .mutation (found .object) hbs (d.single .mutation)]
    rfl
  rw [analyse_of_ne_nil nonempty, model]

/-- The keyword of a kind, as a name. -/
def keywordName (kind : DefinitionKind) : SchemaName :=
  ⟨kind.keyword.toList, by cases kind <;> decide⟩

def extendName : SchemaName :=
  ⟨extendWord, by decide⟩

/-- A document whose names are spelled like keywords. -/
def keywordDocument : Document where
  blocks := [
    ⟨true, .object (keywordName .object)
      [⟨keywordName .enum, .list (keywordName .input) true true⟩,
        ⟨extendName, .named extendName false⟩] (by decide)⟩,
    ⟨false, .enum extendName (keywordName .object) [keywordName .enum, extendName]⟩,
    ⟨false, .root .query
      [⟨keywordName .object,
        [⟨keywordName .input, .named extendName true⟩,
          ⟨keywordName .enum, .list (keywordName .object) false false⟩],
        .named (keywordName .enum) false⟩]⟩,
    ⟨true, .input (keywordName .input)
      [⟨keywordName .object, .named (keywordName .input) false⟩]⟩]
  nonempty := by simp
  single := by
    intro kind
    cases kind <;> decide

theorem analyse_written_keywords :
    Spaced keywordDocument.words (keywordDocument.words.flatMap ([' '] ++ ·)) ∧
      analyse (String.ofList (keywordDocument.words.flatMap ([' '] ++ ·))) =
        .ok keywordDocument.model := by
  have spaced := Spaced.flatMap (g := [' ']) (by decide) (by simp) keywordDocument.words
  exact ⟨spaced, analyse_written keywordDocument spaced⟩

end Documents

end SchemaClient.Source
