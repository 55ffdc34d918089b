import SchemaClient.Proofs.Operation.DocumentReader

/-!
# Variables of a document

A document binds a variable to each argument of its field. Read from the text, the words behind the
dollar signs are the names of the arguments, one for one; a dollar sign stands nowhere else.
-/

namespace SchemaClient

open Source

/-- The document in front of the variables that are bound. -/
def Operation.opening (op : Operation) : String :=
  op.kind.name ++ " " ++ op.operationName ++ argsSignature op.args
    ++ (match op.style with
      | .inline => " \x7b "
      | .indented => " \x7b\n    ")
    ++ op.name

namespace DocumentContent

/-- The words behind dollar signs. -/
def wordsBound : List (List Char) → List String
  | [] => []
  | w :: ws =>
    if w = ['$'] then (ws.head?.map String.ofList).toList ++ wordsBound ws else wordsBound ws

/-- The variables that a document names. -/
def boundVariables (text : String) : List String :=
  wordsBound (lexemes text.toList)

section Words

variable {ws vs : List (List Char)} {w : List Char} {op : Operation}

theorem ne_dollar (h : IsTypeWord w) : w ≠ ['$'] :=
  ne_mark_of_isTypeWord h _ (by decide)

theorem wordsBound_append (h : ∀ w ∈ ws, w ≠ ['$']) (vs : List (List Char)) :
    wordsBound (ws ++ vs) = wordsBound vs := by
  induction ws with
  | nil => rfl
  | cons w ws ih =>
    rw [List.cons_append, wordsBound, if_neg (h w List.mem_cons_self),
      ih fun v hv => h v (List.mem_cons_of_mem _ hv)]

theorem wordsBound_eq_nil (h : ∀ w ∈ ws, w ≠ ['$']) : wordsBound ws = [] := by
  have := wordsBound_append h []
  rwa [List.append_nil] at this

theorem wordsBound_boundWords {a : Field} (h : a.WellFormed) (vs : List (List Char)) :
    wordsBound (boundWords a ++ vs) = a.name :: wordsBound vs := by
  have name := ne_dollar (isTypeWord_of_isWord h.name)
  simp [boundWords, wordsBound, name]

theorem wordsBound_intercalate {args : List Field} (h : ∀ a ∈ args, a.WellFormed)
    (vs : List (List Char)) :
    wordsBound ([[',']].intercalate (args.map boundWords) ++ vs) =
      args.map Field.name ++ wordsBound vs := by
  induction args with
  | nil => rfl
  | cons a args ih =>
    have ha := h a List.mem_cons_self
    have rest := ih fun b hb => h b (List.mem_cons_of_mem _ hb)
    cases args with
    | nil => exact wordsBound_boundWords ha vs
    | cons b args =>
      rw [List.map_cons] at rest
      rw [List.map_cons, List.map_cons, List.intercalate_cons_cons, List.append_assoc,
        List.append_assoc, wordsBound_boundWords ha, wordsBound_append (by decide), rest]
      rfl

theorem wordsBound_callWords {args : List Field} (h : ∀ a ∈ args, a.WellFormed)
    (vs : List (List Char)) :
    wordsBound (callWords (args.map boundWords) ++ vs) = args.map Field.name ++ wordsBound vs := by
  rw [callWords]
  split
  · rename_i none
    rw [List.isEmpty_iff, List.map_eq_nil_iff] at none
    rw [none]
    rfl
  · rw [List.cons_append, wordsBound, if_neg (by decide), List.append_assoc,
      wordsBound_intercalate h, wordsBound_append (by decide)]

theorem wordsBound_words (h : op.Named) : wordsBound op.words = op.args.map Field.name := by
  have typed : ∀ part ∈ op.args.map typedWords, ∀ w ∈ part, w ≠ ['$'] := by
    rw [List.forall_mem_map]
    intro a ha
    have wellFormed := h.args a ha
    rw [typedWords, List.forall_mem_cons, List.forall_mem_cons, List.forall_mem_singleton]
    exact ⟨ne_dollar (isTypeWord_of_isWord wellFormed.name), by decide, ne_dollar wellFormed.type⟩
  have signature : ∀ w ∈ callWords (op.args.map typedWords), w ≠ ['$'] := by
    rw [callWords]
    split
    · exact List.forall_mem_nil _
    · rw [List.forall_mem_cons, List.forall_mem_append, List.forall_mem_singleton]
      exact ⟨by decide, forall_mem_intercalate (by decide) typed, by decide⟩
  have node : ∀ w ∈ Selection.nodeWords op.rootNode, w ≠ ['$'] :=
    forall_mem_nodeWords (by decide) (by decide) (fun _ hw => ne_dollar (isTypeWord_of_isWord hw))
      (named_rootNode h)
  rw [nodeWords_rootNode, List.forall_mem_cons, List.forall_mem_cons, List.forall_mem_cons] at node
  obtain ⟨operationName, opening, name, rest⟩ := node
  have kind : op.kind.name.toList ≠ ['$'] := by
    cases op.kind <;> decide
  rw [Operation.words, wordsBound, if_neg kind, wordsBound, if_neg operationName,
    wordsBound_append signature, wordsBound, if_neg opening, wordsBound, if_neg name,
    wordsBound_callWords h.args, wordsBound_eq_nil rest, List.append_nil]

theorem boundVariables_document (h : op.Named) :
    boundVariables op.document = op.args.map Field.name := by
  rw [boundVariables, lexemes_spaced op.document_spaced (isLexeme_words h), wordsBound_words h]

end Words

end DocumentContent

end SchemaClient
