import SchemaClient.Proofs.Operation.DocumentWords
import SchemaClient.Proofs.Source.WellFormed
import SchemaClient.Proofs.Text.LetterCase

/-!
# Documents can be read back

A reader finds in a document, of either layout, the kind and the name of the operation, the field,
its arguments with their types and the selection. What stands outside parentheses has the form of a
selection with one node, the operation, and the field as the one node in that; so nodes are read by
one machine, which keeps the fields whose blocks are still open.
-/

namespace SchemaClient

open Source Text

/-- What a document says. -/
structure DocumentContent where
  kind : OperationKind
  operationName : String
  field : String
  /-- Names and types, the types as the schema writes them. -/
  args : List (String × String)
  selection : Option (List SelectionNode)

def Operation.content (op : Operation) : DocumentContent where
  kind := op.kind
  operationName := op.operationName
  field := op.name
  args := op.args.map fun a => (a.name, a.type.raw)
  selection := op.selection

namespace DocumentContent

/-! ## The words of a text -/

/-- Punctuation of documents. -/
def marks : List Char := ['(', ')', ':', ',', '$', '\x7b', '\x7d']

/-- A word of a document. -/
def IsLexeme (w : List Char) : Prop :=
  IsTypeWord w ∨ ∃ c ∈ marks, w = [c]

/-- The longest runs of characters of types, and every other character that is no blank. -/
def lexemes : List Char → List (List Char)
  | [] => []
  | c :: cs =>
    if isBlank c then lexemes cs
    else if isTypeChar c && (cs.head?.map isTypeChar).getD false then
      match lexemes cs with
      | [] => [[c]]
      | w :: ws => (c :: w) :: ws
    else [c] :: lexemes cs

section Lexemes

variable {ws : List (List Char)} {cs g w : List Char} {c : Char}

theorem lexemes_gap (hg : Gap g) (cs : List Char) : lexemes (g ++ cs) = lexemes cs := by
  induction g with
  | nil => rfl
  | cons c g ih =>
    rw [List.cons_append, lexemes, if_pos hg.head]
    exact ih hg.tail

theorem lexemes_mark (hc : c ∈ marks) (cs : List Char) : lexemes (c :: cs) = [c] :: lexemes cs := by
  have table : ∀ c ∈ marks, isBlank c = false ∧ isTypeChar c = false := by decide
  obtain ⟨blank, type⟩ := table c hc
  simp [lexemes, blank, type]

theorem lexemes_word (hw : IsTypeWord w) (stops : Stops isTypeChar cs) :
    lexemes (w ++ cs) = w :: lexemes cs := by
  obtain ⟨nonempty, all⟩ := hw
  induction w with
  | nil => exact absurd rfl nonempty
  | cons c w ih =>
    have hc := all c List.mem_cons_self
    rw [List.cons_append, lexemes, if_neg (by simp [isBlank_of_isTypeChar hc])]
    cases w with
    | nil =>
      have last : (cs.head?.map isTypeChar).getD false = false := by
        cases cs with
        | nil => rfl
        | cons d cs => exact stops.head
      simp [last]
    | cons d w =>
      have hd := all d (List.mem_cons_of_mem _ List.mem_cons_self)
      rw [ih (by simp) fun x hx => all x (List.mem_cons_of_mem _ hx)]
      simp [hc, hd]

theorem lexemes_spaced (h : Spaced ws cs) (hws : ∀ w ∈ ws, IsLexeme w) : lexemes cs = ws := by
  induction h with
  | gap hg =>
    have := lexemes_gap hg []
    rwa [List.append_nil] at this
  | @word g w ws cs hg apart hrest ih =>
    rw [List.append_assoc, lexemes_gap hg]
    have rest := ih fun v hv => hws v (List.mem_cons_of_mem _ hv)
    rcases hws w List.mem_cons_self with hw | ⟨c, hc, rfl⟩
    · have stops := apart _ (List.getLast?_eq_some_getLast hw.1) (hw.2 _ (List.getLast_mem hw.1))
      rw [lexemes_word hw stops, rest]
    · rw [List.singleton_append, lexemes_mark hc, rest]

end Lexemes

/-! ## Nodes -/

structure Reading where
  /-- The nodes read so far of the innermost open block, the last one first. -/
  nodes : List SelectionNode
  /-- The fields whose blocks are open, each with the nodes before it. -/
  opened : List (String × List SelectionNode)

def readWord (r : Reading) (w : List Char) : Option Reading :=
  if w = ['\x7b'] then
    match r.nodes with
    | .leaf name :: before => some ⟨[], (name, before) :: r.opened⟩
    | _ => none
  else if w = ['\x7d'] then
    match r.opened with
    | (name, before) :: opened => some ⟨.object name r.nodes.reverse :: before, opened⟩
    | [] => none
  else some ⟨.leaf (String.ofList w) :: r.nodes, r.opened⟩

def readNodes (ws : List (List Char)) : Option (List SelectionNode) := do
  let r ← ws.foldlM readWord ⟨[], []⟩
  if r.opened.isEmpty then some r.nodes.reverse else none

end DocumentContent

/-- Every field of a node has a word for its name. -/
inductive SelectionNode.Named : SelectionNode → Prop
  | leaf {name : String} : IsWord name.toList → Named (.leaf name)
  | object {name : String} {children : List SelectionNode} : IsWord name.toList →
      (∀ n ∈ children, Named n) → Named (.object name children)

namespace DocumentContent

section Nodes

variable {n : SelectionNode} {ns : List SelectionNode} {w : List Char}

theorem isTypeWord_of_isWord (h : IsWord w) : IsTypeWord w :=
  ⟨h.1, fun c hc => isTypeChar_of_isNameChar (h.2 c hc)⟩

theorem ne_mark_of_isTypeWord (h : IsTypeWord w) : ∀ c ∈ marks, w ≠ [c] := by
  rintro c hc rfl
  have table : ∀ c ∈ marks, isTypeChar c = false := by decide
  have := h.2 c (List.mem_singleton_self c)
  rw [table c hc] at this
  cases this

theorem readWord_name (h : IsWord w) (r : Reading) :
    readWord r w = some ⟨.leaf (String.ofList w) :: r.nodes, r.opened⟩ := by
  have other := ne_mark_of_isTypeWord (isTypeWord_of_isWord h)
  rw [readWord, if_neg (other _ (by decide)), if_neg (other _ (by decide))]

theorem readWord_opening (name : String) (before : List SelectionNode)
    (opened : List (String × List SelectionNode)) :
    readWord ⟨.leaf name :: before, opened⟩ ['\x7b'] = some ⟨[], (name, before) :: opened⟩ :=
  rfl

theorem readWord_closing (name : String) (nodes before : List SelectionNode)
    (opened : List (String × List SelectionNode)) :
    readWord ⟨nodes, (name, before) :: opened⟩ ['\x7d'] =
      some ⟨.object name nodes.reverse :: before, opened⟩ :=
  rfl

/-- The words of nodes that are read one by one are read one after the other. -/
theorem foldlM_nodesWords
    (h : ∀ n ∈ ns, ∀ r : Reading,
      (Selection.nodeWords n).foldlM readWord r = some ⟨n :: r.nodes, r.opened⟩)
    (r : Reading) :
    (Selection.nodesWords ns).foldlM readWord r = some ⟨ns.reverse ++ r.nodes, r.opened⟩ := by
  induction ns generalizing r with
  | nil => rfl
  | cons n ns ih =>
    have rest := ih (fun k hk => h k (List.mem_cons_of_mem _ hk)) ⟨n :: r.nodes, r.opened⟩
    rw [Selection.nodesWords, List.foldlM_append, h n List.mem_cons_self, Option.bind_eq_bind,
      Option.bind_some, rest, List.reverse_cons, List.append_assoc, List.singleton_append]

theorem foldlM_nodeWords (h : n.Named) (r : Reading) :
    (Selection.nodeWords n).foldlM readWord r = some ⟨n :: r.nodes, r.opened⟩ := by
  induction h generalizing r with
  | leaf hname => simp [Selection.nodeWords, readWord_name hname]
  | @object name children hname _ ih =>
    have block := foldlM_nodesWords ih ⟨[], (name, r.nodes) :: r.opened⟩
    simp [Selection.nodeWords, readWord_name hname, readWord_opening, readWord_closing, block]

theorem readNodes_nodesWords (h : ∀ n ∈ ns, n.Named) :
    readNodes (Selection.nodesWords ns) = some ns := by
  rw [readNodes, foldlM_nodesWords fun n hn => foldlM_nodeWords (h n hn)]
  simp

end Nodes

/-! ## Arguments -/

/-- The words outside parentheses. -/
def outside : (inside : Bool) → List (List Char) → List (List Char)
  | _, [] => []
  | inside, w :: ws =>
    if w = ['('] then outside true ws
    else if w = [')'] then outside false ws
    else if inside then outside true ws
    else w :: outside false ws

/-- The names and types of arguments, each of them three words and a comma or the parenthesis. -/
def readArguments : List (List Char) → List (String × String)
  | name :: _ :: type :: mark :: ws =>
    (String.ofList name, String.ofList type) :: if mark = [','] then readArguments ws else []
  | _ => []

def readSignature : List (List Char) → List (String × String)
  | ['('] :: ws => readArguments ws
  | _ => []

/-- The content of a document as its words tell it. -/
def ofWords? : List (List Char) → Option DocumentContent
  | kind :: rest => do
    let kind ← OperationKind.ofName? (String.ofList kind)
    match ← readNodes (outside false rest) with
    | [.object name [.leaf field]] => some ⟨kind, name, field, readSignature rest.tail, none⟩
    | [.object name [.object field children]] =>
      some ⟨kind, name, field, readSignature rest.tail, some children⟩
    | _ => none
  | [] => none

def read? (text : String) : Option DocumentContent :=
  ofWords? (lexemes text.toList)

/-- A word of a document that is no parenthesis. -/
structure Plain (w : List Char) : Prop where
  lexeme : IsLexeme w
  opening : w ≠ ['(']
  closing : w ≠ [')']

section Plain

variable {w : List Char} {a : Field} {n : SelectionNode} {parts : List (List (List Char))}

theorem plain_typeWord (h : IsTypeWord w) : Plain w :=
  ⟨.inl h, ne_mark_of_isTypeWord h _ (by decide), ne_mark_of_isTypeWord h _ (by decide)⟩

theorem plain_word (h : IsWord w) : Plain w :=
  plain_typeWord (isTypeWord_of_isWord h)

theorem plain_mark {c : Char} (h : c ∈ marks) (other : c ∉ ['(', ')']) : Plain [c] := by
  rw [List.mem_pair, not_or] at other
  exact ⟨.inr ⟨c, h, rfl⟩, by simpa using other.1, by simpa using other.2⟩

theorem plain_typedWords (h : a.WellFormed) : ∀ w ∈ typedWords a, Plain w := by
  rw [typedWords, List.forall_mem_cons, List.forall_mem_cons, List.forall_mem_singleton]
  exact ⟨plain_word h.name, plain_mark (by decide) (by decide), plain_typeWord h.type⟩

theorem plain_boundWords (h : a.WellFormed) : ∀ w ∈ boundWords a, Plain w := by
  rw [boundWords, List.forall_mem_cons, List.forall_mem_cons, List.forall_mem_cons,
    List.forall_mem_singleton]
  exact ⟨plain_word h.name, plain_mark (by decide) (by decide), plain_mark (by decide) (by decide),
    plain_word h.name⟩

/-- What holds of commas and of the words of all parts. -/
theorem forall_mem_intercalate {P : List Char → Prop} (comma : P [','])
    (h : ∀ part ∈ parts, ∀ w ∈ part, P w) : ∀ w ∈ [[',']].intercalate parts, P w := by
  induction parts with
  | nil => exact List.forall_mem_nil _
  | cons part parts ih =>
    have head := h part List.mem_cons_self
    have rest := ih fun part hpart => h part (List.mem_cons_of_mem _ hpart)
    cases parts with
    | nil => simpa using head
    | cons _ _ =>
      rw [List.intercalate_cons_cons, List.forall_mem_append, List.forall_mem_append,
        List.forall_mem_singleton]
      exact ⟨⟨head, comma⟩, rest⟩

theorem plain_intercalate (h : ∀ part ∈ parts, ∀ w ∈ part, Plain w) :
    ∀ w ∈ [[',']].intercalate parts, Plain w :=
  forall_mem_intercalate (plain_mark (by decide) (by decide)) h

/-- What holds of braces and of all names. -/
theorem forall_mem_nodeWords {P : List Char → Prop} (opening : P ['\x7b']) (closing : P ['\x7d'])
    (name : ∀ w, IsWord w → P w) (h : n.Named) : ∀ w ∈ Selection.nodeWords n, P w := by
  induction h with
  | leaf hname => exact List.forall_mem_singleton.mpr (name _ hname)
  | @object _ children hname _ ih =>
    have inner : ∀ w ∈ Selection.nodesWords children, P w := by
      intro w hw
      rw [Selection.nodesWords_eq_flatMap] at hw
      obtain ⟨n, hn, hw⟩ := List.mem_flatMap.mp hw
      exact ih n hn w hw
    rw [Selection.nodeWords, List.forall_mem_cons, List.forall_mem_cons, List.forall_mem_append,
      List.forall_mem_singleton]
    exact ⟨name _ hname, opening, inner, closing⟩

theorem plain_nodeWords (h : n.Named) : ∀ w ∈ Selection.nodeWords n, Plain w :=
  forall_mem_nodeWords (plain_mark (by decide) (by decide)) (plain_mark (by decide) (by decide))
    (fun _ => plain_word) h

end Plain

section Arguments

variable {ws : List (List Char)} {w : List Char} {parts : List (List (List Char))}
  {args : List Field}

theorem isLexeme_callWords (h : ∀ part ∈ parts, ∀ w ∈ part, Plain w) :
    ∀ w ∈ callWords parts, IsLexeme w := by
  rw [callWords]
  split
  · exact List.forall_mem_nil _
  · rw [List.forall_mem_cons, List.forall_mem_append, List.forall_mem_singleton]
    exact ⟨.inr ⟨_, by decide, rfl⟩, fun w hw => (plain_intercalate h w hw).lexeme,
      .inr ⟨_, by decide, rfl⟩⟩

theorem outside_cons (h : Plain w) (ws : List (List Char)) :
    outside false (w :: ws) = w :: outside false ws := by
  rw [outside, if_neg h.opening, if_neg h.closing, if_neg (by simp)]

theorem outside_eq_self (h : ∀ w ∈ ws, Plain w) : outside false ws = ws := by
  induction ws with
  | nil => rfl
  | cons w ws ih =>
    rw [outside_cons (h w List.mem_cons_self), ih fun v hv => h v (List.mem_cons_of_mem _ hv)]

/-- Words inside parentheses are passed over up to the parenthesis that closes them. -/
theorem outside_closing (h : ∀ w ∈ ws, Plain w) (vs : List (List Char)) :
    outside true (ws ++ [')'] :: vs) = outside false vs := by
  induction ws with
  | nil => rfl
  | cons w ws ih =>
    have hw := h w List.mem_cons_self
    rw [List.cons_append, outside, if_neg hw.opening, if_neg hw.closing, if_pos rfl]
    exact ih fun v hv => h v (List.mem_cons_of_mem _ hv)

theorem outside_callWords (h : ∀ part ∈ parts, ∀ w ∈ part, Plain w) (vs : List (List Char)) :
    outside false (callWords parts ++ vs) = outside false vs := by
  rw [callWords]
  split
  · rfl
  · rw [List.cons_append, outside, if_pos rfl, List.append_assoc, List.singleton_append]
    exact outside_closing (plain_intercalate h) vs

theorem readArguments_intercalate (nonempty : args ≠ []) (vs : List (List Char)) :
    readArguments ([[',']].intercalate (args.map typedWords) ++ [')'] :: vs) =
      args.map fun a => (a.name, a.type.raw) := by
  induction args with
  | nil => exact absurd rfl nonempty
  | cons a args ih =>
    cases args with
    | nil => simp [typedWords, readArguments]
    | cons b args =>
      have rest := ih (List.cons_ne_nil _ _)
      rw [List.map_cons] at rest
      rw [List.map_cons, List.map_cons, List.intercalate_cons_cons, List.append_assoc, typedWords]
      simp only [List.cons_append, List.nil_append, readArguments, if_pos, rest,
        String.ofList_toList, List.map_cons]

theorem readSignature_typed (args : List Field) (vs : List (List Char)) :
    readSignature (callWords (args.map typedWords) ++ ['\x7b'] :: vs) =
      args.map fun a => (a.name, a.type.raw) := by
  rw [callWords, List.isEmpty_map]
  cases args with
  | nil => rfl
  | cons a args =>
    have read := readArguments_intercalate (List.cons_ne_nil a args) (['\x7b'] :: vs)
    simpa [readSignature] using read

end Arguments

end DocumentContent

/-! ## Documents -/

/-- The names and types in an operation are words. -/
structure Operation.Named (op : Operation) : Prop where
  operationName : IsWord op.operationName.toList
  name : IsWord op.name.toList
  args : ∀ a ∈ op.args, a.WellFormed
  selection : ∀ ns, op.selection = some ns → ∀ n ∈ ns, n.Named

/-- The operation as a node of a selection: what its document says outside parentheses. -/
def Operation.rootNode (op : Operation) : SelectionNode :=
  .object op.operationName [match op.selection with
    | none => .leaf op.name
    | some ns => .object op.name ns]

namespace DocumentContent

section Documents

variable {op : Operation}

theorem nodeWords_rootNode (op : Operation) : Selection.nodeWords op.rootNode =
    op.operationName.toList :: ['\x7b'] :: op.name.toList ::
      (Selection.blockWords op.selection ++ [['\x7d']]) := by
  rw [Operation.rootNode]
  cases op.selection with
  | none => rfl
  | some ns => simp [Selection.nodeWords, Selection.nodesWords, Selection.blockWords]

theorem named_rootNode (h : op.Named) : op.rootNode.Named := by
  refine .object h.operationName (List.forall_mem_singleton.mpr ?_)
  have selection := h.selection
  split
  · exact .leaf h.name
  · rename_i ns hns
    exact .object h.name (selection ns hns)

theorem plain_args (h : op.Named) {words : Field → List (List Char)}
    (hwords : ∀ {a : Field}, a.WellFormed → ∀ w ∈ words a, Plain w) :
    ∀ part ∈ op.args.map words, ∀ w ∈ part, Plain w := by
  intro part hpart
  obtain ⟨a, ha, rfl⟩ := List.mem_map.mp hpart
  exact hwords (h.args a ha)

theorem isLexeme_words (h : op.Named) : ∀ w ∈ op.words, IsLexeme w := by
  have kind : IsWord op.kind.name.toList := by
    cases op.kind <;> exact ⟨by decide, by decide⟩
  have root := plain_nodeWords (named_rootNode h)
  rw [nodeWords_rootNode, List.forall_mem_cons, List.forall_mem_cons, List.forall_mem_cons] at root
  obtain ⟨operationName, opening, name, rest⟩ := root
  rw [Operation.words, List.forall_mem_cons, List.forall_mem_cons, List.forall_mem_append,
    List.forall_mem_cons, List.forall_mem_cons, List.forall_mem_append]
  exact ⟨(plain_word kind).lexeme, operationName.lexeme,
    isLexeme_callWords (plain_args h plain_typedWords), opening.lexeme, name.lexeme,
    isLexeme_callWords (plain_args h plain_boundWords), fun w hw => (rest w hw).lexeme⟩

theorem outside_words (h : op.Named) :
    outside false op.words.tail = Selection.nodesWords [op.rootNode] := by
  have root := plain_nodeWords (named_rootNode h)
  rw [nodeWords_rootNode, List.forall_mem_cons, List.forall_mem_cons, List.forall_mem_cons] at root
  obtain ⟨operationName, opening, name, rest⟩ := root
  rw [Operation.words, List.tail_cons, outside_cons operationName,
    outside_callWords (plain_args h plain_typedWords), outside_cons opening, outside_cons name,
    outside_callWords (plain_args h plain_boundWords), outside_eq_self rest,
    Selection.nodesWords, nodeWords_rootNode, Selection.nodesWords, List.append_nil]

theorem read?_document (h : op.Named) : read? op.document = some op.content := by
  have nodes := readNodes_nodesWords (List.forall_mem_singleton.mpr (named_rootNode h))
  rw [← outside_words h] at nodes
  have kind : OperationKind.ofName? op.kind.name = some op.kind := by
    cases op.kind <;> rfl
  have signature := readSignature_typed op.args (op.name.toList ::
    (callWords (op.args.map boundWords) ++ (Selection.blockWords op.selection ++ [['\x7d']])))
  rw [read?, lexemes_spaced op.document_spaced (isLexeme_words h)]
  rw [Operation.words, List.tail_cons] at nodes
  simp only [Operation.words, ofWords?, String.ofList_toList, kind, nodes, List.tail_cons,
    signature]
  rw [Operation.rootNode, Operation.content]
  cases op.selection with
  | none => rfl
  | some ns => rfl

end Documents

end DocumentContent

/-! ## Operations of analysed schemas -/

section Analysed

variable {m : SchemaModel} {f : OperationField}

theorem isWord_upperFirst {s : String} (h : IsWord s.toList) : IsWord (upperFirst s).toList := by
  obtain ⟨nonempty, all⟩ := h
  obtain ⟨c, cs, hs⟩ := List.exists_cons_of_ne_nil nonempty
  rw [hs, List.forall_mem_cons] at all
  rw [upperFirst, hs]
  simp only [String.toList_ofList, upperChar_of_isNameChar all.1]
  exact ⟨List.cons_ne_nil _ _, List.forall_mem_cons.mpr ⟨isNameChar_toUpper all.1, all.2⟩⟩

theorem named_nodes (built : m.Built) (wellFormed : m.WellFormed) (levels : Nat)
    (above : List String) (type : String) :
    ∀ n ∈ Selection.nodes m levels above type, n.Named := by
  induction levels generalizing above type with
  | zero => exact List.forall_mem_nil _
  | succ levels ih =>
    rw [Selection.nodes]
    split
    · exact List.forall_mem_nil _
    · intro n hn
      obtain ⟨g, hg, rfl⟩ := List.mem_map.mp hn
      have name : IsWord g.name.toList := by
        cases known : m.fieldsOf? type with
        | none =>
          rw [known] at hg
          cases hg
        | some fields =>
          rw [known] at hg
          exact (wellFormed.fieldsOf? built known g hg).name
      split
      · exact .object name (ih _ _)
      · exact .leaf name

theorem Operation.named_of (built : m.Built) (wellFormed : m.WellFormed) (hf : f.WellFormed)
    (style : SelectionStyle) (kind : OperationKind) : (Operation.of m style kind f).Named where
  operationName := isWord_upperFirst hf.name
  name := hf.name
  args := hf.args
  selection ns hns := by
    rw [Operation.of] at hns
    split at hns
    · cases hns
      exact named_nodes built wellFormed _ _ _
    · cases hns

theorem named_of_analyse {text : String} (h : analyse text = .ok m)
    (hf : f ∈ m.queryFields ++ m.mutationFields) (style : SelectionStyle) (kind : OperationKind) :
    (Operation.of m style kind f).Named := by
  have wellFormed := wellFormed_of_analyse h
  refine Operation.named_of (SchemaModel.built_of_analyse h) wellFormed ?_ style kind
  rcases List.mem_append.mp hf with hf | hf
  · exact wellFormed.operations .query f hf
  · exact wellFormed.operations .mutation f hf

/-- A document tells everything about its operation, whatever its layout. So documents that are the
same text, of any two schemas, are documents of the same operation. -/
theorem document_determines_content {text text' : String} {m m' : SchemaModel}
    (h : analyse text = .ok m) (h' : analyse text' = .ok m') (style style' : SelectionStyle)
    (kind kind' : OperationKind) {f f' : OperationField}
    (hf : f ∈ m.queryFields ++ m.mutationFields) (hf' : f' ∈ m'.queryFields ++ m'.mutationFields) :
    let op := Operation.of m style kind f
    let op' := Operation.of m' style' kind' f'
    DocumentContent.read? op.document = some op.content ∧
    (op.document = op'.document →
      op.kind = op'.kind ∧ op.operationName = op'.operationName ∧ op.name = op'.name ∧
        op.args.map (fun a => (a.name, a.type.raw)) = op'.args.map (fun a => (a.name, a.type.raw)) ∧
        op.selection = op'.selection) := by
  intro op op'
  have read : DocumentContent.read? op.document = some op.content :=
    DocumentContent.read?_document (named_of_analyse h hf style kind)
  have read' : DocumentContent.read? op'.document = some op'.content :=
    DocumentContent.read?_document (named_of_analyse h' hf' style' kind')
  refine ⟨read, fun same => ?_⟩
  rw [same, read', Option.some.injEq] at read
  obtain ⟨kind, operationName, field, args, selection⟩ := DocumentContent.mk.inj read
  exact ⟨kind.symm, operationName.symm, field.symm, args.symm, selection.symm⟩

def userField (returns : String) : OperationField :=
  ⟨"user", [.of "id" "ID!"], .parse returns⟩

def userModel (enums : List EnumType) (returns : String) : SchemaModel :=
  .of [⟨"User", [.of "id" "ID!"]⟩] [] enums [userField returns] []

/-- The document does not tell one user from a list of users. -/
theorem document_determines_content_user :
    let m := userModel [] "User"
    let m' := userModel [⟨"Role", ["ADMIN"]⟩] "[User]"
    let op := Operation.of m .indented .query (userField "User")
    let op' := Operation.of m' .indented .query (userField "[User]")
    analyse "type User { id: ID! } type Query { user(id: ID!): User }" = .ok m ∧
    analyse "enum Role { ADMIN } type User { id: ID! } type Query { user(id: ID!): [User] }" =
      .ok m' ∧
    op.document = op'.document ∧ DocumentContent.read? op.document = some op.content ∧
      op.selection = op'.selection := by
  have h : analyse "type User { id: ID! } type Query { user(id: ID!): User }" =
      .ok (userModel [] "User") := by rfl
  have h' : analyse
      "enum Role { ADMIN } type User { id: ID! } type Query { user(id: ID!): [User] }" =
      .ok (userModel [⟨"Role", ["ADMIN"]⟩] "[User]") := by rfl
  have same : (Operation.of (userModel [] "User") .indented .query (userField "User")).document =
      (Operation.of (userModel [⟨"Role", ["ADMIN"]⟩] "[User]") .indented .query
        (userField "[User]")).document := by rfl
  obtain ⟨read, determined⟩ := document_determines_content h h' .indented .indented .query .query
    (List.mem_append_left _ List.mem_cons_self) (List.mem_append_left _ List.mem_cons_self)
  exact ⟨h, h', same, read, (determined same).2.2.2.2⟩

end Analysed

end SchemaClient
