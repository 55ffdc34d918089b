import SchemaClient.Proofs.Operation.DocumentWords
import SchemaClient.Proofs.Text.LetterCase

/-!
# Layouts with the same words

The indented layout of a selection is the inline one with other gaps: where one has a gap, the
other has one too, but for the indentation of the first line. A document is such a layout of a
single node, so that the same holds of documents.
-/

namespace SchemaClient

open Text Source

namespace Source

variable {a b c g g' cs : List Char}

/-- Two texts that differ in the length of gaps only, whatever follows them. -/
def Respaced (a b : List Char) : Prop :=
  ∀ inRun cs, collapseFrom inRun (a ++ cs) = collapseFrom inRun (b ++ cs)

theorem collapseFrom_append_congr (h : ∀ inRun, collapseFrom inRun b = collapseFrom inRun c)
    (a : List Char) (inRun : Bool) : collapseFrom inRun (a ++ b) = collapseFrom inRun (a ++ c) := by
  induction a generalizing inRun with
  | nil => exact h inRun
  | cons x a ih => simp only [List.cons_append, collapseFrom, ih]

namespace Respaced

theorem refl (a : List Char) : Respaced a a :=
  fun _ _ => rfl

theorem append {a' b' : List Char} (h : Respaced a b) (h' : Respaced a' b') :
    Respaced (a ++ a') (b ++ b') := by
  intro inRun cs
  rw [List.append_assoc, List.append_assoc, h]
  exact collapseFrom_append_congr (fun inRun => h' inRun cs) b inRun

theorem gap (hg : Gap g) (hg' : Gap g') (nonempty : g ≠ []) (nonempty' : g' ≠ []) :
    Respaced g g' := by
  have short : ∀ {g}, Gap g → g ≠ [] → Respaced g [' '] := by
    intro g hg nonempty inRun cs
    obtain ⟨c, g, rfl⟩ := List.exists_cons_of_ne_nil nonempty
    have space : isBlank ' ' = true := by decide
    rw [List.cons_append, List.singleton_append, collapseFrom, collapseFrom, if_pos hg.head,
      if_pos space, collapseFrom_gap hg.tail]
  intro inRun cs
  rw [short hg nonempty, short hg' nonempty']

theorem collapse (h : Respaced a b) : Source.collapse a = Source.collapse b := by
  simpa [Source.collapse] using h false []

end Respaced

end Source

namespace Selection

open SelectionNode

/-! ## Indented and inline -/

/-- Lines with a line break in front of each. -/
def broken (lines : List (List Char)) : List Char :=
  lines.flatMap ('\n' :: ·)

@[simp] theorem broken_nil : broken [] = [] :=
  rfl

@[simp] theorem broken_cons (line : List Char) (lines : List (List Char)) :
    broken (line :: lines) = '\n' :: (line ++ broken lines) :=
  rfl

@[simp] theorem broken_append (lines lines' : List (List Char)) :
    broken (lines ++ lines') = broken lines ++ broken lines' :=
  List.flatMap_append

theorem intercalate_eq_broken (line : List Char) (lines : List (List Char)) :
    ['\n'].intercalate (line :: lines) = line ++ broken lines := by
  induction lines generalizing line with
  | nil => simp
  | cons line' lines ih =>
    rw [List.intercalate_cons_cons, ih]
    simp

theorem broken_eq_intercalate {lines : List (List Char)} (h : lines ≠ []) :
    broken lines = '\n' :: ['\n'].intercalate lines := by
  obtain ⟨line, lines, rfl⟩ := List.exists_cons_of_ne_nil h
  rw [broken_cons, intercalate_eq_broken]

theorem inlineNodes_false (n : SelectionNode) (ns : List SelectionNode) :
    inlineNodes false (n :: ns) = ' ' :: inlineNodes true (n :: ns) := by
  simp [inlineNodes]

theorem gap_line (level : Nat) : Gap ('\n' :: indent level) := by
  rw [← List.singleton_append]
  exact Gap.append (by decide) (gap_indent level)

theorem nodeLines_ne_nil (level : Nat) (n : SelectionNode) : nodeLines level n ≠ [] := by
  unfold nodeLines
  split
  · exact List.cons_ne_nil _ _
  · exact List.cons_ne_nil _ _
  · exact List.cons_ne_nil _ _

theorem nodesLines_ne_nil (level : Nat) (n : SelectionNode) (ns : List SelectionNode) :
    nodesLines level (n :: ns) ≠ [] :=
  List.append_ne_nil_of_left_ne_nil (nodeLines_ne_nil level n) _

/-- A gap in front of a text, as long as a new line or one space. -/
theorem respaced_line (level : Nat) {a b : List Char} (h : Respaced a b) :
    Respaced ('\n' :: indent level ++ a) (' ' :: b) :=
  (Respaced.gap (gap_line level) gap_space (by simp) (by simp)).append h

mutual

theorem respaced_node (level : Nat) : (n : SelectionNode) →
    ∃ cs, broken (nodeLines level n) = '\n' :: indent level ++ cs ∧ Respaced cs (inlineNode n)
  | .leaf name => ⟨name.toList, by simp [nodeLines, broken], .refl _⟩
  | .object name [] => ⟨name.toList ++ [' ', '\x7b', '\x7d'], by simp [nodeLines, broken], .refl _⟩
  | .object name (child :: children) => by
    refine ⟨name.toList ++ ([' ', '\x7b'] ++ (broken (nodesLines (level + 1) (child :: children)) ++
      ('\n' :: indent level ++ ['\x7d']))), by simp [nodeLines], ?_⟩
    have inner := respaced_nodes (level + 1) (child :: children)
    rw [inlineNodes_false] at inner
    have closing := respaced_line level (.refl ['\x7d'])
    rw [inlineNode]
    · have := (Respaced.refl name.toList).append ((Respaced.refl [' ', '\x7b']).append
        (inner.append closing))
      simpa using this
    · exact List.cons_ne_nil _ _

theorem respaced_nodes (level : Nat) : (ns : List SelectionNode) →
    Respaced (broken (nodesLines level ns)) (inlineNodes false ns)
  | [] => .refl []
  | n :: ns => by
    obtain ⟨cs, hcs, respaced⟩ := respaced_node level n
    have := (respaced_line level respaced).append (respaced_nodes level ns)
    rw [nodesLines, broken_append, hcs, inlineNodes]
    simpa using this

end

/-- Only the first line keeps its indentation. -/
theorem respaced_render (level : Nat) (ns : List SelectionNode) :
    Respaced (render .indented level ns)
      ((if ns.isEmpty then [] else indent level) ++ render .inline level ns) := by
  cases ns with
  | nil => exact .refl []
  | cons n ns =>
    obtain ⟨cs, hcs, respaced⟩ := respaced_node level n
    have text : ['\n'].intercalate (nodesLines level (n :: ns)) =
        indent level ++ (cs ++ broken (nodesLines level ns)) := by
      rw [← List.cons_inj_right, ← broken_eq_intercalate (nodesLines_ne_nil level n ns),
        nodesLines, broken_append, hcs]
      simp
    have := (Respaced.refl (indent level)).append (respaced.append (respaced_nodes level ns))
    simpa [render, text, inlineNodes] using this

theorem respaced_block (level : Nat) (ns : List SelectionNode) :
    Respaced (block .indented level ns) (block .inline level ns) := by
  cases ns with
  | nil => exact .refl _
  | cons n ns =>
    have inner := respaced_nodes (level + 1) (n :: ns)
    rw [inlineNodes_false, broken_eq_intercalate (nodesLines_ne_nil (level + 1) n ns)] at inner
    have closing := respaced_line level (.refl ['\x7d'])
    have := (Respaced.refl [' ', '\x7b']).append (inner.append closing)
    simpa [block, render] using this

end Selection

namespace Operation

open Selection

/-- The operation as a node with one child, its field. -/
def root (op : Operation) : SelectionNode :=
  .object (op.kind.name ++ " " ++ op.operationName ++ argsSignature op.args)
    [match op.selection with
      | none => .leaf (op.name ++ argsPass op.args)
      | some ns => .object (op.name ++ argsPass op.args) ns]

theorem document_eq_render (op : Operation) :
    op.document.toList = render op.style 0 [op.root] := by
  rw [document, head, selectionBlock, tail, root]
  cases op.style with
  | inline =>
    rcases op.selection with _ | _ | ⟨n, ns⟩
    · simp [render, inlineNodes, inlineNode]
    · simp [render, inlineNodes, inlineNode, block]
    · simp [render, inlineNodes, inlineNode, block]
  | indented =>
    rcases op.selection with _ | _ | ⟨n, ns⟩
    · simp [render, nodesLines, nodeLines, indent]
    · simp [render, nodesLines, nodeLines, block, indent]
    · have inner : ∀ cs, '\n' :: (['\n'].intercalate (nodeLines 2 n ++ nodesLines 2 ns) ++ cs) =
          broken (nodeLines 2 n) ++ (broken (nodesLines 2 ns) ++ cs) := by
        intro cs
        rw [← List.append_assoc, ← broken_append, ← List.cons_append]
        exact congrArg (· ++ cs) (broken_eq_intercalate (nodesLines_ne_nil 2 n ns)).symm
      simp [render, nodesLines, nodeLines, block, indent, intercalate_eq_broken, inner]

end Operation

/-! ## Texts that are collapsed already -/

namespace Source

variable {w cs : List Char} {c : Char}

/-- Collapsing leaves a text as it is, even behind a blank. -/
def Settled (cs : List Char) : Prop :=
  ∀ inRun, collapseFrom inRun cs = cs

/-- A text that a gap may follow. -/
def Firm (w : List Char) : Prop :=
  ∀ cs, collapse cs = cs → Settled (w ++ cs)

theorem Settled.cons (hc : isBlank c = false) (h : collapse cs = cs) : Settled (c :: cs) := by
  intro inRun
  rw [collapseFrom_solid inRun hc, h]

theorem Settled.collapse_eq (h : Settled cs) : collapse cs = cs :=
  h false

theorem Settled.space (h : Settled cs) : collapse (' ' :: cs) = ' ' :: cs := by
  have space : isBlank ' ' = true := by decide
  rw [collapse, collapseFrom, if_pos space, if_neg (by simp), h true]

theorem Settled.append (hw : ∀ c ∈ w, isBlank c = false) (h : Settled cs) : Settled (w ++ cs) := by
  cases w with
  | nil => exact h
  | cons c w =>
    rw [List.forall_mem_cons] at hw
    rw [List.cons_append]
    exact .cons hw.1 ((collapse_solid_append hw.2 cs).trans (congrArg (w ++ ·) (h false)))

theorem firm_of_solid (hw : Solid w) : Firm w := by
  intro cs h
  obtain ⟨c, w, rfl⟩ := List.exists_cons_of_ne_nil hw.1
  have blankless := List.forall_mem_cons.mp hw.2
  rw [List.cons_append]
  exact .cons blankless.1 ((collapse_solid_append blankless.2 cs).trans (congrArg (w ++ ·) h))

/-- Two words with a space between them. -/
theorem Firm.space {v : List Char} (hv : Solid v) (hw : Firm w) : Firm (v ++ ' ' :: w) := by
  intro cs h
  rw [List.append_assoc, List.cons_append]
  exact firm_of_solid hv _ (hw cs h).space

/-- A text that may follow a word and precede a gap. -/
def Trails (w : List Char) : Prop :=
  ∀ cs, collapse cs = cs → collapse (w ++ cs) = w ++ cs

theorem Firm.trails {v w : List Char} (hv : Firm v) (hw : Trails w) : Firm (v ++ w) := by
  intro cs hcs
  rw [List.append_assoc]
  exact hv _ (hw cs hcs)

theorem collapse_of_firm {w : List Char} (h : Firm w) : collapse w = w := by
  have := (h [] rfl).collapse_eq
  rwa [List.append_nil] at this

end Source

namespace Selection

mutual

/-- The names in a selection. -/
def nodeNames : SelectionNode → List String
  | .leaf name => [name]
  | .object name children => name :: nodesNames children

def nodesNames : List SelectionNode → List String
  | [] => []
  | n :: ns => nodeNames n ++ nodesNames ns

end

theorem firm_nodes {n : SelectionNode} {ns : List SelectionNode} (hn : Firm (inlineNode n))
    (hns : Trails (inlineNodes false ns)) : Firm (inlineNodes true (n :: ns)) := by
  intro cs hcs
  simpa [inlineNodes] using hn _ (hns cs hcs)

theorem trails_empty_braces : Trails [' ', '\x7b', '\x7d'] := by
  intro cs hcs
  have closing : Settled ('\x7d' :: cs) := .cons (by decide) hcs
  have opening : Settled ('\x7b' :: '\x7d' :: cs) := .cons (by decide) (closing false)
  exact opening.space

theorem trails_braces {w : List Char} (hw : Firm w) :
    Trails ([' ', '\x7b', ' '] ++ w ++ [' ', '\x7d']) := by
  intro cs hcs
  have closing : Settled ('\x7d' :: cs) := .cons (by decide) hcs
  have opening : Settled ('\x7b' :: ' ' :: (w ++ ' ' :: '\x7d' :: cs)) :=
    .cons (by decide) (hw _ closing.space).space
  simpa using opening.space

mutual

theorem firm_inlineNode : (n : SelectionNode) → (∀ name ∈ nodeNames n, Firm name.toList) →
    Firm (inlineNode n)
  | .leaf name, h => h name (by simp [nodeNames])
  | .object name [], h => Firm.trails (h name (by simp [nodeNames])) trails_empty_braces
  | .object name (child :: children), h => by
    rw [nodeNames, nodesNames, List.forall_mem_cons, List.forall_mem_append] at h
    have inner := firm_nodes (firm_inlineNode child h.2.1) (trails_inlineNodes children h.2.2)
    have := Firm.trails h.1 (trails_braces inner)
    rw [inlineNode]
    · simpa using this
    · exact List.cons_ne_nil _ _

theorem trails_inlineNodes : (ns : List SelectionNode) →
    (∀ name ∈ nodesNames ns, Firm name.toList) → Trails (inlineNodes false ns)
  | [], _ => fun _ hcs => hcs
  | n :: ns, h => by
    intro cs hcs
    rw [nodesNames, List.forall_mem_append] at h
    have nodes := firm_nodes (firm_inlineNode n h.1) (trails_inlineNodes ns h.2)
    rw [inlineNodes_false]
    exact (nodes cs hcs).space

end

/-- The inline layouts are collapsed already if the names are. -/
theorem collapse_inline {ns : List SelectionNode} (h : ∀ name ∈ nodesNames ns, Firm name.toList)
    (level : Nat) :
    collapse (render .inline level ns) = render .inline level ns ∧
      collapse (block .inline level ns) = block .inline level ns := by
  cases ns with
  | nil => exact ⟨rfl, trails_empty_braces [] rfl⟩
  | cons n ns =>
    rw [nodesNames, List.forall_mem_append] at h
    have nodes := firm_nodes (firm_inlineNode n h.1) (trails_inlineNodes ns h.2)
    refine ⟨collapse_of_firm nodes, ?_⟩
    simpa [block, render] using trails_braces nodes [] rfl

end Selection

/-! ### Documents -/

theorem settled_listed {parts : List String} {cs : List Char}
    (h : ∀ part ∈ parts, ∀ cs, Settled cs → Settled (part.toList ++ cs)) (hcs : Settled cs) :
    Settled ([',', ' '].intercalate (parts.map String.toList) ++ cs) := by
  induction parts with
  | nil => exact hcs
  | cons part parts ih =>
    rw [List.forall_mem_cons] at h
    cases parts with
    | nil => simpa using h.1 _ hcs
    | cons part' parts =>
      have later := ih h.2
      have := h.1 _ (Settled.cons (c := ',') (by decide) later.space)
      simpa [List.intercalate_cons_cons] using this

theorem trails_parenthesised {parts : List String}
    (h : ∀ part ∈ parts, ∀ cs, Settled cs → Settled (part.toList ++ cs)) :
    Trails (parenthesised parts).toList := by
  intro cs hcs
  rw [parenthesised]
  split
  · exact hcs
  · have inner := settled_listed h (Settled.cons (c := ')') (by decide) hcs)
    have opening := Settled.cons (c := '(') (by decide) (inner false)
    simpa [String.toList_intercalate] using opening.collapse_eq

namespace Operation

open Selection

/-- The field names in a document. -/
def names (op : Operation) : List String :=
  op.name :: (op.selection.map nodesNames).getD []

/-- Names and types that are made of these characters, with no field without a name. -/
structure Over (p : Char → Bool) (op : Operation) : Prop where
  names : ∀ name ∈ op.names, name ≠ "" ∧ ∀ c ∈ name.toList, p c = true
  args : ∀ a ∈ op.args, ∀ c ∈ a.name.toList ++ a.type.raw.toList, p c = true

theorem nodesNames_root (op : Operation) : nodesNames [op.root] =
    (op.kind.name ++ " " ++ op.operationName ++ argsSignature op.args) ::
      (op.name ++ argsPass op.args) :: (op.selection.map nodesNames).getD [] := by
  rw [root]
  cases op.selection with
  | none => rfl
  | some ns => simp [nodesNames, nodeNames]

section

variable {op : Operation} {p : Char → Bool}

theorem trails_argsSignature (hop : op.Over p) (blankless : ∀ c, p c = true → isBlank c = false) :
    Trails (argsSignature op.args).toList := by
  refine trails_parenthesised fun part hpart cs hcs => ?_
  obtain ⟨a, ha, rfl⟩ := List.mem_map.mp hpart
  have chars := List.forall_mem_append.mp (hop.args a ha)
  have type := Settled.append (fun c hc => blankless c (chars.2 c hc)) hcs
  have := Settled.append (fun c hc => blankless c (chars.1 c hc))
    (Settled.cons (c := ':') (by decide) type.space)
  simpa using this

theorem trails_argsPass (hop : op.Over p) (blankless : ∀ c, p c = true → isBlank c = false) :
    Trails (argsPass op.args).toList := by
  refine trails_parenthesised fun part hpart cs hcs => ?_
  obtain ⟨a, ha, rfl⟩ := List.mem_map.mp hpart
  have chars := List.forall_mem_append.mp (hop.args a ha)
  have name : ∀ {cs}, Settled cs → Settled (a.name.toList ++ cs) :=
    fun hcs => .append (fun c hc => blankless c (chars.1 c hc)) hcs
  have dollar := Settled.cons (c := '$') (by decide) (name hcs false)
  simpa using name (Settled.cons (c := ':') (by decide) dollar.space)

theorem solid_operationName (hop : op.Over p) (blankless : ∀ c, p c = true → isBlank c = false) :
    Solid op.operationName.toList := by
  obtain ⟨nonempty, chars⟩ := hop.names op.name List.mem_cons_self
  rw [operationName, upperFirst]
  cases hname : op.name.toList with
  | nil => exact absurd (String.toList_eq_nil_iff.mp hname) nonempty
  | cons c cs =>
    rw [hname, List.forall_mem_cons] at chars
    dsimp only
    rw [String.toList_ofList]
    refine ⟨by simp [upperChar_ne_nil], List.forall_mem_append.mpr
      ⟨fun d hd => isBlank_eq_false_iff.mpr fun r hr => ?_, fun c hc => blankless c (chars.2 c hc)⟩⟩
    exact upperChar_outside (by simp [hr]) (isBlank_eq_false_iff.mp (blankless c chars.1) r hr) d hd

theorem firm_root (hop : op.Over p) (blankless : ∀ c, p c = true → isBlank c = false) :
    ∀ name ∈ nodesNames [op.root], Firm name.toList := by
  have solid : ∀ name ∈ op.names, Solid name.toList := fun name hname =>
    ⟨by simpa using (hop.names name hname).1,
      fun c hc => blankless c ((hop.names name hname).2 c hc)⟩
  have solid_kind : Solid op.kind.name.toList := by
    cases op.kind with
    | query => exact ⟨by decide, by decide⟩
    | mutation => exact ⟨by decide, by decide⟩
  rw [nodesNames_root, List.forall_mem_cons, List.forall_mem_cons]
  refine ⟨?_, ?_, fun name hname => firm_of_solid (solid name (List.mem_cons_of_mem _ hname))⟩
  · have := Firm.trails (Firm.space solid_kind (firm_of_solid (solid_operationName hop blankless)))
      (trails_argsSignature hop blankless)
    simpa using this
  · have := Firm.trails (firm_of_solid (solid op.name List.mem_cons_self))
      (trails_argsPass hop blankless)
    simpa using this

end

end Operation

end SchemaClient
