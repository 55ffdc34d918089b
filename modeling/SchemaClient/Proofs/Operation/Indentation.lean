import SchemaClient.Proofs.Operation.Layouts

/-!
# Indentation by braces

Every line of the indented layout is indented by four spaces for each brace that is open before it,
and a closing brace by four less. Names are written as they are, so that this needs names that
neither begin with a space nor hold a brace or a line break. The two layouts of a document then have
the same words, and the braces decide the gaps.
-/

namespace SchemaClient

open Text Source

/-! ## Open braces -/

/-- Opening braces less closing ones. -/
def openBraces (cs : List Char) : Int :=
  (cs.count '\x7b' : Int) - cs.count '\x7d'

@[simp] theorem openBraces_append (a b : List Char) :
    openBraces (a ++ b) = openBraces a + openBraces b := by
  simp only [openBraces, List.count_append]
  omega

/-- What a line may hold that opens and closes nothing. -/
def InLine (c : Char) : Prop :=
  c ≠ '\n' ∧ c ≠ '\x7b' ∧ c ≠ '\x7d'

instance : DecidablePred InLine :=
  fun c => inferInstanceAs (Decidable (c ≠ '\n' ∧ c ≠ '\x7b' ∧ c ≠ '\x7d'))

theorem openBraces_inLine {cs : List Char} (h : ∀ c ∈ cs, InLine c) : openBraces cs = 0 := by
  have opening : cs.count '\x7b' = 0 := List.count_eq_zero.mpr fun hc => (h _ hc).2.1 rfl
  have closing : cs.count '\x7d' = 0 := List.count_eq_zero.mpr fun hc => (h _ hc).2.2 rfl
  simp [openBraces, opening, closing]

/-- Lines before the first of which `depth` braces are open: four spaces for each brace that is open
before a line, and four less if the line is a closing brace. -/
inductive IndentedFrom : Int → List (List Char) → Prop
  | nil {depth : Int} : IndentedFrom depth []
  | cons {depth : Int} {line : List Char} {lines : List (List Char)}
      (indentation : ((line.takeWhile (· = ' ')).length : Int) =
        4 * (depth - if line.dropWhile (· = ' ') = ['\x7d'] then 1 else 0))
      (later : IndentedFrom (depth + openBraces line) lines) : IndentedFrom depth (line :: lines)

section

variable {depth : Int} {line : List Char} {lines lines' : List (List Char)}

theorem indentedFrom_cons : IndentedFrom depth (line :: lines) ↔
    ((line.takeWhile (· = ' ')).length : Int) =
        4 * (depth - if line.dropWhile (· = ' ') = ['\x7d'] then 1 else 0) ∧
      IndentedFrom (depth + openBraces line) lines := by
  constructor
  · intro h
    cases h with
    | cons indentation later => exact ⟨indentation, later⟩
  · rintro ⟨indentation, later⟩
    exact .cons indentation later

instance decidableIndentedFrom :
    (depth : Int) → (lines : List (List Char)) → Decidable (IndentedFrom depth lines)
  | _, [] => isTrue .nil
  | depth, line :: lines =>
    have := decidableIndentedFrom (depth + openBraces line) lines
    decidable_of_iff' _ indentedFrom_cons

theorem indentedFrom_append : IndentedFrom depth (lines ++ lines') ↔
    IndentedFrom depth lines ∧ IndentedFrom (depth + openBraces lines.flatten) lines' := by
  induction lines generalizing depth with
  | nil => simp [IndentedFrom.nil, openBraces]
  | cons line lines ih =>
    simp [indentedFrom_cons, ih, and_assoc, Int.add_assoc]

end

/-- A text that can stand behind the indentation of a line. -/
structure Legible (w : List Char) : Prop where
  start : ∃ c cs, w = c :: cs ∧ c ≠ ' '
  inLine : ∀ c ∈ w, InLine c

theorem Legible.append {w cs : List Char} (hw : Legible w) (h : ∀ c ∈ cs, InLine c) :
    Legible (w ++ cs) where
  start := by
    obtain ⟨c, w, rfl, hc⟩ := hw.start
    exact ⟨c, w ++ cs, rfl, hc⟩
  inLine := List.forall_mem_append.mpr ⟨hw.inLine, h⟩

namespace Selection

theorem inLine_indent (level : Nat) : ∀ c ∈ indent level, InLine c := by
  intro c hc
  rw [List.eq_of_mem_replicate hc]
  decide

section

variable {level : Nat} {depth : Int} {lines lines' : List (List Char)} {w rest cs : List Char}
  {c : Char}

theorem openBraces_line (level : Nat) (cs : List Char) :
    openBraces (indent level ++ cs) = openBraces cs := by
  rw [openBraces_append, openBraces_inLine (inLine_indent level), Int.zero_add]

theorem unbroken_append (hw : ∀ c ∈ w, InLine c) (h : '\n' ∉ cs) : '\n' ∉ w ++ cs :=
  List.not_mem_append (fun hc => (hw _ hc).1 rfl) h

theorem indentedFrom_line (hc : c ≠ ' ') :
    IndentedFrom depth ((indent level ++ c :: cs) :: lines) ↔
      (level : Int) = depth - (if c :: cs = ['\x7d'] then 1 else 0) ∧
        IndentedFrom (depth + openBraces (c :: cs)) lines := by
  have spaces : ∀ c ∈ indent level, decide (c = ' ') = true :=
    fun c hc => decide_eq_true (List.eq_of_mem_replicate hc)
  have stops : Stops (fun c => decide (c = ' ')) (c :: cs) := .cons (decide_eq_false hc)
  have length : (indent level).length = 4 * level := List.length_replicate
  rw [indentedFrom_cons, takeWhile_run spaces stops, dropWhile_run spaces stops, openBraces_line,
    length]
  push_cast
  rw [Int.mul_eq_mul_left_iff (by decide)]

theorem indentedFrom_legible (hw : Legible w) :
    IndentedFrom level ((indent level ++ (w ++ rest)) :: lines) ↔
      IndentedFrom (level + openBraces rest) lines := by
  obtain ⟨c, cs, rfl, hc⟩ := hw.start
  have opening : c :: (cs ++ rest) ≠ ['\x7d'] := by
    intro h
    exact (hw.inLine c List.mem_cons_self).2.2 (List.cons.inj h).1
  rw [List.cons_append, indentedFrom_line hc, if_neg opening, Int.sub_zero, ← List.cons_append,
    openBraces_append, openBraces_inLine hw.inLine, Int.zero_add]
  simp

/-- Lines that stand at a level and close what they open. -/
structure Nested (level : Nat) (lines : List (List Char)) : Prop where
  indented : IndentedFrom level lines
  closed : openBraces lines.flatten = 0
  unbroken : ∀ line ∈ lines, '\n' ∉ line

namespace Nested

theorem nil (level : Nat) : Nested level [] :=
  ⟨.nil, rfl, by simp⟩

theorem append (h : Nested level lines) (h' : Nested level lines') :
    Nested level (lines ++ lines') where
  indented := by
    rw [indentedFrom_append, h.closed, Int.add_zero]
    exact ⟨h.indented, h'.indented⟩
  closed := by
    rw [List.flatten_append, openBraces_append, h.closed, h'.closed, Int.add_zero]
  unbroken := List.forall_mem_append.mpr ⟨h.unbroken, h'.unbroken⟩

theorem line (hw : Legible w) (closed : openBraces rest = 0) (unbroken : '\n' ∉ rest) :
    Nested level [indent level ++ (w ++ rest)] where
  indented := (indentedFrom_legible hw).mpr .nil
  closed := by
    rw [List.flatten_singleton, openBraces_line, openBraces_append, openBraces_inLine hw.inLine,
      closed, Int.add_zero]
  unbroken := by
    rw [List.forall_mem_singleton]
    exact unbroken_append (inLine_indent level) (unbroken_append hw.inLine unbroken)

/-- The lines between the braces are one level deeper, the closing brace is not. -/
theorem braced (hw : Legible w) (h : Nested (level + 1) lines) :
    Nested level
      ((indent level ++ (w ++ [' ', '\x7b'])) :: (lines ++ [indent level ++ ['\x7d']])) where
  indented := by
    have one : openBraces [' ', '\x7b'] = 1 := by decide
    have inner := h.indented
    push_cast at inner
    rw [indentedFrom_legible hw, one, indentedFrom_append, h.closed, indentedFrom_line (by decide)]
    exact ⟨inner, by simp, .nil⟩
  closed := by
    rw [List.flatten_cons, List.flatten_append, List.flatten_singleton, openBraces_append,
      openBraces_line, openBraces_append, openBraces_inLine hw.inLine, openBraces_append, h.closed,
      openBraces_line]
    decide
  unbroken := by
    have opening : '\n' ∉ w ++ [' ', '\x7b'] := unbroken_append hw.inLine (by decide)
    rw [List.forall_mem_cons, List.forall_mem_append, List.forall_mem_singleton]
    exact ⟨unbroken_append (inLine_indent level) opening, h.unbroken,
      unbroken_append (inLine_indent level) (by decide)⟩

end Nested

end

mutual

theorem nested_node (level : Nat) : (n : SelectionNode) →
    (∀ name ∈ nodeNames n, Legible name.toList) → Nested level (nodeLines level n)
  | .leaf name, h => by
    have text : Nested level [indent level ++ (name.toList ++ [])] :=
      .line (h name (by simp [nodeNames])) rfl (by simp)
    simpa [nodeLines] using text
  | .object name [], h => by
    have text : Nested level [indent level ++ (name.toList ++ [' ', '\x7b', '\x7d'])] :=
      .line (h name (by simp [nodeNames])) (by decide) (by decide)
    simpa [nodeLines] using text
  | .object name (child :: children), h => by
    rw [nodeNames, List.forall_mem_cons] at h
    have := Nested.braced h.1 (nested_nodes (level + 1) (child :: children) h.2)
    rw [nodeLines]
    · simpa using this
    · exact List.cons_ne_nil _ _

theorem nested_nodes (level : Nat) : (ns : List SelectionNode) →
    (∀ name ∈ nodesNames ns, Legible name.toList) → Nested level (nodesLines level ns)
  | [], _ => .nil level
  | n :: ns, h => by
    rw [nodesNames, List.forall_mem_append] at h
    exact (nested_node level n h.1).append (nested_nodes level ns h.2)

end

end Selection

/-! ## Documents -/

/-- Neither white space nor a brace. -/
def isPlain (c : Char) : Bool :=
  !isBlank c && c ≠ '\x7b' && c ≠ '\x7d'

section

variable {c : Char} {name : String}

theorem isPlain_iff : isPlain c = true ↔ isBlank c = false ∧ c ≠ '\x7b' ∧ c ≠ '\x7d' := by
  simp [isPlain, and_assoc]

theorem inLine_of_isPlain (h : isPlain c = true) : InLine c := by
  obtain ⟨blankless, braces⟩ := isPlain_iff.mp h
  exact ⟨(ne_of_apply (p := isBlank) (by decide) blankless).symm, braces⟩

theorem isPlain_iff_outside : isPlain c = true ↔
    ∀ r ∈ (0x7b, 0x7b) :: (0x7d, 0x7d) :: blankRanges, c.toNat < r.1 ∨ r.2 < c.toNat := by
  have apart : ∀ d : Char, c ≠ d ↔ c.toNat < d.toNat ∨ d.toNat < c.toNat := by
    intro d
    rw [ne_eq, ← Char.toNat_inj]
    omega
  rw [isPlain_iff, List.forall_mem_cons, List.forall_mem_cons, ← isBlank_eq_false_iff, apart, apart]
  exact and_rotate

theorem isPlain_upperFirst (h : ∀ c ∈ name.toList, isPlain c = true) :
    ∀ c ∈ (upperFirst name).toList, isPlain c = true := by
  rw [upperFirst]
  cases hname : name.toList with
  | nil => simp
  | cons c cs =>
    rw [hname, List.forall_mem_cons] at h
    dsimp only
    rw [String.toList_ofList, List.forall_mem_append]
    refine ⟨fun d hd => isPlain_iff_outside.mpr fun r hr => ?_, h.2⟩
    exact upperChar_outside hr (isPlain_iff_outside.mp h.1 r hr) d hd

end

theorem inLine_intercalate {sep : List Char} {parts : List (List Char)} (hsep : ∀ c ∈ sep, InLine c)
    (h : ∀ part ∈ parts, ∀ c ∈ part, InLine c) : ∀ c ∈ sep.intercalate parts, InLine c := by
  induction parts with
  | nil => simp
  | cons part parts ih =>
    rw [List.forall_mem_cons] at h
    cases parts with
    | nil => simpa using h.1
    | cons part' parts =>
      rw [List.intercalate_cons_cons, List.forall_mem_append, List.forall_mem_append]
      exact ⟨⟨h.1, hsep⟩, ih h.2⟩

theorem inLine_parenthesised {parts : List String}
    (h : ∀ part ∈ parts, ∀ c ∈ part.toList, InLine c) :
    ∀ c ∈ (parenthesised parts).toList, InLine c := by
  rw [parenthesised]
  split
  · simp
  · rw [String.toList_append, String.toList_append, String.toList_intercalate,
      List.forall_mem_append, List.forall_mem_append]
    exact ⟨⟨by decide, inLine_intercalate (by decide) (List.forall_mem_map.mpr h)⟩, by decide⟩

namespace Operation

open Selection

section

variable {op : Operation}

theorem legible_of_mem_names (hop : op.Over isPlain) {name : String} (hname : name ∈ op.names) :
    Legible name.toList := by
  obtain ⟨nonempty, plain⟩ := hop.names name hname
  refine ⟨?_, fun c hc => inLine_of_isPlain (plain c hc)⟩
  cases hcs : name.toList with
  | nil => exact absurd (String.toList_eq_nil_iff.mp hcs) nonempty
  | cons c cs =>
    have hc := isPlain_iff.mp (plain c (by rw [hcs]; exact List.mem_cons_self))
    exact ⟨c, cs, rfl, (ne_of_apply (p := isBlank) (by decide) hc.1).symm⟩

theorem inLine_args (hop : op.Over isPlain) {a : Field} (ha : a ∈ op.args) :
    (∀ c ∈ a.name.toList, InLine c) ∧ ∀ c ∈ a.type.raw.toList, InLine c :=
  List.forall_mem_append.mp fun c hc => inLine_of_isPlain (hop.args a ha c hc)

theorem inLine_argsSignature (hop : op.Over isPlain) :
    ∀ c ∈ (argsSignature op.args).toList, InLine c := by
  refine inLine_parenthesised fun part hpart => ?_
  obtain ⟨a, ha, rfl⟩ := List.mem_map.mp hpart
  obtain ⟨name, type⟩ := inLine_args hop ha
  rw [String.toList_append, String.toList_append, List.forall_mem_append, List.forall_mem_append]
  exact ⟨⟨name, by decide⟩, type⟩

theorem inLine_argsPass (hop : op.Over isPlain) :
    ∀ c ∈ (argsPass op.args).toList, InLine c := by
  refine inLine_parenthesised fun part hpart => ?_
  obtain ⟨a, ha, rfl⟩ := List.mem_map.mp hpart
  obtain ⟨name, -⟩ := inLine_args hop ha
  rw [String.toList_append, String.toList_append, List.forall_mem_append, List.forall_mem_append]
  exact ⟨⟨name, by decide⟩, name⟩

theorem legible_root (hop : op.Over isPlain) :
    ∀ name ∈ nodesNames [op.root], Legible name.toList := by
  have kind : Legible op.kind.name.toList := by
    cases op.kind with
    | query => exact ⟨⟨'q', _, rfl, by decide⟩, by decide⟩
    | mutation => exact ⟨⟨'m', _, rfl, by decide⟩, by decide⟩
  have operationName : ∀ c ∈ op.operationName.toList, InLine c := fun c hc =>
    inLine_of_isPlain (isPlain_upperFirst (hop.names op.name List.mem_cons_self).2 c hc)
  rw [nodesNames_root, List.forall_mem_cons, List.forall_mem_cons]
  refine ⟨?_, ?_, fun name hname => legible_of_mem_names hop (List.mem_cons_of_mem _ hname)⟩
  · rw [String.toList_append, String.toList_append, String.toList_append]
    exact ((kind.append (by decide)).append operationName).append (inLine_argsSignature hop)
  · rw [String.toList_append]
    exact (legible_of_mem_names hop List.mem_cons_self).append (inLine_argsPass hop)

/-- Only the layout of a document depends on the style. -/
theorem document_of (m : SchemaModel) (style : SelectionStyle) (kind : OperationKind)
    (f : OperationField) : (Operation.of m style kind f).document.toList =
      render style 0 [(Operation.of m .inline kind f).root] :=
  document_eq_render (.of m style kind f)

/-- The lines of an indented document. -/
theorem lines_document (indented : op.style = .indented) (hop : op.Over isPlain) :
    op.document.toList.splitOn '\n' = nodesLines 0 [op.root] := by
  have nested := nested_nodes 0 [op.root] (legible_root hop)
  rw [document_eq_render, indented, render,
    List.splitOn_intercalate '\n' nested.unbroken (nodesLines_ne_nil 0 op.root [])]

end

end Operation

/-- The two layouts of a selection have the same words and differ in gaps only, but for the
indentation of the first line, and so do the two documents of an operation. If every field has a
name and no name or type holds white space, the inline layout is what the indented one collapses to;
and if they hold no braces either, the braces that are open tell how far a line is indented. -/
theorem layouts_interchangeable (m : SchemaModel) (kind : OperationKind) (f : OperationField) :
    collapse (Operation.of m .indented kind f).document.toList =
        collapse (Operation.of m .inline kind f).document.toList ∧
      ((Operation.of m .inline kind f).Over (!isBlank ·) →
        collapse (Operation.of m .indented kind f).document.toList =
          (Operation.of m .inline kind f).document.toList) ∧
      ((Operation.of m .indented kind f).Over isPlain →
        IndentedFrom 0 ((Operation.of m .indented kind f).document.toList.splitOn '\n')) ∧
      ∀ level ns, collapse (Selection.block .indented level ns) =
          collapse (Selection.block .inline level ns) ∧
        collapse (Selection.render .indented level ns) =
          collapse ((if ns.isEmpty then [] else Selection.indent level) ++
            Selection.render .inline level ns) ∧
        ((∀ name ∈ Selection.nodesNames ns, Solid name.toList) →
          collapse (Selection.block .inline level ns) = Selection.block .inline level ns ∧
          collapse (Selection.render .inline level ns) = Selection.render .inline level ns) := by
  have same : collapse (Operation.of m .indented kind f).document.toList =
      collapse (Operation.of m .inline kind f).document.toList := by
    have := (Selection.respaced_render 0 [(Operation.of m .inline kind f).root]).collapse
    simpa [Operation.document_of, Selection.indent] using this
  refine ⟨same, fun hop => same.trans ?_, fun hop => ?_, fun level ns => ?_⟩
  · have firm := Operation.firm_root hop fun c hc => by simpa using hc
    rw [Operation.document_of]
    exact (Selection.collapse_inline firm 0).1
  · rw [Operation.lines_document rfl hop]
    exact (Selection.nested_nodes 0 _ (Operation.legible_root hop)).indented
  · refine ⟨(Selection.respaced_block level ns).collapse,
      (Selection.respaced_render level ns).collapse, fun solid => ?_⟩
    have firm : ∀ name ∈ Selection.nodesNames ns, Firm name.toList :=
      fun name hname => firm_of_solid (solid name hname)
    exact (Selection.collapse_inline firm level).symm

/-- Folders in folders, and their owners. -/
def folders : SchemaModel :=
  .of [⟨"Folder", [.of "id" "ID", .of "parent" "Folder", .of "owner" "User"]⟩,
    ⟨"User", [.of "name" "String"]⟩] [] [] [] []

/-- The field of the root type that fetches a folder. -/
def folder : OperationField :=
  ⟨"folder", [.of "id" "ID!"], .parse "Folder"⟩

theorem layouts_interchangeable_folders :
    (Operation.of folders .indented .query folder).Over isPlain ∧
      collapse (Operation.of folders .indented .query folder).document.toList =
        (Operation.of folders .inline .query folder).document.toList ∧
      IndentedFrom 0
        ((Operation.of folders .indented .query folder).document.toList.splitOn '\n') ∧
      collapse (Selection.block .inline 1 [.object "owner" [.leaf "name"]]) =
        Selection.block .inline 1 [.object "owner" [.leaf "name"]] := by
  have blankless : (Operation.of folders .inline .query folder).Over (!isBlank ·) :=
    ⟨by decide +kernel, by decide +kernel⟩
  have plain : (Operation.of folders .indented .query folder).Over isPlain :=
    ⟨by decide +kernel, by decide +kernel⟩
  have solid : ∀ name ∈ Selection.nodesNames [.object "owner" [.leaf "name"]],
      Solid name.toList := by
    simp only [Selection.nodesNames, Selection.nodeNames, List.append_nil, List.forall_mem_cons]
    exact ⟨⟨by decide, by decide⟩, ⟨by decide, by decide⟩, by simp⟩
  obtain ⟨-, inline, indented, layouts⟩ := layouts_interchangeable folders .query folder
  exact ⟨plain, inline blankless, indented plain, ((layouts 1 _).2.2 solid).1⟩

/-- The indentation of the first line is a gap that the inline layout has not; two blanks in a type
stay two in the inline layout; and behind a missing name a gap is read as indentation. -/
theorem layouts_apart :
    collapse (Selection.render .indented 1 [.leaf "id"]) ≠
        collapse (Selection.render .inline 1 [.leaf "id"]) ∧
      collapse (Operation.of folders .indented .query
          ⟨"size", [.of "of" "Int  !"], .parse "Int"⟩).document.toList ≠
        (Operation.of folders .inline .query
          ⟨"size", [.of "of" "Int  !"], .parse "Int"⟩).document.toList ∧
      ¬ IndentedFrom 0 ((Operation.of folders .indented .query
        ⟨"", [], .parse "User"⟩).document.toList.splitOn '\n') :=
  ⟨by decide, by decide +kernel, by decide +kernel⟩

end SchemaClient
