import Mathlib.Data.List.Forall2
import SchemaClient.Operation.Document
import SchemaClient.Proofs.Source.Spacing
import SchemaClient.Source.Header

/-!
# The words of a document

Whatever its layout, a document is a row of words and punctuation marks with gaps between them, and
the layout decides the gaps only. Every word is made of characters of types; so the words can be
found again.
-/

namespace SchemaClient

open Text

namespace Source

variable {ws vs : List (List Char)} {a b cs g w : List Char} {c : Char}

/-! ## Texts that stand behind a word -/

/-- Words in a text that does not continue a word in front of it. -/
structure Detached (ws : List (List Char)) (cs : List Char) : Prop where
  spaced : Spaced ws cs
  stops : Stops isTypeChar cs

namespace Detached

theorem nil : Detached [] [] :=
  ⟨.gap Gap.nil, Stops.nil⟩

theorem gap (hg : Gap g) (nonempty : g ≠ []) (h : Spaced ws cs) : Detached ws (g ++ cs) := by
  obtain ⟨c, g, rfl⟩ := List.exists_cons_of_ne_nil nonempty
  exact ⟨h.gap_append hg, Stops.cons (isTypeChar_of_isBlank hg.head)⟩

/-- A punctuation mark keeps what stands around it apart, with or without gaps. -/
theorem mark (hg : Gap g) (hc : isTypeChar c = false) (h : Spaced ws cs) :
    Detached ([c] :: ws) (g ++ c :: cs) := by
  have apart : Apart [c] cs := by
    rintro d ⟨⟩ ht
    rw [List.getLast_singleton, hc] at ht
    cases ht
  refine ⟨?_, hg.stops (fun _ => isTypeChar_of_isBlank) (Stops.cons hc)⟩
  rw [List.append_cons]
  exact .word hg apart h

end Detached

namespace Spaced

theorem apart_of_stops (h : Stops isTypeChar b) : Apart a b :=
  fun _ _ _ => h

theorem append_detached (ha : Spaced ws a) (hb : Detached vs b) : Spaced (ws ++ vs) (a ++ b) :=
  ha.append hb.spaced (apart_of_stops hb.stops)

theorem single (w : List Char) : Spaced [w] w := by
  have h : Spaced [w] ([] ++ w ++ []) :=
    .word Gap.nil (apart_of_stops Stops.nil) (.gap Gap.nil)
  rwa [List.append_nil] at h

/-- Texts with a separator between them, the words of which keep a word before it apart. -/
theorem intercalate (sep : List Char) (sepWords : List (List Char))
    {parts : List (List Char)} {wss : List (List (List Char))}
    (link : ∀ {ws cs}, Spaced ws cs → Detached (sepWords ++ ws) (sep ++ cs))
    (h : List.Forall₂ Spaced wss parts) :
    Spaced (sepWords.intercalate wss) (sep.intercalate parts) := by
  induction h with
  | nil => exact .gap Gap.nil
  | @cons ws part wss parts hpart h ih =>
    cases h with
    | nil => simpa using hpart
    | cons _ _ =>
      rw [List.intercalate_cons_cons, List.intercalate_cons_cons, List.append_assoc,
        List.append_assoc]
      exact hpart.append_detached (link ih)

end Spaced

theorem Detached.behind (h : Detached ws cs) (w : List Char) : Spaced (w :: ws) (w ++ cs) :=
  (Spaced.single w).append_detached h

theorem Detached.append (ha : Detached ws a) (hb : Detached vs b) :
    Detached (ws ++ vs) (a ++ b) :=
  ⟨ha.spaced.append_detached hb, ha.stops.append hb.stops⟩

theorem intercalate_nil {α : Type} (parts : List (List α)) :
    ([] : List α).intercalate parts = parts.flatten := by
  induction parts with
  | nil => rfl
  | cons part parts ih =>
    cases parts with
    | nil => simp
    | cons _ _ =>
      rw [List.intercalate_cons_cons, ih, List.append_nil]
      rfl

/-- The words of several lines, one after the other. -/
def Lined (ws : List (List Char)) (lines : List (List Char)) : Prop :=
  ∃ wss, List.Forall₂ Spaced wss lines ∧ wss.flatten = ws

namespace Lined

variable {ls ks : List (List Char)}

theorem nil : Lined [] [] :=
  ⟨[], .nil, rfl⟩

theorem cons (h : Spaced ws cs) (hls : Lined vs ls) : Lined (ws ++ vs) (cs :: ls) := by
  obtain ⟨wss, hwss, rfl⟩ := hls
  exact ⟨ws :: wss, .cons h hwss, rfl⟩

theorem single (h : Spaced ws cs) : Lined ws [cs] := by
  have := cons h nil
  rwa [List.append_nil] at this

theorem append (hls : Lined ws ls) (hks : Lined vs ks) : Lined (ws ++ vs) (ls ++ ks) := by
  obtain ⟨wss, hwss, rfl⟩ := hls
  obtain ⟨vss, hvss, rfl⟩ := hks
  exact ⟨wss ++ vss, List.rel_append hwss hvss, List.flatten_append⟩

theorem spaced (h : Lined ws ls) : Spaced ws (['\n'].intercalate ls) := by
  obtain ⟨wss, hwss, rfl⟩ := h
  have lineBreak : Gap ['\n'] := by decide
  have joined := Spaced.intercalate ['\n'] []
    (fun h => Detached.gap lineBreak (List.cons_ne_nil _ _) h) hwss
  rwa [intercalate_nil] at joined

end Lined

end Source

open Source

/-! ## Selections -/

namespace Selection

mutual

def nodeWords : SelectionNode → List (List Char)
  | .leaf name => [name.toList]
  | .object name children => name.toList :: ['\x7b'] :: (nodesWords children ++ [['\x7d']])

def nodesWords : List SelectionNode → List (List Char)
  | [] => []
  | n :: ns => nodeWords n ++ nodesWords ns

end

theorem nodesWords_eq_flatMap (ns : List SelectionNode) :
    nodesWords ns = ns.flatMap nodeWords := by
  induction ns with
  | nil => rfl
  | cons n ns ih => rw [nodesWords, ih, List.flatMap_cons]

/-- The words of a block; there are none without a selection. -/
def blockWords : Option (List SelectionNode) → List (List Char)
  | none => []
  | some ns => ['\x7b'] :: (nodesWords ns ++ [['\x7d']])

section Spacing

variable {ns : List SelectionNode} {cs : List Char}

theorem gap_space : Gap [' '] := by decide

theorem gap_indent (level : Nat) : Gap (indent level) := by
  intro c hc
  rw [List.eq_of_mem_replicate hc]
  decide

/-- A brace behind a gap. -/
theorem detached_brace {ws : List (List Char)} {g : List Char} {c : Char} (hg : Gap g)
    (hc : isBrace c = true) (h : Spaced ws cs) : Detached ([c] :: ws) (g ++ c :: cs) := by
  refine .mark hg ?_ h
  simp only [isBrace, Bool.or_eq_true, decide_eq_true_eq] at hc
  rcases hc with rfl | rfl
  · decide
  · decide

theorem detached_closing {g : List Char} (hg : Gap g) :
    Detached [['\x7d']] (g ++ ['\x7d']) :=
  detached_brace hg rfl (.gap Gap.nil)

theorem detached_empty : Detached [['\x7b'], ['\x7d']] [' ', '\x7b', '\x7d'] :=
  detached_brace gap_space rfl (detached_closing Gap.nil).spaced

/-- Braces around an inner text, with any gaps. -/
theorem detached_braced {ws : List (List Char)} {g g' g'' : List Char} (hg : Gap g)
    (hg' : Gap g') (hg'' : Gap g'') (h : Spaced ws cs) :
    Detached (['\x7b'] :: (ws ++ [['\x7d']])) (g ++ '\x7b' :: (g' ++ cs ++ (g'' ++ ['\x7d']))) :=
  detached_brace hg rfl ((h.gap_append hg').append_detached (detached_closing hg''))

theorem stops_inlineNodes (ns : List SelectionNode) :
    Stops isTypeChar (inlineNodes false ns) := by
  cases ns with
  | nil => exact Stops.nil
  | cons n ns => exact Stops.cons (by decide)

mutual

theorem spaced_inlineNode : (n : SelectionNode) → Spaced (nodeWords n) (inlineNode n)
  | .leaf name => .single name.toList
  | .object name [] => detached_empty.behind name.toList
  | .object name (child :: children) => by
    have inner := spaced_inlineNodes true (child :: children)
    have := (detached_braced gap_space gap_space gap_space inner).behind name.toList
    rw [nodeWords, inlineNode]
    · simpa using this
    · exact List.cons_ne_nil _ _

theorem spaced_inlineNodes : (first : Bool) → (ns : List SelectionNode) →
    Spaced (nodesWords ns) (inlineNodes first ns)
  | _, [] => .gap Gap.nil
  | first, n :: ns => by
    have rest : Detached (nodesWords ns) (inlineNodes false ns) :=
      ⟨spaced_inlineNodes false ns, stops_inlineNodes ns⟩
    have node := (spaced_inlineNode n).append_detached rest
    rw [inlineNodes, nodesWords]
    cases first with
    | true => exact node
    | false => simpa using node.gap_append gap_space

end

mutual

theorem lined_nodeLines (level : Nat) : (n : SelectionNode) →
    Lined (nodeWords n) (nodeLines level n)
  | .leaf name => .single ((Spaced.single name.toList).gap_append (gap_indent level))
  | .object name [] => by
    have line := (detached_empty.behind name.toList).gap_append (gap_indent level)
    rw [nodeLines, List.append_assoc]
    exact .single line
  | .object name (child :: children) => by
    have opening :
        Spaced [name.toList, ['\x7b']] (indent level ++ name.toList ++ [' ', '\x7b']) := by
      rw [List.append_assoc]
      exact ((detached_brace gap_space rfl (.gap Gap.nil)).behind _).gap_append (gap_indent level)
    have inner := lined_nodesLines (level + 1) (child :: children)
    have closing := detached_closing (gap_indent level)
    exact .cons opening (inner.append (.single closing.spaced))

theorem lined_nodesLines (level : Nat) : (ns : List SelectionNode) →
    Lined (nodesWords ns) (nodesLines level ns)
  | [] => .nil
  | n :: ns => (lined_nodeLines level n).append (lined_nodesLines level ns)

end

theorem detached_block (style : SelectionStyle) (level : Nat) (ns : List SelectionNode) :
    Detached (blockWords (some ns)) (block style level ns) := by
  unfold block
  split
  · rename_i hns
    rw [List.isEmpty_iff.mp hns]
    exact detached_empty
  · have lineBreak : Gap ['\n'] := by decide
    cases style with
    | inline =>
      have nodes := spaced_inlineNodes true ns
      simpa [render, blockWords] using detached_braced gap_space gap_space gap_space nodes
    | indented =>
      have lines := (lined_nodesLines (level + 1) ns).spaced
      simpa [render, blockWords] using
        detached_braced gap_space lineBreak (lineBreak.append (gap_indent level)) lines

end Spacing

end Selection

/-! ## Argument lists -/

/-- The words of a list in parentheses; an empty list has none. -/
def callWords (parts : List (List (List Char))) : List (List Char) :=
  if parts.isEmpty then [] else ['('] :: ([[',']].intercalate parts ++ [[')']])

/-- An argument with its type. -/
def typedWords (a : Field) : List (List Char) :=
  [a.name.toList, [':'], a.type.raw.toList]

/-- An argument with its variable. -/
def boundWords (a : Field) : List (List Char) :=
  [a.name.toList, [':'], ['$'], a.name.toList]

theorem detached_parenthesised {α : Type} {words : α → List (List Char)} {text : α → String}
    (xs : List α) (h : ∀ x, Spaced (words x) (text x).toList) :
    Detached (callWords (xs.map words)) (parenthesised (xs.map text)).toList := by
  rw [callWords, parenthesised, List.isEmpty_map, List.isEmpty_map]
  split
  · exact .nil
  · have parts : List.Forall₂ Spaced (xs.map words) ((xs.map text).map String.toList) := by
      rw [List.map_map, List.forall₂_map_left_iff, List.forall₂_map_right_iff]
      exact List.forall₂_same.mpr fun x _ => h x
    have inner := Spaced.intercalate [',', ' '] [[',']]
      (fun h => .mark (g := []) Gap.nil (by decide) (h.gap_append Selection.gap_space)) parts
    have closing : Detached [[')']] [')'] := .mark (g := []) Gap.nil (by decide) (.gap Gap.nil)
    have call := Detached.mark (g := []) (c := '(') Gap.nil (by decide)
      (inner.append_detached closing)
    simpa [String.toList_intercalate] using call

theorem detached_argsSignature (args : List Field) :
    Detached (callWords (args.map typedWords)) (argsSignature args).toList := by
  refine detached_parenthesised args fun a => ?_
  have type := (Spaced.single a.type.raw.toList).gap_append Selection.gap_space
  have colon : Detached [[':'], a.type.raw.toList] (':' :: ' ' :: a.type.raw.toList) :=
    .mark (g := []) Gap.nil (by decide) type
  simpa [typedWords] using colon.behind a.name.toList

theorem detached_argsPass (args : List Field) :
    Detached (callWords (args.map boundWords)) (argsPass args).toList := by
  refine detached_parenthesised args fun a => ?_
  have bound : Detached [['$'], a.name.toList] (' ' :: '$' :: a.name.toList) :=
    .mark Selection.gap_space (by decide) (.single a.name.toList)
  have colon : Detached [[':'], ['$'], a.name.toList] (':' :: ' ' :: '$' :: a.name.toList) :=
    .mark (g := []) Gap.nil (by decide) bound.spaced
  simpa [boundWords] using colon.behind a.name.toList

/-! ## Documents -/

namespace Operation

def words (op : Operation) : List (List Char) :=
  op.kind.name.toList :: op.operationName.toList :: (callWords (op.args.map typedWords) ++
    ['\x7b'] :: op.name.toList :: (callWords (op.args.map boundWords) ++
      (Selection.blockWords op.selection ++ [['\x7d']])))

theorem detached_selectionBlock (op : Operation) :
    Detached (Selection.blockWords op.selection) op.selectionBlock.toList := by
  rw [selectionBlock]
  cases op.selection with
  | none => exact .nil
  | some ns =>
    rw [String.toList_ofList]
    exact Selection.detached_block op.style 1 ns

theorem detached_tail (op : Operation) : Detached [['\x7d']] op.tail.toList := by
  rw [tail]
  cases op.style with
  | inline => exact Selection.detached_closing Selection.gap_space
  | indented => exact Selection.detached_closing (g := ['\n']) (by decide)

/-- The layouts differ in the gap behind the first brace, in the block and in the tail. -/
theorem document_spaced (op : Operation) : Spaced op.words op.document.toList := by
  have call := (detached_argsPass op.args).append
    (op.detached_selectionBlock.append op.detached_tail)
  have laidOut : ∀ g, Gap g → Spaced op.words
      (op.kind.name.toList ++ ([' '] ++ (op.operationName.toList ++
        ((argsSignature op.args).toList ++ ([' '] ++ '\x7b' :: (g ++ (op.name.toList ++
          ((argsPass op.args).toList ++ (op.selectionBlock.toList ++ op.tail.toList))))))))) := by
    intro g hg
    have body := Selection.detached_brace (c := '\x7b') Selection.gap_space rfl
      ((call.behind op.name.toList).gap_append hg)
    have signed := ((detached_argsSignature op.args).append body).behind op.operationName.toList
    exact (Detached.gap Selection.gap_space (by decide) signed).behind op.kind.name.toList
  rw [document, head]
  cases op.style with
  | inline => simpa using laidOut [' '] (by decide)
  | indented => simpa using laidOut ['\n', ' ', ' ', ' ', ' '] (by decide)

end Operation

end SchemaClient
