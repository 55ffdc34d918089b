import SchemaClient.Exchange.ChosenField
import SchemaClient.Proofs.Bindings.Evaluation
import SchemaClient.Proofs.Operation.DocumentReader
import SchemaClient.Proofs.Operation.Layouts

/-!
# Selections of the caller's own

A caller who lists the fields of the built selection gets its inline text. The struct of an operation
puts the text that it is given between the head and the tail of the document, and the text of the
built selection gives the document itself.
-/

namespace SchemaClient

open Code Evaluation Names Selection Source Text

/-! ## The built fields, listed by a caller -/

namespace ChosenField

mutual

/-- A node of a selection as a field of a caller's. -/
def ofNode : SelectionNode → ChosenField
  | .leaf name => .leaf name
  | .object name children => .nested name (ofNodes children)

def ofNodes : List SelectionNode → List ChosenField
  | [] => []
  | n :: ns => ofNode n :: ofNodes ns

end

theorem toList_selectionText_cons_cons (f f' : ChosenField) (fs : List ChosenField) :
    (selectionText (f :: f' :: fs)).toList =
      (text f).toList ++ ' ' :: (selectionText (f' :: fs)).toList := by
  simp [selectionText, texts]

mutual

theorem toList_text_ofNode : (n : SelectionNode) → (text (ofNode n)).toList = inlineNode n
  | .leaf _ => rfl
  | .object name [] => by
    rw [ofNode, ofNodes, text, inlineNode, if_pos (by rfl), String.toList_append]
    rfl
  | .object name (child :: children) => by
    have fields := toList_selectionText_ofNodes (child :: children)
    rw [selectionText] at fields
    rw [ofNode, text, if_neg (by simp [ofNodes]), inlineNode, String.toList_append,
      String.toList_append, String.toList_append, fields]
    · rfl
    · simp

theorem toList_selectionText_ofNodes :
    (ns : List SelectionNode) → (selectionText (ofNodes ns)).toList = inlineNodes true ns
  | [] => rfl
  | [n] => by
    have single : (selectionText [ofNode n]).toList = (text (ofNode n)).toList := by
      simp [selectionText, texts]
    rw [ofNodes, ofNodes, single, toList_text_ofNode n]
    simp [inlineNodes]
  | n :: n' :: ns => by
    have later := toList_selectionText_ofNodes (n' :: ns)
    rw [ofNodes] at later
    rw [ofNodes, ofNodes, toList_selectionText_cons_cons, toList_text_ofNode n, later]
    simp [inlineNodes]

end

/-- Listing the fields of a selection gives its inline text. -/
theorem selectionText_ofNodes (level : Nat) (ns : List SelectionNode) :
    selectionText (ofNodes ns) = String.ofList (render .inline level ns) := by
  rw [← String.toList_inj, toList_selectionText_ofNodes, String.toList_ofList, render]

end ChosenField

/-! ## The built selection in place of itself -/

section Visible

variable {c : Char} {cs : List Char}

theorem trim_ne_nil (h : c ∈ cs) (hc : isBlank c = false) : Text.trim cs ≠ [] := by
  obtain ⟨a, b, rfl⟩ := List.append_of_mem h
  rw [trim_append_cons _ hc]
  simp

theorem name_infix_inlineNode (n : SelectionNode) : n.name.toList <:+: inlineNode n := by
  unfold inlineNode
  split
  · exact List.infix_rfl
  · exact (List.prefix_append _ _).isInfix
  · rw [List.append_assoc, List.append_assoc]
    exact (List.prefix_append _ _).isInfix

theorem name_infix_nodeLines (level : Nat) (n : SelectionNode) :
    ∃ line lines, nodeLines level n = line :: lines ∧ n.name.toList <:+: line := by
  unfold nodeLines
  split
  · exact ⟨_, _, rfl, (List.suffix_append _ _).isInfix⟩
  · exact ⟨_, _, rfl, List.infix_append _ _ _⟩
  · exact ⟨_, _, rfl, List.infix_append _ _ _⟩

theorem name_infix_render (style : SelectionStyle) (level : Nat) (n : SelectionNode)
    (ns : List SelectionNode) : n.name.toList <:+: render style level (n :: ns) := by
  cases style with
  | inline =>
    rw [render, inlineNodes, if_pos rfl, List.nil_append]
    exact (name_infix_inlineNode n).trans (List.prefix_append _ _).isInfix
  | indented =>
    obtain ⟨line, lines, hlines, name⟩ := name_infix_nodeLines level n
    rw [render, nodesLines, hlines, List.cons_append, intercalate_eq_broken]
    exact name.trans (List.prefix_append _ _).isInfix

theorem trim_render_ne_nil {n : SelectionNode} (h : n.Named) (style : SelectionStyle) (level : Nat)
    (ns : List SelectionNode) : Text.trim (render style level (n :: ns)) ≠ [] := by
  have name : IsWord n.name.toList := by
    cases h with
    | leaf name => exact name
    | object name _ => exact name
  obtain ⟨c, hc⟩ := List.exists_mem_of_ne_nil _ name.1
  exact trim_ne_nil ((name_infix_render style level n ns).subset hc)
    (isBlank_of_isNameChar (name.2 c hc))

end Visible

namespace Operation

variable {op : Operation} {ns : List SelectionNode}

/-- The document with a selection of the caller's own, if there is one. Blank text selects
nothing. -/
def documentWith (op : Operation) : Option String → String
  | none => op.document
  | some selection =>
    if Text.trim selection.toList = [] then op.head ++ " \x7b\x7d" ++ op.tail
    else
      match op.style with
      | .inline => op.head ++ " \x7b " ++ selection ++ " \x7d" ++ op.tail
      | .indented => op.head ++ " \x7b\n" ++ selection ++ "\n    \x7d" ++ op.tail

theorem documentWith_render (selected : op.selection = some ns) (named : ∀ n ∈ ns, n.Named) :
    op.documentWith (some (String.ofList (render op.style 2 ns))) = op.document := by
  rw [documentWith, String.toList_ofList, document, selectionBlock, selected]
  cases ns with
  | nil =>
    have empty : Text.trim (render op.style 2 []) = [] := by
      cases op.style <;> rfl
    rw [if_pos empty]
    rfl
  | cons n ns =>
    rw [if_neg (trim_render_ne_nil (named n List.mem_cons_self) op.style 2 ns)]
    rw [← String.toList_inj]
    cases op.style with
    | inline => simp [block, render]
    | indented => simp [block, render, indent]

end Operation

/-! ## Generated code -/

/-- What a struct holds of a selection. -/
def ofText? : Option String → Value
  | none => .absent
  | some s => .present (.text s)

namespace OperationStruct

/-- The trait of operations. -/
def trait : Option Path := some (runtimePath ["Operation"])

section Calls

variable {constants : Constants} {locals : Locals} {members : List (String × Value)}

theorem run_storeBody {name : String} {value : Expr} {v self self' : Value}
    (own : locals.lookup "self" = some self)
    (hvalue : evaluate constants locals (someOf value) = some v)
    (stored : Value.store? name v self = some self') :
    run constants locals (storeBody name value) = some self' := by
  have result : evaluate constants (("self", self') :: locals) selfPath = some self' := by
    rw [selfPath, evaluate, pathValue?_variable, List.lookup_cons_self]
  simp only [storeBody, ownField, Path.name, run, hvalue, own, Option.bind_some, stored, result]

theorem call_selectionSetter (constants : Constants) (h : "selection" ∈ members.map Prod.fst)
    (text : String) : ∃ members', members'.lookup "selection" = some (ofText? (some text)) ∧
      callFunction constants selectionSetter [.record members, .text text] =
        some (.record members') := by
  obtain ⟨members', stored, found⟩ := Value.store?_record h (ofText? (some text))
  have value : evaluate constants [("self", .record members), ("selection", .text text)]
      (someOf (.method (.path (.name "selection")) "into" [])) =
      some (ofText? (some text)) := by
    rw [someOf, evaluate, evaluateAll, evaluate, evaluate, pathValue?_variable]
    rfl
  refine ⟨members', found, ?_⟩
  change run constants [("self", .record members), ("selection", .text text)] _ = _
  exact run_storeBody List.lookup_cons_self value stored

theorem evaluate_isBlank (text : String) : evaluate constants (("selection", .text text) :: locals)
    (.method (.method (.path (.name "selection")) "trim" []) "is_empty" []) =
      some (.truth (Text.trim text.toList).isEmpty) := by
  simp [evaluate, evaluateAll, Value.method?]

section Templates

variable {head tail : String}

theorem evaluate_emptyBraces (hhead : constants none "DOCUMENT_HEAD" = some (.text head))
    (htail : constants none "DOCUMENT_TAIL" = some (.text tail)) : evaluate constants locals
      (.format [.literal "\x7b\x7d \x7b\x7b\x7d\x7d\x7b\x7d", documentHead, documentTail]) =
        some (.text (head ++ " \x7b\x7d" ++ tail)) := by
  have filled : Value.format?
      [.text "\x7b\x7d \x7b\x7b\x7d\x7d\x7b\x7d", .text head, .text tail] =
        some (.text (head ++ " \x7b\x7d" ++ tail)) := by
    simp [Value.format?, Value.fill, Value.text?, ← String.toList_inj]
  rw [← filled]
  simp [documentHead, documentTail, evaluate, evaluateAll, hhead, htail]

theorem evaluate_customFormat (style : SelectionStyle) (text : String)
    (hhead : constants none "DOCUMENT_HEAD" = some (.text head))
    (htail : constants none "DOCUMENT_TAIL" = some (.text tail)) :
    evaluate constants (("selection", .text text) :: locals)
      (.format [.literal (customFormat style), documentHead, .path (.name "selection"),
        documentTail]) =
      some (.text (match style with
        | .inline => head ++ " \x7b " ++ text ++ " \x7d" ++ tail
        | .indented => head ++ " \x7b\n" ++ text ++ "\n    \x7d" ++ tail)) := by
  have filled : Value.format? [.text (customFormat style), .text head, .text text, .text tail] =
      some (.text (match style with
        | .inline => head ++ " \x7b " ++ text ++ " \x7d" ++ tail
        | .indented => head ++ " \x7b\n" ++ text ++ "\n    \x7d" ++ tail)) := by
    cases style <;>
      simp [Value.format?, customFormat, Value.fill, Value.text?, ← String.toList_inj]
  rw [← filled]
  simp [documentHead, documentTail, evaluate, evaluateAll, hhead, htail]

end Templates

/-- The generated function gives the document with the selection that its struct holds. -/
theorem call_document (op : Operation) {selection : Option String}
    (held : members.lookup "selection" = some (ofText? selection))
    (head : constants none "DOCUMENT_HEAD" = some (.text op.head))
    (tail : constants none "DOCUMENT_TAIL" = some (.text op.tail))
    (whole : constants trait "DOCUMENT" = some (.text op.document)) :
    callFunction constants (document op) [.record members] =
      some (.text (op.documentWith selection)) := by
  change run constants [("self", .record members)] (document op).body = _
  have own : evaluate constants [("self", .record members)] (.borrow (ownField "selection")) =
      some (ofText? selection) := by
    rw [evaluate, evaluate_ownField]
    exact held
  rw [document, run, evaluate, own, Option.bind_some]
  cases selection with
  | none =>
    have answer : evaluate constants [("self", .record members)]
        (stringOf (.qualified (runtimePath ["Operation"]) "DOCUMENT") true) =
        some (.text op.document) := by
      rw [stringOf, evaluate, evaluateAll, evaluate, ← trait, whole]
      rfl
    rw [Operation.documentWith]
    simpa [ofText?, choose, bindings?] using answer
  | some text =>
    have matching : bindings? (.tuple Lib.optionSome "selection") (ofText? (some text)) =
        some [("selection", .text text)] := rfl
    rw [Operation.documentWith, choose_guarded matching (evaluate_isBlank text)]
    by_cases blank : Text.trim text.toList = []
    · rw [if_pos blank, if_pos (List.isEmpty_iff.mpr blank)]
      exact evaluate_emptyBraces head tail
    · rw [if_neg blank, if_neg (mt List.isEmpty_iff.mp blank), choose_plain matching]
      refine (evaluate_customFormat op.style text head tail).trans ?_
      cases op.style with
      | inline => rfl
      | indented => rfl

end Calls

/-! ## The struct in its module -/

section Modules

variable {m : SchemaModel} {style : SelectionStyle} {kind : OperationKind} {s : OperationStruct}

theorem associated_other {owner : Option Path} {name : String} (h : s.name ≠ name) :
    associated s.items owner name = [] := by
  simp [associated, items, h]

theorem associated_own (s : OperationStruct) : associated s.items none s.name =
    .function [] s.new :: (s.arguments.filter (·.nullable)).map (fun a => .function [] (setter a))
      ++ if s.hasSelection then selectionItems s.operation else [] := by
  simp [associated, items]

theorem associated_trait (s : OperationStruct) :
    associated s.items trait s.name = s.interface := by
  simp [associated, items, trait]

theorem associated_flatMap {structs : List OperationStruct}
    (distinct : (structs.map OperationStruct.name).Nodup) (hs : s ∈ structs) (owner : Option Path) :
    associated (structs.flatMap items) owner s.name = associated s.items owner s.name := by
  induction structs with
  | nil => cases hs
  | cons s' structs ih =>
    rw [List.map_cons, List.nodup_cons] at distinct
    have others : ∀ t ∈ structs, t.name ≠ s'.name := fun t ht heq =>
      distinct.1 (heq ▸ List.mem_map_of_mem ht)
    rw [associated, List.flatMap_cons, List.flatMap_append, ← associated, ← associated]
    rcases List.mem_cons.mp hs with rfl | hs
    · have rest : associated (structs.flatMap items) owner s.name = [] := by
        rw [associated, List.flatMap_assoc, List.flatMap_eq_nil_iff]
        exact fun t ht => associated_other (others t ht)
      rw [rest, List.append_nil]
    · rw [associated_other (others s hs).symm, List.nil_append]
      exact ih distinct.2 hs

/-- In a module the blocks of a struct are those that are made for its operation. -/
theorem associated_module (hs : s ∈ all m style kind) (owner : Option Path) :
    associated (module m style kind).items owner s.name = associated s.items owner s.name :=
  associated_flatMap (nodup_operationNames m style kind) hs owner

theorem exists_operation_of_mem_all (hs : s ∈ all m style kind) :
    ∃ op ∈ operations m style, ∃ name, s = .of m op name := by
  obtain ⟨op, hop, name, -, rfl⟩ := exists_of_mem_zipWith hs
  exact ⟨op, (List.mem_filter.mp hop).1, name, rfl⟩

theorem nodup_associated (hs : s ∈ all m style kind) :
    ((associated (module m style kind).items none s.name).map AssociatedItem.name).Nodup ∧
      ((associated (module m style kind).items trait s.name).map AssociatedItem.name).Nodup := by
  have inner : ∀ item ∈ s.items, item.innerNames.Nodup := by
    obtain ⟨op, -, name, rfl⟩ := exists_operation_of_mem_all hs
    exact nodup_operationItems m op name
  rw [associated_module hs, associated_module hs, associated_own, associated_trait]
  exact ⟨inner _ (List.mem_cons_of_mem _ List.mem_cons_self),
    inner _ (List.mem_cons_of_mem _ (List.mem_cons_of_mem _ List.mem_cons_self))⟩

theorem constant_document (hs : s ∈ all m style kind) :
    constantsOf (module m style kind).items s.name trait "DOCUMENT" =
      some (.text s.operation.document) := by
  have declared : .constant ⟨false, "DOCUMENT", Lib.staticStr, .literal s.operation.document⟩ ∈
      associated (module m style kind).items trait s.name := by
    rw [associated_module hs, associated_trait]
    simp [interface]
  exact constantsOf_of_mem (nodup_associated hs).2 declared

theorem mem_own_of_mem_selectionItems (hs : s ∈ all m style kind)
    (selects : s.hasSelection = true) : ∀ item ∈ selectionItems s.operation,
      item ∈ associated (module m style kind).items none s.name := by
  intro item hitem
  rw [associated_module hs, associated_own, if_pos selects]
  exact List.mem_append_right _ hitem

/-- The document of a struct in any state. -/
theorem document_of_state (hs : s ∈ all m style kind) (selects : s.hasSelection = true)
    {members : List (String × Value)} {selection : Option String}
    (held : members.lookup "selection" = some (ofText? selection)) :
    callOf (module m style kind).items trait s.name "document" [.record members] =
      some (.text (s.operation.documentWith selection)) := by
  obtain ⟨ownNames, traitNames⟩ := nodup_associated hs
  have own := mem_own_of_mem_selectionItems hs selects
  have head := constantsOf_of_mem ownNames (own _ List.mem_cons_self)
  have tail := constantsOf_of_mem ownNames (own _ (List.mem_cons_of_mem _ List.mem_cons_self))
  have declared : .function [] (document s.operation) ∈
      associated (module m style kind).items trait s.name := by
    rw [associated_module hs, associated_trait, interface, if_pos selects]
    exact List.mem_append_left _ (List.mem_append_right _ List.mem_cons_self)
  rw [← call_document s.operation held head tail (constant_document hs)]
  exact callOf_of_mem traitNames declared _

/-- A text of the caller's own becomes the selection of the struct, whatever else it holds. -/
theorem state_of_selection (hs : s ∈ all m style kind) (selects : s.hasSelection = true)
    {members : List (String × Value)} (held : "selection" ∈ members.map Prod.fst) (text : String) :
    ∃ members', members'.lookup "selection" = some (ofText? (some text)) ∧
      callOf (module m style kind).items none s.name "with_selection"
        [.record members, .text text] = some (.record members') := by
  have declared := mem_own_of_mem_selectionItems hs selects _
    (List.mem_cons_of_mem _ (List.mem_cons_of_mem _ List.mem_cons_self))
  obtain ⟨members', found, stored⟩ :=
    call_selectionSetter (constantsOf (module m style kind).items s.name) held text
  exact ⟨members', found, (callOf_of_mem (nodup_associated hs).1 declared _).trans stored⟩

end Modules

end OperationStruct

/-! ## Operations of analysed schemas -/

section Analysed

variable {text : String} {m : SchemaModel} {style : SelectionStyle} {kind : OperationKind}
  {s : OperationStruct}

theorem exists_field_of_mem_operations {op : Operation} (h : op ∈ operations m style) :
    ∃ kind, ∃ f ∈ m.queryFields ++ m.mutationFields, op = .of m style kind f := by
  rcases List.mem_append.mp h with h | h
  · obtain ⟨f, hf, rfl⟩ := List.mem_map.mp h
    exact ⟨.query, f, List.mem_append_left _ hf, rfl⟩
  · obtain ⟨f, hf, rfl⟩ := List.mem_map.mp h
    exact ⟨.mutation, f, List.mem_append_right _ hf, rfl⟩

/-- An operation of an analysed schema that returns an object selects what is built for its type. -/
theorem selection_of_object (h : analyse text = .ok m) (hs : s ∈ OperationStruct.all m style kind)
    {base : String} (returns : s.operation.result.element = .object base) :
    s.operation.style = style ∧ s.operation.selection = some (build m base) ∧
      s.operation.Named := by
  obtain ⟨op, hop, name, rfl⟩ := OperationStruct.exists_operation_of_mem_all hs
  obtain ⟨kind', f, hf, rfl⟩ := exists_field_of_mem_operations hop
  change (ResultType.of m f.returnType).element = .object base at returns
  refine ⟨rfl, ?_, named_of_analyse h hf style kind'⟩
  dsimp only [OperationStruct.of, Operation.of]
  rw [returns]

/-- One operation returns an object with a field, and one an object without fields. -/
def nestedModel : SchemaModel :=
  .of [⟨"A", [.of "b" "B"]⟩, ⟨"B", []⟩] [] [] [⟨"a", [], .parse "A"⟩, ⟨"b", [], .parse "B"⟩] []

end Analysed

end SchemaClient
