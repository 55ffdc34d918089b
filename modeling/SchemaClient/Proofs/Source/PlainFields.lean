import SchemaClient.Proofs.Source.EntryScan

/-!
# Bodies without argument lists

The fields of a type and the operations of a root type are scanned for with two patterns. Where no
list of arguments opens, both match at the same places and pass over as much of the text, so that
the second scan finds what the first one finds.
-/

namespace SchemaClient.Source

open Text

variable {cs : List Char}

theorem parenthesised?_eq_none (plain : '(' ∉ cs) : parenthesised? cs = none := by
  unfold parenthesised?
  split
  · simp at plain
  · rfl

/-- The field as an operation without arguments. -/
def withoutArguments (f : Field) : OperationField :=
  ⟨f.name, [], f.type⟩

/-- At a place behind which no list opens, the two patterns match the same text. -/
theorem operationPattern_eq (plain : '(' ∉ cs) : operationPattern cs =
    (fieldPattern cs).map fun (f, length) => (withoutArguments f, length) := by
  cases hname : run? isNameChar cs with
  | none => simp [operationPattern, fieldPattern, hname]
  | some found =>
    obtain ⟨name, behind⟩ := found
    have behindPlain : '(' ∉ skipBlanks behind := by
      intro hmem
      apply plain
      rw [(run?_eq_some hname).1]
      exact List.mem_append_right name ((List.dropWhile_sublist _).mem hmem)
    cases htype : typeAfterColon? behind with
    | none =>
      simp [operationPattern, fieldPattern, hname, parenthesised?_eq_none behindPlain, htype]
    | some found =>
      simp [operationPattern, fieldPattern, hname, parenthesised?_eq_none behindPlain, htype]
      rfl

/-- Where no parenthesis opens, the operations of a body are its fields, without arguments. -/
theorem operationsIn_without_lists (body : List Char) (plain : '(' ∉ body) :
    operationsIn body = (fieldsIn body).map fun f => ⟨f.name, [], f.type⟩ := by
  refine collect_eq_map withoutArguments fun t ht => ?_
  exact operationPattern_eq fun hmem => plain (ht.subset hmem)

/-- A colon without a name, a name without a type, and a type that is no type. -/
def malformedBody : List Char :=
  ": id : ID! ) tags:[[Tag!] x y y:: name\n:\tString".toList

theorem operationsIn_without_lists_malformed : '(' ∉ malformedBody ∧
    operationsIn malformedBody =
      [⟨"id", [], .parse "ID!"⟩, ⟨"tags", [], .parse "[[Tag!]"⟩,
        ⟨"name", [], .parse "String"⟩] := by
  have plain : '(' ∉ malformedBody := by decide
  have fields : fieldsIn malformedBody =
      [.of "id" "ID!", .of "tags" "[[Tag!]", .of "name" "String"] := by
    decide +kernel
  refine ⟨plain, ?_⟩
  rw [operationsIn_without_lists malformedBody plain, fields]
  rfl

end SchemaClient.Source
