import SchemaClient.Proofs.Source.HeaderScan
import SchemaClient.Schema.Model

/-!
# The practical grammar of schemas

The part of the schema language that is read without loss: blocks of flat field lists, of enum
values and of operations with one flat argument list each. A construct of the grammar has the words
it is written with, in their order; how they are spaced is left open. Names may be spelled like
keywords.
-/

namespace SchemaClient.Source

open Text

/-- A name of a definition, field, argument or enum value. -/
structure SchemaName where
  letters : List Char
  isName : IsName letters

def SchemaName.text (n : SchemaName) : String :=
  String.ofList n.letters

/-- `N`, `N!`, `[N]`, `[N!]`, `[N]!` and `[N!]!`. -/
inductive TypeForm
  | named (name : SchemaName) (required : Bool)
  | list (element : SchemaName) (elementRequired required : Bool)

def bang (required : Bool) : List Char :=
  if required then ['!'] else []

def TypeForm.letters : TypeForm → List Char
  | named n required => n.letters ++ bang required
  | list n elementRequired required =>
    '[' :: (n.letters ++ bang elementRequired ++ ']' :: bang required)

def TypeForm.text (t : TypeForm) : String :=
  String.ofList t.letters

/-- `name: Type`. -/
structure FieldLine where
  name : SchemaName
  type : TypeForm

namespace FieldLine

def words (f : FieldLine) : List (List Char) :=
  [f.name.letters, [':'], f.type.letters]

def field (f : FieldLine) : Field :=
  .of f.name.text f.type.text

end FieldLine

/-- The words of `a: T, b: U`. -/
def argumentWords : List FieldLine → List (List Char)
  | [] => []
  | [a] => a.words
  | a :: b :: as => a.words ++ [','] :: argumentWords (b :: as)

/-- `name(a: T, b: U): Type`, without parentheses where there are no arguments. -/
structure OperationLine where
  name : SchemaName
  args : List FieldLine
  type : TypeForm

namespace OperationLine

def words (o : OperationLine) : List (List Char) :=
  match o.args with
  | [] => [o.name.letters, [':'], o.type.letters]
  | args => o.name.letters :: ['('] :: (argumentWords args ++ [[')'], [':'], o.type.letters])

def operation (o : OperationLine) : OperationField :=
  ⟨o.name.text, o.args.map (·.field), .parse o.type.text⟩

end OperationLine

/-- A definition with a body. -/
inductive Block
  | object (name : SchemaName) (fields : List FieldLine)
      (ordinary : name.text ∉ reservedTypeNames)
  | input (name : SchemaName) (fields : List FieldLine)
  | enum (name : SchemaName) (value : SchemaName) (values : List SchemaName)
  | root (kind : OperationKind) (operations : List OperationLine)
  | subscription (operations : List OperationLine)

namespace Block

def kind : Block → DefinitionKind
  | input .. => .input
  | enum .. => .enum
  | object .. | root .. | subscription .. => .object

def name : Block → SchemaName
  | object n .. | input n .. | enum n .. => n
  | root .query _ => ⟨['Q', 'u', 'e', 'r', 'y'], by decide⟩
  | root .mutation _ => ⟨['M', 'u', 't', 'a', 't', 'i', 'o', 'n'], by decide⟩
  | subscription _ => ⟨['S', 'u', 'b', 's', 'c', 'r', 'i', 'p', 't', 'i', 'o', 'n'], by decide⟩

/-- The words between the braces. -/
def innerWords : Block → List (List Char)
  | object _ fields _ | input _ fields => fields.flatMap (·.words)
  | enum _ v vs => (v :: vs).map (·.letters)
  | root _ os | subscription os => os.flatMap (·.words)

def object? : Block → Option ObjectType
  | object n fields _ => some ⟨n.text, fields.map (·.field)⟩
  | _ => none

def input? : Block → Option InputType
  | input n fields => some ⟨n.text, fields.map (·.field)⟩
  | _ => none

def enum? : Block → Option EnumType
  | enum n v vs => some ⟨n.text, (v :: vs).map (·.text)⟩
  | _ => none

/-- The operations of the block, if it is the root type of this kind. -/
def root? (kind : OperationKind) : Block → Option (List OperationField)
  | root k os => if k = kind then some (os.map (·.operation)) else none
  | _ => none

end Block

/-- A block as it is written, with or without `extend` in front. -/
structure WrittenBlock where
  extended : Bool
  block : Block

namespace WrittenBlock

/-- The words in front of the brace. -/
def headWords (w : WrittenBlock) : List (List Char) :=
  (if w.extended then [extendWord] else []) ++ [w.block.kind.keyword.toList, w.block.name.letters]

def words (w : WrittenBlock) : List (List Char) :=
  w.headWords ++ ['\x7b'] :: (w.block.innerWords ++ [['\x7d']])

end WrittenBlock

/-- Blocks of which at most one is the root type of each kind. -/
structure Document where
  blocks : List WrittenBlock
  nonempty : blocks ≠ []
  single : ∀ kind, (blocks.filterMap (·.block.root? kind)).length ≤ 1

namespace Document

def words (d : Document) : List (List Char) :=
  d.blocks.flatMap (·.words)

def operations (d : Document) (kind : OperationKind) : List OperationField :=
  (d.blocks.filterMap (·.block.root? kind)).flatten

def model (d : Document) : SchemaModel :=
  .of (d.blocks.filterMap (·.block.object?)) (d.blocks.filterMap (·.block.input?))
    (d.blocks.filterMap (·.block.enum?)) (d.operations .query) (d.operations .mutation)

end Document

section Words

variable {c : Char}

theorem SchemaName.isWord (n : SchemaName) : IsWord n.letters :=
  n.isName.isWord

theorem SchemaName.exists_head (n : SchemaName) :
    ∃ c w, n.letters = c :: w ∧ isNameChar c = true := by
  obtain ⟨c, w, hw⟩ := List.exists_cons_of_ne_nil n.isWord.1
  exact ⟨c, w, hw, n.isWord.2 c (by rw [hw]; exact List.mem_cons_self)⟩

theorem mem_bang {required : Bool} (h : c ∈ bang required) : c = '!' := by
  cases required with
  | false => cases h
  | true => simpa [bang] using h

theorem TypeForm.nonempty (t : TypeForm) : t.letters ≠ [] := by
  cases t with
  | named n required => simp [letters, n.isWord.1]
  | list n elementRequired required => simp [letters]

theorem TypeForm.letters_isTypeChar (t : TypeForm) : ∀ c ∈ t.letters, isTypeChar c = true := by
  have name : ∀ (n : SchemaName) (c : Char), c ∈ n.letters → isTypeChar c = true :=
    fun n c hc => isTypeChar_of_isNameChar (n.isWord.2 c hc)
  have mark : ∀ (required : Bool) (c : Char), c ∈ bang required → isTypeChar c = true := by
    intro required c hc
    rw [mem_bang hc]
    decide
  intro c hc
  cases t with
  | named n required =>
    rcases List.mem_append.mp hc with hc | hc
    · exact name n c hc
    · exact mark required c hc
  | list n elementRequired required =>
    simp only [letters, List.mem_cons, List.mem_append] at hc
    rcases hc with rfl | (hc | hc) | rfl | hc
    · decide
    · exact name n c hc
    · exact mark elementRequired c hc
    · decide
    · exact mark required c hc

end Words

section Entries

/-- A character that stands between braces in the grammar. -/
def isEntryChar (c : Char) : Bool :=
  isTypeChar c || [':', ',', '(', ')'].contains c

theorem entry_of_isTypeChar {c : Char} (h : isTypeChar c = true) : isEntryChar c = true := by
  simp [isEntryChar, h]

theorem isBrace_of_isEntryChar {c : Char} (h : isEntryChar c = true) : isBrace c = false :=
  isBrace_of_apply h (by decide) (by decide)

theorem isBlank_of_isEntryChar {c : Char} (h : isEntryChar c = true) : isBlank c = false := by
  simp only [isEntryChar, Bool.or_eq_true, List.contains_iff_mem, List.mem_cons, List.not_mem_nil,
    or_false] at h
  rcases h with h | rfl | rfl | rfl | rfl
  · exact isBlank_of_isTypeChar h
  · decide
  · decide
  · decide
  · decide

/-- A word that stands between braces. -/
def IsEntryWord (w : List Char) : Prop :=
  w ≠ [] ∧ ∀ c ∈ w, isEntryChar c = true

theorem SchemaName.isEntryWord (n : SchemaName) : IsEntryWord n.letters :=
  ⟨n.isWord.1, fun c hc => entry_of_isTypeChar (isTypeChar_of_isNameChar (n.isWord.2 c hc))⟩

theorem TypeForm.isEntryWord (t : TypeForm) : IsEntryWord t.letters :=
  ⟨t.nonempty, fun c hc => entry_of_isTypeChar (t.letters_isTypeChar c hc)⟩

theorem isEntryWord_mark {c : Char} (h : isEntryChar c = true) : IsEntryWord [c] := by
  refine ⟨by simp, fun d hd => ?_⟩
  rw [List.mem_singleton.mp hd]
  exact h

theorem FieldLine.isEntryWord (f : FieldLine) : ∀ w ∈ f.words, IsEntryWord w := by
  intro w hw
  simp only [words, List.mem_cons, List.not_mem_nil, or_false] at hw
  rcases hw with rfl | rfl | rfl
  · exact f.name.isEntryWord
  · exact isEntryWord_mark (by decide)
  · exact f.type.isEntryWord

theorem argumentWords_isEntryWord (args : List FieldLine) :
    ∀ w ∈ argumentWords args, IsEntryWord w := by
  induction args using argumentWords.induct with
  | case1 => simp [argumentWords]
  | case2 a => exact a.isEntryWord
  | case3 a b as ih =>
    intro w hw
    rw [argumentWords, List.mem_append, List.mem_cons] at hw
    rcases hw with hw | rfl | hw
    · exact a.isEntryWord w hw
    · exact isEntryWord_mark (by decide)
    · exact ih w hw

theorem OperationLine.isEntryWord (o : OperationLine) : ∀ w ∈ o.words, IsEntryWord w := by
  obtain ⟨name, args, type⟩ := o
  intro w hw
  cases args with
  | nil => exact FieldLine.isEntryWord ⟨name, type⟩ w hw
  | cons a as =>
    simp only [words, List.mem_cons, List.mem_append, List.not_mem_nil, or_false] at hw
    rcases hw with rfl | rfl | hw | rfl | rfl | rfl
    · exact name.isEntryWord
    · exact isEntryWord_mark (by decide)
    · exact argumentWords_isEntryWord (a :: as) w hw
    · exact isEntryWord_mark (by decide)
    · exact isEntryWord_mark (by decide)
    · exact type.isEntryWord

theorem Block.isEntryWord (b : Block) : ∀ w ∈ b.innerWords, IsEntryWord w := by
  have fields : ∀ ls : List FieldLine, ∀ w ∈ ls.flatMap (·.words), IsEntryWord w := by
    intro ls w hw
    obtain ⟨l, -, hw⟩ := List.mem_flatMap.mp hw
    exact l.isEntryWord w hw
  have operations : ∀ os : List OperationLine, ∀ w ∈ os.flatMap (·.words), IsEntryWord w := by
    intro os w hw
    obtain ⟨o, -, hw⟩ := List.mem_flatMap.mp hw
    exact o.isEntryWord w hw
  cases b with
  | object _ ls _ => exact fields ls
  | input _ ls => exact fields ls
  | root _ os => exact operations os
  | subscription os => exact operations os
  | enum _ v vs =>
    intro w hw
    obtain ⟨n, -, rfl⟩ := List.mem_map.mp hw
    exact n.isEntryWord

end Entries

end SchemaClient.Source
