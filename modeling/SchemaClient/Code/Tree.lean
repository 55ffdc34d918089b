import SchemaClient.Names.Identifier

/-!
# Trees of generated code

The part of the target language that generated modules use: paths, types, expressions, items. A
tree has two written forms, a sequence of tokens and a laid out text. Identifiers are kept as
names; both forms write a keyword raw.
-/

namespace SchemaClient.Code

/-- Names joined by `::`, with `::` in front of an absolute one. -/
structure Path where
  absolute : Bool
  segments : List String
deriving DecidableEq, Repr

namespace Path

def root (segments : List String) : Path := ⟨true, segments⟩

def relative (segments : List String) : Path := ⟨false, segments⟩

def name (n : String) : Path := ⟨false, [n]⟩

def text (p : Path) : String :=
  (if p.absolute then "::" else "") ++ "::".intercalate (p.segments.map Names.written)

end Path

inductive CodeType
  | path (p : Path)
  /-- `head<argument>`. -/
  | apply (head : Path) (argument : CodeType)
  /-- `head<first, second>`. -/
  | apply2 (head : Path) (first second : CodeType)
  /-- `outer<inner<argument>>` with both brackets closed by one token. -/
  | fused (outer inner : Path) (argument : CodeType)
  | lifetime (name : String)
  /-- `&'static target`. -/
  | static (target : CodeType)
  | reference (target : CodeType)
  | mutable (target : CodeType)
  | slice (element : CodeType)
  /-- Some type with a trait. -/
  | some (bound : CodeType)
deriving Repr

inductive Pattern
  | path (p : Path)
  | literal (text : String)
  | tuple (p : Path) (binder : String)
deriving Repr

mutual

inductive Expr
  | path (p : Path)
  /-- `<Self as owner>::name`. -/
  | qualified (owner : Path) (name : String)
  | literal (text : String)
  | borrow (e : Expr)
  | field (e : Expr) (name : String)
  | method (e : Expr) (name : String) (args : List Expr)
  /-- A call; `trailing` when a comma stands behind its last argument. -/
  | call (function : Path) (args : List Expr) (trailing : Bool)
  | closure (parameter : String) (body : Expr)
  /-- `Self` with its fields, each given a value or taken from the variable of its name. -/
  | construct (fields : List (String × Option Path))
  | assign (target value : Expr)
  | array (items : List Expr)
  /-- `::std::format!` of its arguments. -/
  | format (args : List Expr)
  | cases (e : Expr) (arms : List Arm)

inductive Arm
  | plain (pattern : Pattern) (body : Expr)
  /-- An arm with a condition, whose body stands in braces. -/
  | guarded (pattern : Pattern) (condition body : Expr)

end

inductive Statement
  /-- `let mut name = value;`. -/
  | declare (name : String) (value : Expr)
  | effect (e : Expr)
  | result (e : Expr)
  /-- `if let pattern = e`. -/
  | whenMatches (pattern : Pattern) (e : Expr) (body : List Statement)

inductive Parameter
  | borrowedSelf
  | mutableSelf
  | typed (name : String) (type : CodeType)

/-- A line of documentation: a comment of the generator's own, or text made for the item. -/
inductive Doc
  | comment (text : String)
  | made (text : String)
deriving Repr

def Doc.text : Doc → String
  | .comment text => text
  | .made text => text

inductive AttributeEntry
  | path (p : Path)
  | value (key text : String)

inductive Attribute
  | word (name : String)
  /-- `name(entries)`; `trailing` when a comma stands behind the last entry. -/
  | list (name : String) (entries : List AttributeEntry) (trailing : Bool)

structure Function where
  visible : Bool
  name : String
  parameters : List Parameter
  result : CodeType
  body : List Statement

structure Constant where
  visible : Bool
  name : String
  type : CodeType
  value : Expr

inductive AssociatedItem
  | constant (c : Constant)
  | function (docs : List Doc) (f : Function)
  | documented (docs : List Doc) (c : Constant)
  | type (name : String) (type : CodeType)

structure Member where
  docs : List Doc
  attributes : List Attribute
  visible : Bool
  name : String
  type : CodeType

structure Variant where
  attributes : List Attribute
  name : String

inductive Item
  | struct (docs : List Doc) (attributes : List Attribute) (name : String)
      (members : List Member)
  | enum (docs : List Doc) (attributes : List Attribute) (name : String)
      (variants : List Variant)
  | block (owner : Option Path) (name : String) (items : List AssociatedItem)
  | submodule (name : String)
  /-- `pub use root::{names};`. -/
  | reexport (root : String) (names : List String)

/-- The text of one file. -/
structure Module where
  docs : List Doc
  attributes : List Attribute
  items : List Item

/-- The name that an item declares in its module. -/
def Item.declares : Item → Option String
  | .struct _ _ name _ => some name
  | .enum _ _ name _ => some name
  | .block _ _ _ => none
  | .submodule name => some name
  | .reexport _ _ => none

end SchemaClient.Code
