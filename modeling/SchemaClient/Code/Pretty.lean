import SchemaClient.Code.Layout
import SchemaClient.Code.Quoted
import SchemaClient.Code.Tree

/-!
# Generated code as text

The layout of every construct of the tree. Lists close on the line they open on or put each entry
on a line of its own with a comma behind it; chains of methods break before their dots; the body
of an arm moves into braces when it does not fit.
-/

namespace SchemaClient.Code

open Layout

namespace Pretty

def step : Int := 4

def zero : List Layout := [.brk {}]

def space : List Layout := [.brk { blanks := 1 }]

def hard : List Layout := [.brk { blanks := tooWide }]

def hardUnlessLast : List Layout := [.brk { blanks := tooWide, vanishes := true }]

def never : List Layout := [.brk { never := true }]

def w (s : String) : List Layout := [.word s]

/-- Behind an entry of a list: a comma only if the line ends behind the last one. -/
def comma (last : Bool) : List Layout :=
  if last then [.brk { before := "," }] else w "," ++ space

/-- The same where the closing bracket is kept apart by a space. -/
def commaSpace (last : Bool) : List Layout :=
  if last then [.brk { blanks := 1, before := "," }] else w "," ++ space

/-- Entries with a comma behind each. -/
def withCommas (separate : Bool → List Layout) : List (List Layout) → List Layout
  | [] => []
  | [x] => x ++ separate true
  | x :: xs => x ++ separate false ++ withCommas separate xs

/-- Entries with a comma between each two. -/
def betweenCommas : List (List Layout) → List Layout
  | [] => []
  | [x] => x
  | x :: xs => x ++ w "," ++ space ++ betweenCommas xs

/-- A list whose brackets stand around this box. -/
def entries (xs : List (List Layout)) : List Layout :=
  cbox step (shiftLast (-step) (zero ++ withCommas comma xs))

/-! ## Types and patterns -/

def type : CodeType → List Layout
  | .path p => w p.text
  | .apply head a => w head.text ++ w "<" ++ entries [type a] ++ w ">"
  | .apply2 head a b => w head.text ++ w "<" ++ entries [type a, type b] ++ w ">"
  | .fused outer inner a =>
    w outer.text ++ w "<" ++ entries [w inner.text ++ w "<" ++ entries [type a] ++ w ">"] ++ w ">"
  | .lifetime name => w ("'" ++ name)
  | .static t => w "&" ++ w "'static " ++ type t
  | .reference t => w "&" ++ type t
  | .mutable t => w "&" ++ w "mut " ++ type t
  | .slice t => w "[" ++ type t ++ w "]"
  | .some t => w "impl " ++ type t

def pattern : Pattern → List Layout
  | .path p => w p.text
  | .literal s => w (quoted s)
  | .tuple p binder => w p.text ++ w "(" ++ entries [w (Names.written binder)] ++ w ")"

/-! ## Expressions -/

/-- A single path so short that what follows its dot lines up with the next line's dot. -/
def isShort : Expr → Bool
  | .path ⟨false, [n]⟩ => (Names.written n).utf8ByteSize ≤ 4
  | _ => false

def isChain : Expr → Bool
  | .method _ _ _ | .field _ _ => true
  | _ => false

def withoutBorrow : Expr → Expr
  | .borrow e => withoutBorrow e
  | e => e

def initialiser (field : String × Option Path) : List Layout :=
  match field with
  | (name, none) => w (Names.written name)
  | (name, some v) => w (Names.written name) ++ w ": " ++ ibox 0 (w v.text)

mutual

def expr : Expr → List Layout
  | .path p => w p.text
  | .qualified owner name => w ("<Self as " ++ owner.text ++ ">::" ++ Names.written name)
  | .literal s => w (quoted s)
  | .borrow e => w "&" ++ expr e
  | .field e name => cbox step (chain false e ++ zero ++ w "." ++ w (Names.written name))
  | .method e name args =>
    cbox step (chain false e ++ zero ++ w "." ++ w (Names.written name)
      ++ cbox 0 (w "(" ++ arguments args ++ w ")"))
  | .call f args _ => w f.text ++ w "(" ++ arguments args ++ w ")"
  | .closure parameter body =>
    ibox 0 (cbox step (shiftLast (-step)
        (w "|" ++ zero ++ w (Names.written parameter) ++ w "|" ++ space))
      ++ never ++ expr body)
  | .construct fields =>
    cboxWithin 34 step (shiftLast (-step)
        (ibox (-step) (w "Self") ++ w " \x7b" ++ [.brk { blanks := 1, vanishes := true }]
          ++ withCommas commaSpace (fields.map initialiser)))
      ++ w "\x7d"
  | .assign target value => ibox 0 (expr target ++ w " = " ++ never ++ expr value)
  | .array items =>
    match items with
    | [] => w "[]"
    | items => w "[" ++ entries (exprs items) ++ w "]"
  | .format args =>
    w "::std::format!" ++ w "("
      ++ cbox step (shiftLast (-step) (zero ++ ibox 0 (betweenCommas (exprs args)) ++ zero))
      ++ w ")"
  | .cases e arms =>
    ibox 0 (w "match " ++ cbox 0 (expr e ++ if isChain (withoutBorrow e) then space else w " ")
      ++ w "\x7b" ++ never
      ++ cbox step (shiftLast (-step) (hardUnlessLast ++ armLayouts arms)) ++ w "\x7d")

def exprs : List Expr → List (List Layout)
  | [] => []
  | e :: es => expr e :: exprs es

/-- The arguments of a call; a lone closure hugs the parentheses. -/
def arguments : List Expr → List Layout
  | [.closure parameter body] => expr (.closure parameter body)
  | args => entries (exprs args)

/-- The receiver of a chain, with every dot of its own. At the beginning of a line a short
receiver keeps the first dot beside it. -/
def chain (atStart : Bool) : Expr → List Layout
  | .field e name =>
    chain atStart e ++ (if atStart && isShort e then [] else zero) ++ w "."
      ++ w (Names.written name)
  | .method e name args =>
    chain atStart e ++ (if atStart && isShort e then [] else zero) ++ w "."
      ++ w (Names.written name) ++ cbox 0 (w "(" ++ arguments args ++ w ")")
  | .call f args _ => cbox (-step) (w f.text) ++ w "(" ++ arguments args ++ w ")"
  | e => cbox (-step) (expr e)

/-- An expression at the beginning of a line. -/
def exprAtStart : Expr → List Layout
  | .field e name =>
    cbox step (chain true e ++ (if isShort e then [] else zero) ++ w "." ++ w (Names.written name))
  | .method e name args =>
    cbox step (chain true e ++ (if isShort e then [] else zero) ++ w "." ++ w (Names.written name)
      ++ cbox (if isShort e then -step else 0) (w "(" ++ arguments args ++ w ")"))
  | e => expr e

def armBody (e : Expr) : List Layout :=
  w " => " ++ never
    ++ cbox step ([.brk { before := "\x7b" }] ++ exprAtStart e
      ++ [.brk { behind := "\x7d", instead := ",", indent := -step }])

def armLayouts : List Arm → List Layout
  | [] => []
  | .plain p body :: arms => ibox 0 (pattern p ++ armBody body) ++ hard ++ armLayouts arms
  | .guarded p condition body :: arms =>
    ibox 0 (pattern p ++ w " if " ++ expr condition ++ armBody body) ++ hard ++ armLayouts arms

end

/-! ## Statements -/

mutual

def statement : Statement → List Layout
  | .declare name value =>
    ibox 0 (w "let " ++ w ("mut " ++ Names.written name) ++ w " = " ++ never ++ expr value)
      ++ w ";" ++ hard
  | .result e => ibox 0 (exprAtStart e) ++ hard
  | .effect e => ibox 0 (exprAtStart e ++ w ";") ++ hard
  | .whenMatches p e body =>
    ibox 0 (cbox step (shiftLast (-step)
        (w "if " ++ cbox (-step) (cbox 0
            (ibox 0 (w "let " ++ ibox 0 (pattern p) ++ w " = " ++ never ++ ibox 0 (expr e))
              ++ if isChain (withoutBorrow e) then space else w " "))
          ++ w "\x7b" ++ hard ++ statements body)
      ++ w "\x7d")) ++ hard

def statements : List Statement → List Layout
  | [] => []
  | s :: ss => statement s ++ statements ss

end

/-! ## Documentation and attributes -/

def trimSpaces (cs : List Char) : List Char :=
  (cs.reverse.dropWhile (· = ' ')).reverse

/-- Whether block comments opened in the text are closed in it, and none but those. -/
def balanced (depth : Nat) : List Char → Bool
  | '/' :: '*' :: rest => balanced (depth + 1) rest
  | '*' :: '/' :: rest =>
    match depth with
    | 0 => false
    | depth + 1 => balanced depth rest
  | _ :: rest => balanced depth rest
  | [] => depth = 0

/-- Drops the spaces before every line end. -/
def trimLineEnds : List Char → List Char
  | [] => []
  | c :: cs =>
    let rest := trimLineEnds cs
    if c = ' ' && rest.head? = some '\n' then rest else c :: rest

/-- A line of documentation. Text of several lines, which only an odd name brings about, becomes a
block comment, or an attribute if such a comment would not end where it should. -/
def doc (inner : Bool) (d : Doc) : List Layout :=
  let cs := d.text.toList
  if !cs.contains '\n' then
    w (if inner then "//!" else "///") ++ w (String.ofList (trimSpaces cs)) ++ hard
  else if balanced 0 cs && cs.getLast? ≠ some '/' then
    w (if inner then "/*!" else "/**") ++ w (String.ofList (trimLineEnds cs)) ++ w "*/" ++ hard
  else w (if inner then "#!" else "#") ++ w ("[doc = " ++ quoted d.text ++ "]") ++ space

def docs (ds : List Doc) : List Layout :=
  ds.flatMap (doc false)

def attributeEntry : AttributeEntry → List Layout
  | .path p => w p.text
  | .value key text => w (key ++ " = " ++ quoted text)

def attributeLayout (inner : Bool) (a : Attribute) : List Layout :=
  w (if inner then "#!" else "#") ++
    (match a with
      | .word name => w ("[" ++ name ++ "]")
      | .list name parts trailing =>
        w "[" ++ w name ++ w "("
          ++ cbox step (shiftLast (-step)
            (zero ++ betweenCommas (parts.map attributeEntry)
              ++ if trailing then comma true else zero))
          ++ w ")" ++ w "]")
    ++ space

def attributes (as : List Attribute) : List Layout :=
  as.flatMap (attributeLayout false)

/-! ## Items -/

def visibility (visible : Bool) : String :=
  if visible then "pub " else ""

def parameter : Parameter → List Layout
  | .borrowedSelf => w "&self"
  | .mutableSelf => w "mut self"
  | .typed name t => w (Names.written name) ++ w ": " ++ type t

/-- A box that ends with a brace; `inside` has a line of its own for each entry. -/
def braced (opening inside : List Layout) : List Layout :=
  cbox step (shiftLast (-step) (opening ++ w " " ++ w "\x7b" ++ hardUnlessLast ++ inside))
    ++ w "\x7d" ++ hard

def function (f : Function) : List Layout :=
  braced
    (w (visibility f.visible) ++ w "fn " ++ w (Names.written f.name) ++ w "(" ++ never
      ++ cbox 0 (shiftLast (-step) (zero ++ withCommas comma (f.parameters.map parameter)))
      ++ w ")" ++ cbox (-step) (w " -> " ++ type f.result))
    (statements f.body)

def constant (c : Constant) : List Layout :=
  cbox 0 (w (visibility c.visible ++ "const ") ++ w (Names.written c.name) ++ w ": " ++ type c.type
    ++ w " = " ++ never ++ expr c.value ++ w ";") ++ hard

def associatedItem : AssociatedItem → List Layout
  | .constant c => constant c
  | .function ds f => docs ds ++ function f
  | .documented ds c => docs ds ++ constant c
  | .type name t =>
    cbox step (w "type " ++ w (Names.written name) ++ w " = " ++ never ++ ibox (-step) (type t)
      ++ w ";") ++ hard

def member (m : Member) : List Layout :=
  docs m.docs ++ attributes m.attributes ++ w (visibility m.visible) ++ w (Names.written m.name)
    ++ w ": " ++ type m.type ++ w "," ++ hard

def variant (v : Variant) : List Layout :=
  attributes v.attributes ++ w (Names.written v.name) ++ w "," ++ hard

def item : Item → List Layout
  | .struct ds as name members =>
    docs ds ++ attributes as
      ++ braced (w "pub struct " ++ w (Names.written name)) (members.flatMap member)
  | .enum ds as name variants =>
    docs ds ++ attributes as
      ++ braced (w "pub enum " ++ w (Names.written name)) (variants.flatMap variant)
  | .block owner name items =>
    braced
      (ibox (-step) (cbox step (w "impl") ++ w " "
        ++ (match owner with
          | none => []
          | some p => w p.text ++ space ++ w "for ")
        ++ w (Names.written name)))
      (items.flatMap associatedItem)
  | .submodule name => w "pub mod " ++ w (Names.written name) ++ w ";" ++ hard
  | .reexport root names =>
    w "pub use " ++ w (Names.written root) ++ w "::\x7b"
      ++ w (", ".intercalate (names.map Names.written)) ++ w "\x7d;" ++ hard

def moduleLayout (m : Module) : List Layout :=
  cbox 0 (m.docs.flatMap (doc true) ++ m.attributes.flatMap (attributeLayout true)
    ++ m.items.flatMap item)

end Pretty

/-- The line at the head of every generated file. -/
def notice : String :=
  "// This code was automatically generated by graphgen-gen. Do not edit manually."

/-- The text of a file: the notice, an empty line and the module. -/
def Module.text (m : Module) : String :=
  notice ++ "\n\n" ++ render (Pretty.moduleLayout m)

/-- The first declared name, if any, that the language keeps for itself. -/
def Module.reservedName? (m : Module) : Option String :=
  (m.items.filterMap Item.declares).find? ("_" :: Names.reservedNames).contains

end SchemaClient.Code
