import SchemaClient.Code.Quoted
import SchemaClient.Code.Tree

/-!
# Tokens of generated code

Tokens are written with one space between each two. Groups in parentheses and brackets close on
their contents, groups in braces keep a space inside. Operators such as `::` are one token.
-/

namespace SchemaClient.Code

inductive Delimiter
  | parenthesis
  | bracket
  | brace
deriving DecidableEq, Repr

inductive Token
  | leaf (text : String)
  | group (delimiter : Delimiter) (inner : List Token)
deriving Repr

namespace Token

def enclose (d : Delimiter) (inner : String) : String :=
  match d with
  | .parenthesis => "(" ++ inner ++ ")"
  | .bracket => "[" ++ inner ++ "]"
  | .brace => if inner.isEmpty then "\x7b \x7d" else "\x7b " ++ inner ++ " \x7d"

mutual

def text : Token → String
  | leaf text => text
  | group d inner => enclose d (textAll true inner)

def textAll (first : Bool) : List Token → String
  | [] => ""
  | t :: ts => (if first then "" else " ") ++ text t ++ textAll false ts

end

def ident (name : String) : Token := leaf (Names.written name)

def parens (inner : List Token) : Token := group .parenthesis inner

def brackets (inner : List Token) : Token := group .bracket inner

def braces (inner : List Token) : Token := group .brace inner

def string (s : String) : Token := leaf (quoted s)

/-- Parts with a comma between each two. -/
def commas : List (List Token) → List Token
  | [] => []
  | [part] => part
  | part :: parts => part ++ leaf "," :: commas parts

/-- Parts with a comma behind each. -/
def listed (parts : List (List Token)) : List Token :=
  parts.flatMap (· ++ [leaf ","])

end Token

open Token

def Path.tokens (p : Path) : List Token :=
  let rest (n : String) : List Token := [leaf "::", ident n]
  match p.absolute, p.segments with
  | true, segments => segments.flatMap rest
  | false, [] => []
  | false, n :: segments => ident n :: segments.flatMap rest

def CodeType.tokens : CodeType → List Token
  | path p => p.tokens
  | apply head a => head.tokens ++ leaf "<" :: a.tokens ++ [leaf ">"]
  | apply2 head a b => head.tokens ++ leaf "<" :: a.tokens ++ leaf "," :: b.tokens ++ [leaf ">"]
  | fused outer inner a =>
    outer.tokens ++ leaf "<" :: inner.tokens ++ leaf "<" :: a.tokens ++ [leaf ">>"]
  | lifetime name => [leaf ("'" ++ name)]
  | static t => leaf "&" :: leaf "'static" :: t.tokens
  | reference t => leaf "&" :: t.tokens
  | mutable t => leaf "&" :: leaf "mut" :: t.tokens
  | slice t => [brackets t.tokens]
  | some t => leaf "impl" :: t.tokens

def Pattern.tokens : Pattern → List Token
  | path p => p.tokens
  | literal s => [string s]
  | tuple p binder => p.tokens ++ [parens [ident binder]]

mutual

def Expr.tokens : Expr → List Token
  | .path p => p.tokens
  | .qualified owner name =>
    leaf "<" :: leaf "Self" :: leaf "as" :: owner.tokens ++ [leaf ">", leaf "::", ident name]
  | .literal s => [string s]
  | .borrow e => leaf "&" :: e.tokens
  | .field e name => e.tokens ++ [leaf ".", ident name]
  | .method e name args => e.tokens ++ [leaf ".", ident name, parens (commas (exprTokens args))]
  | .call f args trailing =>
    let parts := exprTokens args
    f.tokens ++ [parens (if trailing then listed parts else commas parts)]
  | .closure parameter body => leaf "|" :: ident parameter :: leaf "|" :: body.tokens
  | .construct fields =>
    [leaf "Self", braces (listed (fields.map fun (name, value) =>
      match value with
      | none => [ident name]
      | Option.some v => ident name :: leaf ":" :: v.tokens))]
  | .assign target value => target.tokens ++ leaf "=" :: value.tokens
  | .array items => [brackets (commas (exprTokens items))]
  | .format args =>
    (Path.root ["std", "format"]).tokens ++ [leaf "!", parens (commas (exprTokens args))]
  | .cases e arms => leaf "match" :: e.tokens ++ [braces (armTokens arms)]

def exprTokens : List Expr → List (List Token)
  | [] => []
  | e :: es => e.tokens :: exprTokens es

def Arm.tokens : Arm → List Token
  | .plain p body => p.tokens ++ leaf "=>" :: body.tokens ++ [leaf ","]
  | .guarded p condition body =>
    p.tokens ++ leaf "if" :: condition.tokens ++ [leaf "=>", braces body.tokens]

def armTokens : List Arm → List Token
  | [] => []
  | a :: as => a.tokens ++ armTokens as

end

mutual

def Statement.tokens : Statement → List Token
  | .declare name value =>
    leaf "let" :: leaf "mut" :: ident name :: leaf "=" :: value.tokens ++ [leaf ";"]
  | .effect e => e.tokens ++ [leaf ";"]
  | .result e => e.tokens
  | .whenMatches p e body =>
    leaf "if" :: leaf "let" :: p.tokens ++ leaf "=" :: e.tokens ++ [braces (statementTokens body)]

def statementTokens : List Statement → List Token
  | [] => []
  | s :: ss => s.tokens ++ statementTokens ss

end

def Parameter.tokens : Parameter → List Token
  | borrowedSelf => [leaf "&", leaf "self"]
  | mutableSelf => [leaf "mut", leaf "self"]
  | typed name type => ident name :: leaf ":" :: type.tokens

def AttributeEntry.tokens : AttributeEntry → List Token
  | path p => p.tokens
  | value key text => [ident key, leaf "=", string text]

def Attribute.inner : Attribute → List Token
  | word name => [ident name]
  | list name entries trailing =>
    let parts := entries.map AttributeEntry.tokens
    [ident name, parens (if trailing then listed parts else commas parts)]

def Attribute.tokens (a : Attribute) : List Token := [leaf "#", brackets a.inner]

def Attribute.innerTokens (a : Attribute) : List Token := [leaf "#", leaf "!", brackets a.inner]

def Doc.body : Doc → List Token
  | comment text => [leaf "doc", leaf "=", leaf (rawQuoted text)]
  | made text => [leaf "doc", leaf "=", string text]

def Doc.tokens (d : Doc) : List Token := [leaf "#", brackets d.body]

def Doc.innerTokens (d : Doc) : List Token := [leaf "#", leaf "!", brackets d.body]

def visibility (visible : Bool) : List Token :=
  if visible then [leaf "pub"] else []

def Function.tokens (f : Function) : List Token :=
  visibility f.visible ++ leaf "fn" :: ident f.name ::
    parens (commas (f.parameters.map Parameter.tokens)) :: leaf "->" :: f.result.tokens
    ++ [braces (statementTokens f.body)]

def Constant.tokens (c : Constant) : List Token :=
  visibility c.visible ++ leaf "const" :: ident c.name :: leaf ":" :: c.type.tokens
    ++ leaf "=" :: c.value.tokens ++ [leaf ";"]

def AssociatedItem.tokens : AssociatedItem → List Token
  | constant c => c.tokens
  | function docs f => docs.flatMap Doc.tokens ++ f.tokens
  | documented docs c => docs.flatMap Doc.tokens ++ c.tokens
  | type name t => leaf "type" :: ident name :: leaf "=" :: t.tokens ++ [leaf ";"]

def Member.tokens (m : Member) : List Token :=
  m.docs.flatMap Doc.tokens ++ m.attributes.flatMap Attribute.tokens ++ visibility m.visible
    ++ ident m.name :: leaf ":" :: m.type.tokens ++ [leaf ","]

def Variant.tokens (v : Variant) : List Token :=
  v.attributes.flatMap Attribute.tokens ++ [ident v.name, leaf ","]

def Item.tokens : Item → List Token
  | struct docs attributes name members =>
    docs.flatMap Doc.tokens ++ attributes.flatMap Attribute.tokens
      ++ [leaf "pub", leaf "struct", ident name, braces (members.flatMap Member.tokens)]
  | enum docs attributes name variants =>
    docs.flatMap Doc.tokens ++ attributes.flatMap Attribute.tokens
      ++ [leaf "pub", leaf "enum", ident name, braces (variants.flatMap Variant.tokens)]
  | block owner name items =>
    leaf "impl" ::
      (match owner with
        | none => []
        | Option.some p => p.tokens ++ [leaf "for"])
      ++ [ident name, braces (items.flatMap AssociatedItem.tokens)]
  | submodule name => [leaf "pub", leaf "mod", ident name, leaf ";"]
  | reexport root names =>
    [leaf "pub", leaf "use", ident root, leaf "::", braces (commas (names.map fun n => [ident n])),
      leaf ";"]

def Module.tokens (m : Module) : List Token :=
  m.docs.flatMap Doc.innerTokens ++ m.attributes.flatMap Attribute.innerTokens
    ++ m.items.flatMap Item.tokens

def tokenText (ts : List Token) : String :=
  Token.textAll true ts

end SchemaClient.Code
