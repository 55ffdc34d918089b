import SchemaClient.Names.Word
import SchemaClient.Text.Scan

/-!
# Identifiers

The names that generated code declares. A schema name is spelled for its use and made legal:
foreign characters become underscores, a name without any other character gives way to a default,
a leading digit gets an underscore before it and a reserved name one behind it. A keyword is
legal in its raw form. Within a scope a name already taken gets the first free number.
-/

namespace SchemaClient.Names

open Text

/-- Keywords that have a raw form. -/
def rawKeywords : List String :=
  ["abstract", "as", "async", "await", "become", "box", "break", "const", "continue", "do",
    "dyn", "else", "enum", "extern", "false", "final", "fn", "for", "gen", "if", "impl", "in",
    "let", "loop", "macro", "match", "mod", "move", "mut", "override", "priv", "pub", "ref",
    "return", "static", "struct", "trait", "true", "try", "type", "typeof", "unsafe", "unsized",
    "use", "virtual", "where", "while", "yield"]

/-- Keywords without a raw form. -/
def reservedNames : List String :=
  ["crate", "self", "Self", "super"]

def isRawKeyword (name : String) : Bool :=
  rawKeywords.contains name

def replaceForeign (cs : List Char) : List Char :=
  cs.map fun c => if isNameChar c then c else '_'

/-- Puts an underscore before a leading digit and behind a reserved name. -/
def guardName (cs : List Char) : List Char :=
  if (cs.head?.map Char.isDigit).getD false then '_' :: cs
  else if reservedNames.contains (String.ofList cs) then cs ++ ['_']
  else cs

def sanitize (cs fallback : List Char) : List Char :=
  let kept := replaceForeign cs
  guardName (if kept.all (· = '_') then fallback else kept)

def sanitized (name fallback : String) : String :=
  String.ofList (sanitize name.toList fallback.toList)

/-- The name of a field, an argument or a method. -/
def fieldName (name : String) : String :=
  String.ofList (sanitize (snakeCase name.toList) "field".toList)

def variantName (value : String) : String :=
  String.ofList (sanitize (pascalCase value.toList) "Value".toList)

/-- The name of a type, spelled as in the schema. -/
def typeName (name : String) : String :=
  sanitized name "Type"

def constantName (name : String) : String :=
  String.ofList (sanitize (screamingCase name.toList) "FIELD".toList)

/-- Whether a name is an identifier at all, keywords included. -/
def isIdentifier (name : String) : Bool :=
  match name.toList with
  | [] => false
  | c :: cs => (c = '_' || isIdentifierStart c) && cs.all isIdentifierRest

/-- An identifier as it is written: a keyword in its raw form. -/
def written (name : String) : String :=
  if isRawKeyword name then "r#" ++ name else name

/-! ## Scopes -/

/-- The names taken so far in one scope. -/
abbrev Scope := List String

def numbered (name : String) (n : Nat) : String :=
  name ++ "_" ++ toString n

/-- The first free name of `name_n`, `name_(n+1)`, … within `tries` steps. The numbers have no bound
here; counted in 32 signed bits they would run out after `name_2147483647`, which a scope of fewer
names never reaches. -/
def firstFree (taken : Scope) (name : String) : (tries : Nat) → (n : Nat) → String
  | 0, n => numbered name n
  | tries + 1, n =>
    if taken.contains (numbered name n) then firstFree taken name tries (n + 1)
    else numbered name n

/-- The name itself if it is free, or else with the first free number from 2 on. A scope with `k`
names leaves one of the first `k + 1` numbers free. -/
def claim (taken : Scope) (name : String) : String :=
  if taken.contains name then firstFree taken name taken.length 2 else name

/-- Claims names one after the other. -/
def claimAll (taken : Scope) : List String → List String
  | [] => []
  | name :: rest =>
    let claimed := claim taken name
    claimed :: claimAll (claimed :: taken) rest

end SchemaClient.Names
