import SchemaClient.Schema.Model

/-!
# Selection sets

A selection set names the fields to fetch of an object type, and for fields of object type the
fields to fetch of those in turn. Two guards keep it finite: five levels at most, and no type
inside its own expansion. A field whose expansion is cut off keeps an empty block. A set is
written on one line or indented by four spaces a level.
-/

namespace SchemaClient

inductive SelectionNode
  | leaf (name : String)
  | object (name : String) (children : List SelectionNode)
deriving Repr

namespace SelectionNode

def name : SelectionNode → String
  | leaf name => name
  | object name _ => name

end SelectionNode

/-- How documents are laid out. -/
inductive SelectionStyle
  | inline
  | indented
deriving DecidableEq, Repr

namespace SelectionStyle

def name : SelectionStyle → String
  | inline => "inline"
  | indented => "indented"

def all : List SelectionStyle := [inline, indented]

def ofName? (s : String) : Option SelectionStyle :=
  all.find? (·.name = s)

end SelectionStyle

namespace Selection

/-- Levels of fields in a selection set. -/
def maxDepth : Nat := 5

/-- Whether a field of this base type has fields of its own. -/
def expands (m : SchemaModel) (base : String) : Bool :=
  !m.isLeaf base && (m.fieldsOf? base).isSome

/-- The fields of a type that is selected `ancestors.length` levels below the root, all of the
types above it being `ancestors`. -/
def nodes (m : SchemaModel) : (levels : Nat) → (ancestors : List String) → String →
    List SelectionNode
  | 0, _, _ => []
  | levels + 1, ancestors, type =>
    if ancestors.contains type || m.isLeaf type then [] else
      ((m.fieldsOf? type).getD []).map fun f =>
        if expands m f.type.base then
          .object f.name (nodes m levels (type :: ancestors) f.type.base)
        else .leaf f.name

def build (m : SchemaModel) (type : String) : List SelectionNode :=
  nodes m maxDepth [] type

/-! ## Text -/

mutual

def inlineNode : SelectionNode → List Char
  | .leaf name => name.toList
  | .object name [] => name.toList ++ [' ', '\x7b', '\x7d']
  | .object name children =>
    name.toList ++ [' ', '\x7b', ' '] ++ inlineNodes true children ++ [' ', '\x7d']

/-- The nodes one after the other, with a space in front of all but the first. -/
def inlineNodes (first : Bool) : List SelectionNode → List Char
  | [] => []
  | n :: ns => (if first then [] else [' ']) ++ inlineNode n ++ inlineNodes false ns

end

def indent (level : Nat) : List Char :=
  List.replicate (4 * level) ' '

mutual

def nodeLines (level : Nat) : SelectionNode → List (List Char)
  | .leaf name => [indent level ++ name.toList]
  | .object name [] => [indent level ++ name.toList ++ [' ', '\x7b', '\x7d']]
  | .object name children =>
    (indent level ++ name.toList ++ [' ', '\x7b']) ::
      (nodesLines (level + 1) children ++ [indent level ++ ['\x7d']])

def nodesLines (level : Nat) : List SelectionNode → List (List Char)
  | [] => []
  | n :: ns => nodeLines level n ++ nodesLines level ns

end

def render (style : SelectionStyle) (level : Nat) (ns : List SelectionNode) : List Char :=
  match style with
  | .inline => inlineNodes true ns
  | .indented => ['\n'].intercalate (nodesLines level ns)

/-- The set in braces, behind a field that stands at `level`. -/
def block (style : SelectionStyle) (level : Nat) (ns : List SelectionNode) : List Char :=
  if ns.isEmpty then [' ', '\x7b', '\x7d'] else
    match style with
    | .inline => [' ', '\x7b', ' '] ++ render .inline level ns ++ [' ', '\x7d']
    | .indented =>
      [' ', '\x7b', '\n'] ++ render .indented (level + 1) ns ++ '\n' :: indent level ++ ['\x7d']

end Selection

end SchemaClient
