/-!
# Laying out text

A layout is words, breaks and boxes. A box that fits in the room left on the line is written
without line ends. In a consistent box that does not fit every break ends the line; in another one
only those do before which the text up to the next break would not fit. A line has 89 columns, and
60 even where it is indented further. Widths are counted in bytes.
-/

namespace SchemaClient.Code

/-- A place where the line may end. -/
structure Break where
  /-- Spaces written when the line goes on. -/
  blanks : Nat := 0
  /-- Written before the line ends. -/
  before : String := ""
  /-- Written at the start of the next line. -/
  behind : String := ""
  /-- Written when the line goes on. -/
  instead : String := ""
  /-- Falls away at the end of its box. -/
  vanishes : Bool := false
  /-- Never ends the line. -/
  never : Bool := false
  indent : Int := 0
deriving Repr

inductive Layout
  | word (text : String)
  | brk (b : Break)
  | box (consistent : Bool) (indent : Int) (body : List Layout)
  /-- Too wide for any line. -/
  | force
deriving Repr

namespace Layout

def tooWide : Nat := 0xffff

def margin : Int := 89

def leastRoom : Int := 60

/-! ## Boxes -/

/-- Moves the last break of a box by some columns. -/
def shiftLast (columns : Int) (body : List Layout) : List Layout :=
  match body.getLast? with
  | some (.brk b) => body.dropLast ++ [.brk { b with indent := b.indent + columns }]
  | _ => body

/-- What is left of a box's body when it closes: nothing of a lone break, and no vanishing break
at the end. -/
def closing (body : List Layout) : List Layout :=
  match body.getLast? with
  | some (.brk b) => if body.length = 1 || b.vanishes then body.dropLast else body
  | _ => body

def boxOf (consistent : Bool) (indent : Int) (body : List Layout) : List Layout :=
  match body with
  | [.brk _] => []
  | _ => [.box consistent indent (closing body)]

def cbox (indent : Int) (body : List Layout) : List Layout := boxOf true indent body

def ibox (indent : Int) (body : List Layout) : List Layout := boxOf false indent body

/-! ## Widths -/

mutual

/-- The width of a layout on one line. -/
def width : Layout → Nat
  | word text => text.utf8ByteSize
  | brk b => b.blanks
  | box _ _ body => widthAll body
  | force => tooWide

def widthAll : List Layout → Nat
  | [] => 0
  | x :: xs => width x + widthAll xs

end

/-- The width up to the first break, `after` being the width behind the list. -/
def lead (after : Nat) : List Layout → Nat
  | [] => after
  | brk _ :: _ => 0
  | x :: xs => width x + lead after xs

/-- A box that always breaks when its body is wider than `limit`. -/
def cboxWithin (limit : Nat) (indent : Int) (body : List Layout) : List Layout :=
  if limit < widthAll body then [.box true indent (body ++ [.force])] else cbox indent body

/-! ## Writing -/

structure Output where
  text : String
  /-- Spaces owed to the next word; at the end of a line they are dropped. -/
  pending : Nat
  /-- Columns left on the line. -/
  room : Int

def spaces (n : Nat) : String := String.ofList (List.replicate n ' ')

def Output.write (out : Output) (s : String) : Output :=
  ⟨out.text ++ spaces out.pending ++ s, 0, out.room - s.utf8ByteSize⟩

/-- Ends the line at a break and indents the next one. -/
def Output.endLine (out : Output) (b : Break) (indent : Int) : Output :=
  let out := if b.before.isEmpty then out else out.write b.before
  let columns := indent + b.indent
  let next : Output := ⟨out.text ++ "\n", columns.toNat, max (margin - columns) leastRoom⟩
  if b.behind.isEmpty then next else next.write b.behind

/-- Goes on behind a break. -/
def Output.goOn (out : Output) (b : Break) : Output :=
  ⟨out.text ++ b.instead, out.pending + b.blanks, out.room - b.blanks - b.instead.utf8ByteSize⟩

/-- What the enclosing box does with its breaks. -/
inductive Frame
  | fits
  | broken (consistent : Bool)

def Frame.endsLine (frame : Frame) (b : Break) (size : Nat) (room : Int) : Bool :=
  match frame with
  | .fits => false
  | .broken consistent => !b.never && (consistent || room < size)

mutual

/-- Writes a layout, `after` being the width behind it up to the next break. -/
def put (frame : Frame) (indent : Int) (after : Nat) (x : Layout) (out : Output) : Output :=
  match x with
  | word text => out.write text
  | brk b =>
    if frame.endsLine b (b.blanks + after) out.room then out.endLine b indent else out.goOn b
  | box consistent shift body =>
    if out.room < widthAll body + after then
      putAll (.broken consistent) (indent + shift) after body out
    else putAll .fits indent after body out
  | force => out

def putAll (frame : Frame) (indent : Int) (after : Nat) (xs : List Layout) (out : Output) :
    Output :=
  match xs with
  | [] => out
  | x :: rest => putAll frame indent after rest (put frame indent (lead after rest) x out)

end

/-- The text of a layout that starts at the first column. -/
def render (xs : List Layout) : String :=
  (putAll (.broken false) 0 0 xs ⟨"", 0, margin⟩).text

end Layout

end SchemaClient.Code
