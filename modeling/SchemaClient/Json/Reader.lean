import SchemaClient.Json.Outline

/-!
# Reading typed values

A reader walks an outline with a budget of nesting levels. Records are read from objects, where
unknown members are skipped and a repeated field is an error, or from arrays that list their
fields in order. `Reader.text` reads a whole text, `Reader.value` a JSON value already read.
-/

namespace SchemaClient.Json

/-- Reads a value at most `depth - 1` containers deep. -/
abbrev Reader (α : Type) := (depth : Nat) → Outline → Except ReadError α

namespace Outline

/-- The error of a value that has another type than the reader's. -/
def mismatch : Outline → ReadError
  | .broken read _ => read
  | .number none => .malformed
  | .text (.error e) => e
  | _ => .data

def closing (close : Option ReadError) : Except ReadError Unit :=
  match close with
  | none => .ok ()
  | some e => .error e

/-- One level of the nesting budget. -/
def enter (depth : Nat) : Except ReadError Nat :=
  if depth ≤ 1 then .error .malformed else .ok (depth - 1)

mutual

/-- Passes over a value of any shape. -/
def skip : Outline → Except ReadError Unit
  | .broken _ skip => .error skip
  | .items xs close => do skipItems xs; closing close
  | .members ms close => do skipMembers ms; closing close
  | _ => .ok ()

def skipItems : List Outline → Except ReadError Unit
  | [] => .ok ()
  | x :: xs => do skip x; skipItems xs

def skipMembers : List (Except ReadError String × Outline) → Except ReadError Unit
  | [] => .ok ()
  | (_, x) :: ms => do skip x; skipMembers ms

end

mutual

/-- Reads any JSON value; of two members with one name the later stays. -/
def readJson (depth : Nat) : Outline → Except ReadError Json
  | .broken read _ => .error read
  | .null => .ok .null
  | .bool b => .ok (.bool b)
  | .number none => .error .malformed
  | .number (some (.int n)) => .ok (.int n)
  | .number (some (.double x)) => .ok (.double x)
  | .text content => content.map .str
  | .items xs close => do
    let depth ← enter depth
    let items ← readItems depth xs
    closing close
    pure (.arr items)
  | .members ms close => do
    let depth ← enter depth
    let members ← readMembers depth [] ms
    closing close
    pure (.obj members)

def readItems (depth : Nat) : List Outline → Except ReadError (List Json)
  | [] => .ok []
  | x :: xs => do
    let v ← readJson depth x
    let vs ← readItems depth xs
    pure (v :: vs)

def readMembers (depth : Nat) (found : Dictionary Json) :
    List (Except ReadError String × Outline) → Except ReadError (Dictionary Json)
  | [] => .ok found
  | (key, x) :: ms => do
    let k ← key
    let v ← readJson depth x
    readMembers depth (found.insert k v) ms

end

end Outline

namespace Reader

open Outline

variable {α β σ : Type}

def json : Reader Json :=
  readJson

def bool : Reader Bool
  | _, .bool b => .ok b
  | _, x => .error x.mismatch

def string : Reader String
  | _, .text (.ok s) => .ok s
  | _, x => .error x.mismatch

/-- An integer between two bounds; a double is none, even when its value is integral. -/
def integer (low high : Int) : Reader Int
  | _, .number (some (.int n)) => if low ≤ n && n ≤ high then .ok n else .error .data
  | _, x => .error x.mismatch

/-- Any number; an integer is rounded to a double. -/
def double : Reader Double
  | _, .number (some (.double x)) => .ok x
  | _, .number (some (.int n)) =>
    match Magnitude.ofNat n.natAbs with
    | some m => .ok ⟨n < 0, m⟩
    | none => .error .data
  | _, x => .error x.mismatch

/-- A missing value is written as `null`. -/
def option (read : Reader α) : Reader (Option α)
  | _, .null => .ok none
  | depth, x => (read depth x).map some

def listFrom (read : Reader α) (depth : Nat) : List Outline → Except ReadError (List α)
  | [] => .ok []
  | x :: xs => do
    let v ← read depth x
    let vs ← listFrom read depth xs
    pure (v :: vs)

def list (read : Reader α) : Reader (List α)
  | depth, .items xs close => do
    let depth ← enter depth
    let vs ← listFrom read depth xs
    closing close
    pure vs
  | _, x => .error x.mismatch

def dictionaryFrom (read : Reader α) (depth : Nat) (found : Dictionary α) :
    List (Except ReadError String × Outline) → Except ReadError (Dictionary α)
  | [] => .ok found
  | (key, x) :: ms => do
    let k ← key
    let v ← read depth x
    dictionaryFrom read depth (found.insert k v) ms

def dictionary (read : Reader α) : Reader (Dictionary α)
  | depth, .members ms close => do
    let depth ← enter depth
    let d ← dictionaryFrom read depth [] ms
    closing close
    pure d
  | _, x => .error x.mismatch

/-- One of several words, or an object whose one member has the word for its name and `null` for
its value. -/
def oneOf (parse : String → Option α) : Reader α
  | _, .text content => do
    match parse (← content) with
    | some x => pure x
    | none => throw .data
  | depth, .members [] close => do
    let _ ← enter depth
    closing close
    throw .malformed
  | depth, .members ((key, x) :: more) close => do
    let _ ← enter depth
    match parse (← key) with
    | none => throw .data
    | some v =>
      match x with
      | .null => pure ()
      | x => throw x.mismatch
      if !more.isEmpty then throw .malformed
      closing close
      pure v
  | _, .broken read _ => .error read
  | _, _ => .error .malformed

/-! ## Records -/

/-- A field of a record that is read into a draft of type `σ`. -/
structure Field (σ : Type) where
  name : String
  filled : σ → Bool
  fill : Nat → Outline → σ → Except ReadError σ

/-- A field kept in an optional component of the draft. -/
def field (name : String) (read : Reader α) (get : σ → Option α) (set : α → σ → σ) : Field σ where
  name := name
  filled s := (get s).isSome
  fill depth x s := (read depth x).map fun v => set v s

def fillMembers (fields : List (Field σ)) (depth : Nat) (draft : σ) :
    List (Except ReadError String × Outline) → Except ReadError σ
  | [] => .ok draft
  | (key, x) :: ms => do
    let k ← key
    match fields.find? (·.name = k) with
    | none =>
      skip x
      fillMembers fields depth draft ms
    | some f =>
      if f.filled draft then throw .data
      fillMembers fields depth (← f.fill depth x draft) ms

/-- Fills the fields in order; the elements left over. -/
def fillItems (depth : Nat) (draft : σ) :
    List (Field σ) → List Outline → Except ReadError (σ × List Outline)
  | [], xs => .ok (draft, xs)
  | _ :: _, [] => .ok (draft, [])
  | f :: fs, x :: xs => do fillItems depth (← f.fill depth x draft) fs xs

/-- How a record was written: as an object or as an array of its fields. -/
inductive Form
  | named
  | ordered
deriving DecidableEq

/-- Reads a record: `finish` supplies what a draft lacks, or refuses it. -/
def record (fields : List (Field σ)) (start : σ) (finish : Form → σ → Option α) : Reader α
  | depth, .members ms close => do
    let depth ← enter depth
    let draft ← fillMembers fields depth start ms
    closing close
    match finish .named draft with
    | some r => pure r
    | none => throw .data
  | depth, .items xs close => do
    let depth ← enter depth
    let (draft, left) ← fillItems depth start fields xs
    if xs.length < fields.length then closing close
    match finish .ordered draft with
    | none => throw .data
    | some r =>
      if !left.isEmpty then throw .malformed
      closing close
      pure r
  | _, x => .error x.mismatch

/-! ## Whole texts -/

/-- Levels of nesting that a text may have, plus one. -/
def budget : Nat := 128

def text (read : Reader α) (s : String) : Except ReadError α := do
  let (x, trailing) := Outline.ofText s
  let v ← read budget x
  closing trailing
  pure v

end Reader

mutual

/-- The outline of a value's own text. -/
def outline : Json → Outline
  | .null => .null
  | .bool b => .bool b
  | .int n => .number (some (.int n))
  | .double x => .number (some (.double x))
  | .str s => .text (.ok s)
  | .arr items => .items (outlineItems items) none
  | .obj members => .members (outlineMembers members) none

def outlineItems : List Json → List Outline
  | [] => []
  | x :: xs => outline x :: outlineItems xs

def outlineMembers : List (String × Json) → List (Except ReadError String × Outline)
  | [] => []
  | (k, v) :: ms => (.ok k, outline v) :: outlineMembers ms

/-- Levels of nesting of a value. -/
def depth : Json → Nat
  | .arr items => depthItems items + 1
  | .obj members => depthMembers members + 1
  | _ => 0

def depthItems : List Json → Nat
  | [] => 0
  | x :: xs => max (depth x) (depthItems xs)

def depthMembers : List (String × Json) → Nat
  | [] => 0
  | (_, v) :: ms => max (depth v) (depthMembers ms)

end

/-- Reads a JSON value as another type: whatever is wrong with it is its shape. -/
def Reader.value {α : Type} (read : Reader α) (j : Json) : Except ReadError α :=
  (read (j.depth + 1) j.outline).mapError fun _ => .data

end SchemaClient.Json
