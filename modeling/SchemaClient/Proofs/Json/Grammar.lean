import Mathlib.Data.List.DropRight
import SchemaClient.Json.Reader
import SchemaClient.Proofs.Text.Characters
import SchemaClient.Proofs.Text.Scanning

/-!
# JSON by its grammar

The grammar of JSON text relates texts to outlines, and what is JSON by the grammar is scanned to
its outline. This holds with any blanks and any escapes. Where a number ends depends on what
follows it; nothing that may follow a value continues a number.
-/

namespace SchemaClient.Json.Outline

open Text

/-! ## What is scanned in a text -/

/-- Scanning `cs` with any fuel that covers what is read gives `x` and leaves `rest`. -/
def ScansTo (cs : List Char) (x : Outline) (rest : List Char) : Prop :=
  ∀ fuel, cs.length ≤ fuel + rest.length → scan fuel cs = (x, some rest)

def ItemsTo (cs : List Char) (xs : List Outline) (rest : List Char) : Prop :=
  ∀ fuel, cs.length ≤ fuel + rest.length → scanItems fuel cs = (xs, none, some rest)

def MembersTo (cs : List Char) (ms : List (Except ReadError String × Outline))
    (rest : List Char) : Prop :=
  ∀ fuel, cs.length ≤ fuel + rest.length → scanMembers fuel cs = (ms, none, some rest)

/-- Between quotes these characters have the content, whatever follows. -/
def Quoted (cs : List Char) (content : Except ReadError String) : Prop :=
  ∀ rest, string (.ok []) 0 (cs ++ '"' :: rest) = ⟨content, .ok rest⟩

section Scanning

variable {cs ds es rest gap : List Char} {x : Outline} {xs : List Outline}
  {ms : List (Except ReadError String × Outline)} {fuel : Nat}

theorem skipSpace_append (blank : ∀ c ∈ gap, isSpace c) : skipSpace (gap ++ cs) = skipSpace cs :=
  List.dropWhile_append_of_pos blank

@[simp] theorem skipSpace_skipSpace (cs : List Char) : skipSpace (skipSpace cs) = skipSpace cs :=
  List.dropWhile_idempotent _ _

theorem skipSpace_cons {c : Char} (hc : isSpace c = false) (cs : List Char) :
    skipSpace (c :: cs) = c :: cs := by
  simp [skipSpace, hc]

theorem scan_skipSpace (fuel : Nat) (cs : List Char) : scan fuel (skipSpace cs) = scan fuel cs := by
  cases fuel with
  | zero => rfl
  | succ fuel => rw [scan, scan, skipSpace_skipSpace]

theorem scanItems_skipSpace (fuel : Nat) (cs : List Char) :
    scanItems fuel (skipSpace cs) = scanItems fuel cs := by
  cases fuel with
  | zero => rfl
  | succ fuel => rw [scanItems, scanItems, scan_skipSpace]

theorem scanMembers_skipSpace (fuel : Nat) (cs : List Char) :
    scanMembers fuel (skipSpace cs) = scanMembers fuel cs := by
  cases fuel with
  | zero => rfl
  | succ fuel => rw [scanMembers, scanMembers, skipSpace_skipSpace]

/-- Where a value is found stands neither the end of the text nor a closing bracket. -/
theorem exists_head_of_scan (h : scan fuel cs = (x, some rest)) :
    ∃ c es, skipSpace cs = c :: es ∧ c ≠ ']' := by
  cases fuel with
  | zero => simp [scan, stop] at h
  | succ fuel =>
    rw [scan] at h
    cases head : skipSpace cs with
    | nil => simp [head, stop] at h
    | cons c es =>
      refine ⟨c, es, rfl, ?_⟩
      rintro rfl
      simp [head, stop, isDigit] at h

theorem ScansTo.length_lt (h : ScansTo cs x rest) : rest.length < cs.length := by
  by_contra short
  have stopped := h 0 (by omega)
  simp [scan, stop] at stopped

theorem ItemsTo.length_lt (h : ItemsTo cs xs rest) : rest.length < cs.length := by
  by_contra short
  have stopped := h 0 (by omega)
  simp [scanItems] at stopped

theorem MembersTo.length_lt (h : MembersTo cs ms rest) : rest.length < cs.length := by
  by_contra short
  have stopped := h 0 (by omega)
  simp [scanMembers] at stopped

theorem ItemsTo.exists_head (h : ItemsTo cs xs rest) :
    ∃ c es, skipSpace cs = c :: es ∧ c ≠ ']' := by
  have whole := h (cs.length + 1) (by omega)
  rw [scanItems] at whole
  match hscan : scan cs.length cs with
  | (y, none) => simp [hscan] at whole
  | (y, some left) => exact exists_head_of_scan hscan

/-! ## Containers -/

theorem ScansTo.skip (h : ScansTo cs x rest) (blank : ∀ c ∈ gap, isSpace c) :
    ScansTo (gap ++ cs) x rest := by
  intro fuel enough
  rw [List.length_append] at enough
  rw [← scan_skipSpace, skipSpace_append blank, scan_skipSpace]
  exact h fuel (by omega)

theorem MembersTo.skip (h : MembersTo cs ms rest) (blank : ∀ c ∈ gap, isSpace c) :
    MembersTo (gap ++ cs) ms rest := by
  intro fuel enough
  rw [List.length_append] at enough
  rw [← scanMembers_skipSpace, skipSpace_append blank, scanMembers_skipSpace]
  exact h fuel (by omega)

theorem length_lt_of_skipSpace {c : Char} (h : skipSpace ds = c :: rest) :
    rest.length < ds.length := by
  have dropped := (List.dropWhile_suffix isSpace (l := ds)).length_le
  rw [← skipSpace, h, List.length_cons] at dropped
  omega

/-- Fuel that covers what is read cannot be used up before something is read. -/
theorem forall_covering {P : Nat → Prop} {n k : Nat} (read : k < n)
    (step : ∀ fuel, n ≤ fuel + 1 + k → P (fuel + 1)) : ∀ fuel, n ≤ fuel + k → P fuel := by
  intro fuel enough
  cases fuel with
  | zero => omega
  | succ fuel => exact step fuel enough

theorem ScansTo.last_item (h : ScansTo cs x ds) (close : skipSpace ds = ']' :: rest) :
    ItemsTo cs [x] rest := by
  have shorter := h.length_lt
  have after := length_lt_of_skipSpace close
  refine forall_covering (by omega) fun fuel enough => ?_
  rw [scanItems, h fuel (by omega)]
  simp [close]

theorem ScansTo.cons_item (h : ScansTo cs x ds) (comma : skipSpace ds = ',' :: es)
    (later : ItemsTo es xs rest) : ItemsTo cs (x :: xs) rest := by
  have shorter := h.length_lt
  have after := later.length_lt
  have behind := length_lt_of_skipSpace comma
  obtain ⟨c, fs, head, hc⟩ := later.exists_head
  refine forall_covering (by omega) fun fuel enough => ?_
  have remaining := later fuel (by omega)
  rw [← scanItems_skipSpace, head] at remaining
  rw [scanItems, h fuel (by omega)]
  simp [comma, head, hc, remaining]

theorem ItemsTo.array (h : ItemsTo cs xs rest) : ScansTo ('[' :: cs) (.items xs none) rest := by
  have shorter := h.length_lt
  obtain ⟨c, es, head, hc⟩ := h.exists_head
  refine forall_covering (Nat.lt_succ_of_lt shorter) fun fuel enough => ?_
  have whole := h fuel (by rw [List.length_cons] at enough; omega)
  rw [← scanItems_skipSpace, head] at whole
  rw [scan, skipSpace_cons rfl]
  simp [isDigit, head, hc, whole]

theorem MembersTo.exists_head (h : MembersTo cs ms rest) :
    ∃ c es, skipSpace cs = c :: es ∧ c ≠ '\x7d' := by
  have whole := h (cs.length + 1) (by omega)
  rw [scanMembers] at whole
  cases head : skipSpace cs with
  | nil => simp [head] at whole
  | cons c es =>
    refine ⟨c, es, rfl, ?_⟩
    rintro rfl
    simp [head] at whole

theorem length_quoted (ks after : List Char) :
    ('"' :: (ks ++ '"' :: after)).length = ks.length + after.length + 2 := by
  rw [List.length_cons, List.length_append, List.length_cons]
  omega

section Members

variable {ks after : List Char} {key : Except ReadError String}

theorem ScansTo.last_member (quoted : Quoted ks key) (colon : skipSpace after = ':' :: cs)
    (h : ScansTo cs x ds) (close : skipSpace ds = '\x7d' :: rest) :
    MembersTo ('"' :: (ks ++ '"' :: after)) [(key, x)] rest := by
  have shorter := h.length_lt
  have behindKey := length_lt_of_skipSpace colon
  have behindValue := length_lt_of_skipSpace close
  have length := length_quoted ks after
  refine forall_covering (by omega) fun fuel enough => ?_
  have value := h fuel (by omega)
  rw [scanMembers, skipSpace_cons rfl]
  simp [quoted after, colon, value, close]

theorem ScansTo.cons_member (quoted : Quoted ks key) (colon : skipSpace after = ':' :: cs)
    (h : ScansTo cs x ds) (comma : skipSpace ds = ',' :: es) (later : MembersTo es ms rest) :
    MembersTo ('"' :: (ks ++ '"' :: after)) ((key, x) :: ms) rest := by
  have shorter := h.length_lt
  have behindKey := length_lt_of_skipSpace colon
  have behindValue := length_lt_of_skipSpace comma
  have last := later.length_lt
  have length := length_quoted ks after
  refine forall_covering (by omega) fun fuel enough => ?_
  have value := h fuel (by omega)
  have remaining := later fuel (by omega)
  rw [scanMembers, skipSpace_cons rfl]
  simp [quoted after, colon, value, comma, remaining]

end Members

theorem MembersTo.object (h : MembersTo cs ms rest) :
    ScansTo ('\x7b' :: cs) (.members ms none) rest := by
  have shorter := h.length_lt
  obtain ⟨c, es, head, hc⟩ := h.exists_head
  refine forall_covering (Nat.lt_succ_of_lt shorter) fun fuel enough => ?_
  have whole := h fuel (by rw [List.length_cons] at enough; omega)
  rw [← scanMembers_skipSpace, head] at whole
  rw [scan, skipSpace_cons rfl]
  simp [isDigit, head, hc, whole]

theorem scansTo_null (rest : List Char) :
    ScansTo ('n' :: 'u' :: 'l' :: 'l' :: rest) .null rest := by
  refine forall_covering (by simp only [List.length_cons]; omega) fun fuel _ => ?_
  simp [scan, skipSpace_cons, isSpace, word]

theorem scansTo_true (rest : List Char) :
    ScansTo ('t' :: 'r' :: 'u' :: 'e' :: rest) (.bool true) rest := by
  refine forall_covering (by simp only [List.length_cons]; omega) fun fuel _ => ?_
  simp [scan, skipSpace_cons, isSpace, word]

theorem scansTo_false (rest : List Char) :
    ScansTo ('f' :: 'a' :: 'l' :: 's' :: 'e' :: rest) (.bool false) rest := by
  refine forall_covering (by simp only [List.length_cons]; omega) fun fuel _ => ?_
  simp [scan, skipSpace_cons, isSpace, word]

theorem scansTo_string {ks : List Char} {content : Except ReadError String}
    (quoted : Quoted ks content) (rest : List Char) :
    ScansTo ('"' :: (ks ++ '"' :: rest)) (.text content) rest := by
  have length := length_quoted ks rest
  refine forall_covering (by omega) fun fuel _ => ?_
  rw [scan, skipSpace_cons rfl]
  simp [text?, quoted rest]

theorem scansTo_emptyArray (close : skipSpace ds = ']' :: rest) :
    ScansTo ('[' :: ds) (.items [] none) rest := by
  have shorter := length_lt_of_skipSpace close
  refine forall_covering (Nat.lt_succ_of_lt shorter) fun fuel _ => ?_
  rw [scan, skipSpace_cons rfl]
  simp [isDigit, close]

theorem scansTo_emptyObject (close : skipSpace ds = '\x7d' :: rest) :
    ScansTo ('\x7b' :: ds) (.members [] none) rest := by
  have shorter := length_lt_of_skipSpace close
  refine forall_covering (Nat.lt_succ_of_lt shorter) fun fuel _ => ?_
  rw [scan, skipSpace_cons rfl]
  simp [isDigit, close]

end Scanning

/-- A text in which one value is scanned to the end has its outline. -/
theorem ofText_of_scansTo {cs gap : List Char} {x : Outline} (blank : ∀ c ∈ gap, isSpace c)
    (h : ScansTo cs x gap) : ofText (String.ofList cs) = (x, none) := by
  have shorter := h.length_lt
  have nothing : skipSpace gap = [] := List.dropWhile_eq_nil_iff.mpr blank
  rw [ofText, String.toList_ofList, h _ (by omega)]
  simp [nothing]

/-! ## Strings -/

/-- A character of a string, or a code unit, which may be half a character. -/
inductive Piece
  | char (c : Char)
  | unit (n : Nat)

/-- The characters between the quotes of a string, with the pieces that they stand for. -/
inductive Characters : List Char → List Piece → Prop
  | nil : Characters [] []
  | plain {c : Char} {cs : List Char} {ps : List Piece} (quote : c ≠ '"') (slash : c ≠ '\\')
      (printable : 0x20 ≤ c.toNat) (rest : Characters cs ps) :
      Characters (c :: cs) (.char c :: ps)
  | escaped {e c : Char} {cs : List Char} {ps : List Piece} (escape : simpleEscape e = some c)
      (rest : Characters cs ps) : Characters ('\\' :: e :: cs) (.char c :: ps)
  | unit {a b c d : Char} {i j k l : Nat} {cs : List Char} {ps : List Piece}
      (first : hexValue a = some i) (second : hexValue b = some j) (third : hexValue c = some k)
      (fourth : hexValue d = some l) (rest : Characters cs ps) :
      Characters ('\\' :: 'u' :: a :: b :: c :: d :: cs)
        (.unit (((i * 16 + j) * 16 + k) * 16 + l) :: ps)

/-- The text of pieces; a high half needs a low one behind it. -/
def textOf : List Piece → Option (List Char)
  | [] => some []
  | .char c :: ps => (textOf ps).map (c :: ·)
  | .unit n :: ps =>
    if isLowSurrogate n then none
    else if isHighSurrogate n then
      match ps with
      | .unit low :: ps =>
        if isLowSurrogate low then
          (textOf ps).map (Char.ofNat (0x10000 + (n - 0xD800) * 0x400 + (low - 0xDC00)) :: ·)
        else none
      | _ => none
    else (textOf ps).map (Char.ofNat n :: ·)

/-- What is read of a string. -/
def content (ps : List Piece) : Except ReadError String :=
  match textOf ps with
  | some cs => .ok (String.ofList cs)
  | none => .error .malformed

/-- Reading the characters adds their text to a draft, or makes it faulty. -/
def Adds (cs : List Char) (ps : List Piece) : Prop :=
  ∀ (draft : Draft) (rest : List Char), string draft 0 (cs ++ '"' :: rest) =
    ⟨draft.bind fun before =>
      match textOf ps with
      | some cs => .ok (String.ofList (before.reverse ++ cs))
      | none => .error .malformed, .ok rest⟩

section Strings

variable {cs : List Char} {ps : List Piece}

theorem textOf_unit (n : Nat) (ps : List Piece) : textOf (.unit n :: ps) =
    if isLowSurrogate n then none
    else if isHighSurrogate n then
      match ps with
      | .unit low :: ps =>
        if isLowSurrogate low then
          (textOf ps).map (Char.ofNat (0x10000 + (n - 0xD800) * 0x400 + (low - 0xDC00)) :: ·)
        else none
      | _ => none
    else (textOf ps).map (Char.ofNat n :: ·) := by
  rcases ps with _ | ⟨_ | _, ps⟩ <;> rfl

theorem string_passed (draft : Draft) (w cs : List Char) :
    string draft w.length (w ++ cs) = string draft 0 cs := by
  induction w with
  | nil => rfl
  | cons c w ih =>
    rw [List.cons_append, List.length_cons, string]
    exact ih

theorem hexUnit_cons {a b c d : Char} {i j k l : Nat} (first : hexValue a = some i)
    (second : hexValue b = some j) (third : hexValue c = some k) (fourth : hexValue d = some l)
    (cs : List Char) :
    hexUnit (a :: b :: c :: d :: cs) = .ok (((i * 16 + j) * 16 + k) * 16 + l) := by
  simp only [hexUnit, first, second, third, fourth]

/-- Only a low half is taken for the second half of a character. -/
theorem lowHalf_characters (h : Characters cs ps) (rest : List Char) :
    lowHalf (cs ++ '"' :: rest) =
      match ps with
      | .unit low :: _ => if isLowSurrogate low then .ok low else .error .malformed
      | _ => .error .malformed := by
  cases h with
  | nil => rfl
  | plain quote slash printable rest => simp [lowHalf, slash]
  | @escaped e c cs ps escape rest =>
    have other : e ≠ 'u' := by
      rintro rfl
      cases escape
    simp [lowHalf, other]
  | unit first second third fourth _ =>
    have digits := hexUnit_cons first second third fourth
    simp only [List.cons_append, lowHalf, digits]
    split <;> simp [*, pure, Except.pure, bind, Except.bind, throw, throwThe, MonadExceptOf.throw]

theorem adds_nil : Adds [] [] := by
  intro draft rest
  cases draft <;> simp [string, textOf, Except.map, Except.bind]

/-- A step over some characters that adds one to the text. -/
theorem Adds.step {w : List Char} {c : Char} {qs : List Piece} (h : Adds cs ps)
    (added : ∀ draft rest, string draft 0 (w ++ (cs ++ '"' :: rest)) =
      string (draft.map (c :: ·)) 0 (cs ++ '"' :: rest))
    (text : textOf qs = (textOf ps).map (c :: ·)) : Adds (w ++ cs) qs := by
  intro draft rest
  rw [List.append_assoc, added, h, text]
  cases draft with
  | error e => rfl
  | ok before => cases textOf ps <;> simp [Except.map, Except.bind]

/-- A step that finds a fault, after which nothing is added. -/
theorem Adds.fault {w : List Char} {qs : List Piece} (h : Adds cs ps)
    (faulty : ∀ draft rest, string draft 0 (w ++ (cs ++ '"' :: rest)) =
      string (draft.bind fun _ => .error .malformed) 0 (cs ++ '"' :: rest))
    (text : textOf qs = none) : Adds (w ++ cs) qs := by
  intro draft rest
  rw [List.append_assoc, faulty, h, text]
  cases draft <;> rfl

theorem string_unit {a b c d : Char} {i j k l : Nat} (first : hexValue a = some i)
    (second : hexValue b = some j) (third : hexValue c = some k) (fourth : hexValue d = some l)
    (draft : Draft) (rest : List Char) :
    string draft 0 ('\\' :: 'u' :: a :: b :: c :: d :: rest) =
      match escapedUnit (((i * 16 + j) * 16 + k) * 16 + l) rest with
      | .error e => string (draft.bind fun _ => .error e) 0 rest
      | .ok (x, more) => string (draft.map (x :: ·)) more rest := by
  have passed (draft : Draft) (more : Nat) :
      string draft (5 + more) ('u' :: a :: b :: c :: d :: rest) = string draft more rest := by
    rw [Nat.add_comm]
    rfl
  rw [string, if_neg (by decide), if_pos rfl]
  simp only [hexUnit_cons first second third fourth, List.drop_succ_cons, List.drop_zero]
  cases escapedUnit (((i * 16 + j) * 16 + k) * 16 + l) rest with
  | error e => exact passed _ 0
  | ok r => exact passed _ r.2

/-- What follows a code unit matters if it is the first half of a character: with the second half
it adds one character, and the characters behind both are read next. -/
theorem adds_unit {a b c d : Char} {i j k l : Nat} (first : hexValue a = some i)
    (second : hexValue b = some j) (third : hexValue c = some k) (fourth : hexValue d = some l)
    (h : Characters cs ps) (adds : Adds cs ps)
    (behind : ∀ low qs, ps = .unit low :: qs → ∃ w ds, w.length = 6 ∧ cs = w ++ ds ∧ Adds ds qs) :
    Adds ('\\' :: 'u' :: a :: b :: c :: d :: cs)
      (.unit (((i * 16 + j) * 16 + k) * 16 + l) :: ps) := by
  have step := string_unit first second third fourth
  generalize ((i * 16 + j) * 16 + k) * 16 + l = n at step ⊢
  change Adds (['\\', 'u', a, b, c, d] ++ cs) _
  cases low : isLowSurrogate n with
  | true =>
    refine adds.fault (fun draft rest => ?_) (by simp [textOf_unit, low])
    exact (step draft _).trans (by simp [escapedUnit, low])
  | false =>
    cases high : isHighSurrogate n with
    | false =>
      refine adds.step (c := Char.ofNat n) (fun draft rest => ?_) (by simp [textOf_unit, low, high])
      exact (step draft _).trans (by simp [escapedUnit, low, high])
    | true =>
      have half := lowHalf_characters h
      cases ps with
      | nil =>
        refine adds.fault (fun draft rest => ?_) (by simp [textOf_unit, low, high])
        exact (step draft _).trans (by simp [escapedUnit, low, high, half, bind, Except.bind])
      | cons p ps =>
        cases p with
        | char c =>
          refine adds.fault (fun draft rest => ?_) (by simp [textOf_unit, low, high])
          exact (step draft _).trans (by simp [escapedUnit, low, high, half, bind, Except.bind])
        | unit m =>
          cases second : isLowSurrogate m with
          | false =>
            refine adds.fault (fun draft rest => ?_) (by simp [textOf_unit, low, high, second])
            exact (step draft _).trans
              (by simp [escapedUnit, low, high, half, second, bind, Except.bind])
          | true =>
            obtain ⟨w, ds, six, rfl, later⟩ := behind m ps rfl
            rw [← List.append_assoc]
            refine later.step
              (c := Char.ofNat (0x10000 + (n - 0xD800) * 0x400 + (m - 0xDC00)))
              (fun draft rest => ?_) (by simp [textOf_unit, low, high, second])
            have passed := string_passed
              (draft.map (Char.ofNat (0x10000 + (n - 0xD800) * 0x400 + (m - 0xDC00)) :: ·)) w
              (ds ++ '"' :: rest)
            rw [six] at passed
            have half := half rest
            rw [List.append_assoc] at half ⊢
            exact (step draft _).trans
              (by simp [escapedUnit, low, high, half, second, bind, Except.bind, pure, Except.pure,
                passed])

theorem adds_characters (h : Characters cs ps) : Adds cs ps ∧
    ∀ low qs, ps = .unit low :: qs → ∃ w ds, w.length = 6 ∧ cs = w ++ ds ∧ Adds ds qs := by
  induction h with
  | nil => exact ⟨adds_nil, fun _ _ h => nomatch h⟩
  | @plain c cs ps quote slash printable _ ih =>
    refine ⟨ih.1.step (w := [c]) (c := c) (fun draft rest => ?_) rfl, fun _ _ h => nomatch h⟩
    have printable : ¬ c.toNat < 0x20 := by omega
    simp [string, quote, slash, printable]
  | @escaped e c cs ps escape _ ih =>
    refine ⟨ih.1.step (w := ['\\', e]) (c := c) (fun draft rest => ?_) rfl,
      fun _ _ h => nomatch h⟩
    have other : e ≠ 'u' := by
      rintro rfl
      cases escape
    simp [string, escape]
  | @unit a b c d _ _ _ _ cs ps first second third fourth h ih =>
    refine ⟨adds_unit first second third fourth h ih.1 ih.2, ?_⟩
    rintro low qs ⟨⟩
    exact ⟨['\\', 'u', a, b, c, d], cs, rfl, rfl, ih.1⟩

theorem content_chars (w : String) : content (w.toList.map .char) = .ok w := by
  have text : ∀ cs : List Char, textOf (cs.map .char) = some cs := fun cs => by
    induction cs with
    | nil => rfl
    | cons c cs ih => rw [List.map_cons, textOf, ih, Option.map_some]
  simp [content, text]

/-- A text that needs no escapes. -/
theorem characters_of_plain (w : String)
    (plain : ∀ c ∈ w.toList, c ≠ '"' ∧ c ≠ '\\' ∧ 0x20 ≤ c.toNat) :
    Characters w.toList (w.toList.map .char) := by
  generalize w.toList = cs at plain
  induction cs with
  | nil => exact .nil
  | cons c cs ih =>
    obtain ⟨⟨quote, slash, printable⟩, rest⟩ := List.forall_mem_cons.mp plain
    exact .plain quote slash printable (ih rest)

theorem quoted_characters (h : Characters cs ps) : Quoted cs (content ps) := by
  intro rest
  rw [(adds_characters h).1, content]
  cases textOf ps <;> rfl

end Strings

/-! ## Numbers -/

/-- One digit or more. -/
def IsDigits (ds : List Char) : Prop :=
  ds ≠ [] ∧ ∀ c ∈ ds, isDigit c = true

/-- The digits of a whole number: only a lone zero starts with a zero. -/
structure IsWhole (ds : List Char) : Prop where
  digits : IsDigits ds
  zero : ds.head? = some '0' → ds = ['0']

/-- The sign of an exponent, and whether it is a minus sign. -/
inductive ExponentSign : List Char → Bool → Prop
  | none : ExponentSign [] false
  | plus : ExponentSign ['+'] false
  | minus : ExponentSign ['-'] true

/-- A number behind its sign, and its value. -/
inductive Unsigned (negative : Bool) : List Char → Option Number → Prop
  | integer {ds : List Char} (whole : IsWhole ds) : Unsigned negative ds (integer negative ds)
  | fraction {ds fs : List Char} (whole : IsWhole ds) (fraction : IsDigits fs) :
      Unsigned negative (ds ++ '.' :: fs) (decimal negative ds fs none)
  | exponent {ds s xs : List Char} {e : Char} {down : Bool} (whole : IsWhole ds)
      (mark : e = 'e' ∨ e = 'E') (sign : ExponentSign s down) (exponent : IsDigits xs) :
      Unsigned negative (ds ++ e :: (s ++ xs)) (decimal negative ds [] (some (down, xs)))
  | both {ds fs s xs : List Char} {e : Char} {down : Bool} (whole : IsWhole ds)
      (fraction : IsDigits fs) (mark : e = 'e' ∨ e = 'E') (sign : ExponentSign s down)
      (exponent : IsDigits xs) :
      Unsigned negative (ds ++ '.' :: (fs ++ e :: (s ++ xs)))
        (decimal negative ds fs (some (down, xs)))

/-- Characters that a number may go on with. -/
def continuesNumber (c : Char) : Bool :=
  isDigit c || c = '.' || c = 'e' || c = 'E'

section Numbers

variable {negative down : Bool} {whole fraction ds s cs rest : List Char} {e : Char}
  {v : Option Number}

theorem digits_run (h : IsDigits ds) (stops : Stops isDigit cs) : digits (ds ++ cs) = (ds, cs) := by
  rw [digits, takeWhile_run h.2 stops, dropWhile_run h.2 stops]

theorem stops_digit (h : Stops continuesNumber rest) : Stops isDigit rest :=
  h.mono fun c hc => by simp [continuesNumber, hc]

theorem exponentPart_eq (sign : ExponentSign s down) (h : IsDigits ds)
    (stops : Stops isDigit rest) :
    exponentPart negative whole fraction (s ++ ds ++ rest) =
      (.number (decimal negative whole fraction (some (down, ds))), some rest) := by
  have run := digits_run h stops
  cases sign with
  | none =>
    obtain ⟨d, ds, rfl⟩ := List.exists_cons_of_ne_nil h.1
    have digit := h.2 d List.mem_cons_self
    have plus : d ≠ '+' := by
      rintro rfl
      cases digit
    have minus : d ≠ '-' := by
      rintro rfl
      cases digit
    rw [List.cons_append] at run
    simp [exponentPart, plus, minus, run]
  | plus => simp [exponentPart, run, h.1]
  | minus => simp [exponentPart, run, h.1]

theorem afterFraction_eq (h : Stops continuesNumber rest) :
    afterFraction negative whole fraction rest =
      (.number (decimal negative whole fraction none), some rest) := by
  unfold afterFraction
  split
  · cases h.head
  · cases h.head
  · rfl

theorem afterFraction_mark (mark : e = 'e' ∨ e = 'E') (cs : List Char) :
    afterFraction negative whole fraction (e :: cs) =
      exponentPart negative whole fraction cs := by
  rcases mark with rfl | rfl <;> rfl

theorem stops_mark (mark : e = 'e' ∨ e = 'E') (cs : List Char) : Stops isDigit (e :: cs) := by
  rcases mark with rfl | rfl <;> exact Stops.cons rfl

theorem number?_whole (h : IsWhole ds) (stops : Stops isDigit cs) :
    number? negative (ds ++ cs) = afterWhole negative ds cs := by
  rw [number?, digits_run h.digits stops]
  dsimp only
  split
  · exact absurd rfl h.digits.1
  · cases h.zero rfl
  · rfl

theorem number?_unsigned (h : Unsigned negative cs v) (stops : Stops continuesNumber rest) :
    number? negative (cs ++ rest) = (.number v, some rest) := by
  have last := stops_digit stops
  cases h with
  | integer whole =>
    rw [number?_whole whole last]
    unfold afterWhole
    split
    · cases stops.head
    · cases stops.head
    · cases stops.head
    · rfl
  | @fraction ds fs whole fraction =>
    rw [List.append_assoc, List.cons_append, number?_whole whole (Stops.cons rfl), afterWhole,
      digits_run fraction last]
    simp [fraction.1, afterFraction_eq stops]
  | @exponent ds s xs e down whole mark sign exponent =>
    rw [List.append_assoc, List.cons_append, number?_whole whole (stops_mark mark _)]
    have part : exponentPart negative ds [] (s ++ xs ++ rest) =
        (.number (decimal negative ds [] (some (down, xs))), some rest) :=
      exponentPart_eq sign exponent last
    rcases mark with rfl | rfl <;> exact part
  | @both ds fs s xs e down whole fraction mark sign exponent =>
    rw [List.append_assoc, List.cons_append, List.append_assoc, List.cons_append,
      number?_whole whole (Stops.cons rfl), afterWhole, digits_run fraction (stops_mark mark _)]
    have part : exponentPart negative ds fs (s ++ xs ++ rest) =
        (.number (decimal negative ds fs (some (down, xs))), some rest) :=
      exponentPart_eq sign exponent last
    simpa [fraction.1, afterFraction_mark mark] using part

theorem Unsigned.exists_digit (h : Unsigned negative cs v) :
    ∃ d ds, cs = d :: ds ∧ isDigit d = true := by
  have first {ds : List Char} (h : IsWhole ds) (rest : List Char) :
      ∃ d es, ds ++ rest = d :: es ∧ isDigit d = true := by
    obtain ⟨d, ds, rfl⟩ := List.exists_cons_of_ne_nil h.digits.1
    exact ⟨d, ds ++ rest, rfl, h.digits.2 d List.mem_cons_self⟩
  cases h with
  | integer whole =>
    have := first whole []
    rwa [List.append_nil] at this
  | fraction whole => exact first whole _
  | exponent whole => exact first whole _
  | both whole => exact first whole _

end Numbers

/-! ## Values -/

def Blank (g : List Char) : Prop :=
  ∀ c ∈ g, isSpace c = true

mutual

/-- The texts of a value, from its first character to its last one. -/
inductive Spells : List Char → Outline → Prop
  | null : Spells ['n', 'u', 'l', 'l'] .null
  | true : Spells ['t', 'r', 'u', 'e'] (.bool true)
  | false : Spells ['f', 'a', 'l', 's', 'e'] (.bool false)
  | natural {cs : List Char} {v : Option Number} (h : Unsigned false cs v) : Spells cs (.number v)
  | negative {cs : List Char} {v : Option Number} (h : Unsigned true cs v) :
      Spells ('-' :: cs) (.number v)
  | string {cs : List Char} {ps : List Piece} (h : Characters cs ps) :
      Spells ('"' :: (cs ++ ['"'])) (.text (content ps))
  | emptyArray {g : List Char} (gap : Blank g) : Spells ('[' :: (g ++ [']'])) (.items [] none)
  | array {cs : List Char} {xs : List Outline} (h : SpellsItems cs xs) :
      Spells ('[' :: (cs ++ [']'])) (.items xs none)
  | emptyObject {g : List Char} (gap : Blank g) :
      Spells ('\x7b' :: (g ++ ['\x7d'])) (.members [] none)
  | object {cs : List Char} {ms : List (Except ReadError String × Outline)}
      (h : SpellsMembers cs ms) : Spells ('\x7b' :: (cs ++ ['\x7d'])) (.members ms none)

/-- The texts of one element or more, with commas between them. -/
inductive SpellsItems : List Char → List Outline → Prop
  | last {g cs g' : List Char} {x : Outline} (before : Blank g) (h : Spells cs x)
      (behind : Blank g') : SpellsItems (g ++ (cs ++ g')) [x]
  | cons {g cs g' ds : List Char} {x : Outline} {xs : List Outline} (before : Blank g)
      (h : Spells cs x) (behind : Blank g') (later : SpellsItems ds xs) :
      SpellsItems (g ++ (cs ++ (g' ++ ',' :: ds))) (x :: xs)

/-- The texts of one member or more, with commas between them. -/
inductive SpellsMembers : List Char → List (Except ReadError String × Outline) → Prop
  | last {g ks gk gv cs g' : List Char} {ps : List Piece} {x : Outline} (before : Blank g)
      (key : Characters ks ps) (afterKey : Blank gk) (beforeValue : Blank gv) (h : Spells cs x)
      (behind : Blank g') :
      SpellsMembers (g ++ '"' :: (ks ++ '"' :: (gk ++ ':' :: (gv ++ (cs ++ g'))))) [(content ps, x)]
  | cons {g ks gk gv cs g' ds : List Char} {ps : List Piece} {x : Outline}
      {ms : List (Except ReadError String × Outline)} (before : Blank g)
      (key : Characters ks ps) (afterKey : Blank gk) (beforeValue : Blank gv) (h : Spells cs x)
      (behind : Blank g') (later : SpellsMembers ds ms) :
      SpellsMembers
        (g ++ '"' :: (ks ++ '"' :: (gk ++ ':' :: (gv ++ (cs ++ (g' ++ ',' :: ds))))))
        ((content ps, x) :: ms)

end

/-- A text is JSON, with this outline. -/
def Spelt (s : String) (x : Outline) : Prop :=
  ∃ g cs g', s.toList = g ++ (cs ++ g') ∧ Blank g ∧ Spells cs x ∧ Blank g'

section Values

variable {g cs rest : List Char} {c : Char} {v : Option Number}

theorem skipSpace_gap (gap : Blank g) (hc : isSpace c = false) (cs : List Char) :
    skipSpace (g ++ c :: cs) = c :: cs := by
  rw [skipSpace_append gap, skipSpace_cons hc]

theorem stops_gap (gap : Blank g) (h : Stops continuesNumber rest) :
    Stops continuesNumber (g ++ rest) := by
  refine Stops.append ?_ h
  cases g with
  | nil => exact Stops.nil
  | cons c g =>
    have space := gap c List.mem_cons_self
    simp only [isSpace, Bool.or_eq_true, decide_eq_true_eq] at space
    rcases space with ((rfl | rfl) | rfl) | rfl <;> exact Stops.cons rfl

theorem scansTo_natural (h : Unsigned false cs v) (stops : Stops continuesNumber rest) :
    ScansTo (cs ++ rest) (.number v) rest := by
  have number := number?_unsigned h stops
  obtain ⟨d, ds, rfl, digit⟩ := h.exists_digit
  have table : ∀ c ∈ [' ', '\n', '\t', '\r', 'n', 't', 'f', '"', '-'], isDigit c = false := by
    decide
  have other : ∀ c ∈ [' ', '\n', '\t', '\r', 'n', 't', 'f', '"', '-'], d ≠ c :=
    fun c hc => ne_of_apply digit (table c hc)
  have space : isSpace d = false := by simp [isSpace, other]
  rw [List.cons_append] at number ⊢
  have read : rest.length < (d :: (ds ++ rest)).length := by
    rw [List.length_cons, List.length_append]
    omega
  refine forall_covering read fun fuel _ => ?_
  rw [scan, skipSpace_cons space]
  simp [other, digit, number]

theorem scansTo_negative (h : Unsigned true cs v) (stops : Stops continuesNumber rest) :
    ScansTo ('-' :: (cs ++ rest)) (.number v) rest := by
  have read : rest.length < ('-' :: (cs ++ rest)).length := by
    rw [List.length_cons, List.length_append]
    omega
  refine forall_covering read fun fuel _ => ?_
  rw [scan, skipSpace_cons rfl]
  simp [number?_unsigned h stops]

mutual

theorem scansTo_spells : ∀ {cs : List Char} {x : Outline}, Spells cs x →
    ∀ rest, Stops continuesNumber rest → ScansTo (cs ++ rest) x rest
  | _, _, .null, rest, _ => scansTo_null rest
  | _, _, .true, rest, _ => scansTo_true rest
  | _, _, .false, rest, _ => scansTo_false rest
  | _, _, .natural h, _, stops => scansTo_natural h stops
  | _, _, .negative h, _, stops => scansTo_negative h stops
  | _, _, .string h, rest, _ => by
    have := scansTo_string (quoted_characters h) rest
    simpa using this
  | _, _, .emptyArray gap, rest, _ => by
    have := scansTo_emptyArray (skipSpace_gap gap (c := ']') rfl rest)
    simpa using this
  | _, _, .array h, rest, _ => by
    have := (itemsTo_spells h rest).array
    simpa using this
  | _, _, .emptyObject gap, rest, _ => by
    have := scansTo_emptyObject (skipSpace_gap gap (c := '\x7d') rfl rest)
    simpa using this
  | _, _, .object h, rest, _ => by
    have := (membersTo_spells h rest).object
    simpa using this

theorem itemsTo_spells : ∀ {cs : List Char} {xs : List Outline}, SpellsItems cs xs →
    ∀ rest, ItemsTo (cs ++ ']' :: rest) xs rest
  | _, _, .last before h behind, rest => by
    have stops : Stops continuesNumber (']' :: rest) := Stops.cons rfl
    have value := scansTo_spells h _ (stops_gap behind stops)
    have := (value.skip before).last_item (skipSpace_gap behind rfl rest)
    simpa using this
  | _, _, @SpellsItems.cons _ _ _ ds _ _ before h behind later, rest => by
    have stops : Stops continuesNumber (',' :: (ds ++ ']' :: rest)) := Stops.cons rfl
    have value := scansTo_spells h _ (stops_gap behind stops)
    have := (value.skip before).cons_item (skipSpace_gap behind rfl _) (itemsTo_spells later rest)
    simpa using this

theorem membersTo_spells : ∀ {cs : List Char} {ms : List (Except ReadError String × Outline)},
    SpellsMembers cs ms → ∀ rest, MembersTo (cs ++ '\x7d' :: rest) ms rest
  | _, _, .last before key afterKey beforeValue h behind, rest => by
    have stops : Stops continuesNumber ('\x7d' :: rest) := Stops.cons rfl
    have value := scansTo_spells h _ (stops_gap behind stops)
    have := ((value.skip beforeValue).last_member (quoted_characters key)
      (skipSpace_gap afterKey rfl _) (skipSpace_gap behind rfl rest)).skip before
    simpa using this
  | _, _, @SpellsMembers.cons _ _ _ _ _ _ ds _ _ _ before key afterKey beforeValue h behind later,
      rest => by
    have stops : Stops continuesNumber (',' :: (ds ++ '\x7d' :: rest)) := Stops.cons rfl
    have value := scansTo_spells h _ (stops_gap behind stops)
    have := ((value.skip beforeValue).cons_member (quoted_characters key)
      (skipSpace_gap afterKey rfl _) (skipSpace_gap behind rfl _)
      (membersTo_spells later rest)).skip before
    simpa using this

end

/-- What is JSON by the grammar is scanned as it is spelt. -/
theorem ofText_of_spelt {s : String} {x : Outline} (h : Spelt s x) : ofText s = (x, none) := by
  obtain ⟨g, cs, g', text, before, spells, behind⟩ := h
  have value := scansTo_spells spells g' (by
    have := stops_gap behind Stops.nil
    rwa [List.append_nil] at this)
  have whole := ofText_of_scansTo behind (value.skip before)
  rwa [← text, String.ofList_toList] at whole

end Values

end SchemaClient.Json.Outline
