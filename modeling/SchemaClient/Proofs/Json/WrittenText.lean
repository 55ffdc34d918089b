import SchemaClient.Json.Printer
import SchemaClient.Proofs.Json.Grammar

/-!
# Written JSON is scanned back

The scanner finds in a written text the outline of the value, whatever follows the text. A string
may hold any characters: each is read back from its escape. Numbers are left aside, since where
one ends depends on what follows it.
-/

namespace SchemaClient.Json

mutual

/-- No numbers occur in the value. -/
def Numberless : Json → Prop
  | .int _ | .double _ => False
  | .arr items => NumberlessItems items
  | .obj members => NumberlessMembers members
  | .null | .bool _ | .str _ => True

def NumberlessItems : List Json → Prop
  | [] => True
  | x :: xs => Numberless x ∧ NumberlessItems xs

def NumberlessMembers : List (String × Json) → Prop
  | [] => True
  | (_, v) :: ms => Numberless v ∧ NumberlessMembers ms

end

namespace Outline

/-! ## Strings -/

theorem hexValue_hexDigit (n : Nat) : hexValue (hexDigit n) = some (n % 16) := by
  have digit : ∀ k < 16, hexValue ((Nat.toDigits 16 k).headD '0') = some k := by decide
  exact digit (n % 16) (Nat.mod_lt n (by omega))

section Strings

variable {c : Char} (ds rest : List Char)

theorem string_control (hc : c.toNat < 0x20) :
    string (.ok ds) 0
        ('\\' :: 'u' :: '0' :: '0' :: hexDigit (c.toNat / 16) :: hexDigit c.toNat :: rest) =
      string (.ok (c :: ds)) 0 rest := by
  have code : ((0 * 16 + 0) * 16 + c.toNat / 16 % 16) * 16 + c.toNat % 16 = c.toNat := by omega
  have unit : hexUnit ('0' :: '0' :: hexDigit (c.toNat / 16) :: hexDigit c.toNat :: rest) =
      .ok c.toNat := by
    have zero : hexValue '0' = some 0 := rfl
    simp only [hexUnit, hexValue_hexDigit, zero, code]
  have low : isLowSurrogate c.toNat = false := by
    simp only [isLowSurrogate, Bool.and_eq_false_iff, decide_eq_false_iff_not]
    omega
  have high : isHighSurrogate c.toNat = false := by
    simp only [isHighSurrogate, Bool.and_eq_false_iff, decide_eq_false_iff_not]
    omega
  have escaped : ∀ cs, escapedUnit c.toNat cs = .ok (c, 0) := by
    intro cs
    simp [escapedUnit, low, high]
  simp [string, unit, escaped, Except.map]

theorem string_plain (quote : c ≠ '"') (slash : c ≠ '\\') (hc : ¬ c.toNat < 0x20) :
    string (.ok ds) 0 (c :: rest) = string (.ok (c :: ds)) 0 rest := by
  simp [string, quote, slash, hc, Except.map]

/-- One written character is read as itself. -/
theorem string_escapeChar (c : Char) :
    string (.ok ds) 0 (escapeChar c ++ rest) = string (.ok (c :: ds)) 0 rest := by
  unfold escapeChar
  split
  · simp [string, simpleEscape, Except.map]
  · simp [string, simpleEscape, Except.map]
  · simp [string, simpleEscape, Except.map]
  · simp [string, simpleEscape, Except.map]
  · simp [string, simpleEscape, Except.map]
  · simp [string, simpleEscape, Except.map]
  · simp [string, simpleEscape, Except.map]
  · rename_i quote slash _ _ _ _ _
    split
    · rename_i hc
      exact string_control ds rest hc
    · rename_i hc
      exact string_plain ds rest quote slash hc

theorem string_written (cs : List Char) :
    string (.ok ds) 0 (cs.flatMap escapeChar ++ '"' :: rest) =
      ⟨.ok (String.ofList (ds.reverse ++ cs)), .ok rest⟩ := by
  induction cs generalizing ds with
  | nil => simp [string, Except.map]
  | cons c cs ih =>
    rw [List.flatMap_cons, List.append_assoc, string_escapeChar, ih]
    simp

end Strings

theorem quoted_written (s : String) : Quoted (s.toList.flatMap escapeChar) (.ok s) := by
  intro rest
  rw [string_written, List.reverse_nil, List.nil_append, String.ofList_toList]

/-! ## Whole values -/

mutual

theorem scansTo_write : ∀ j : Json, j.Numberless → ∀ rest, ScansTo (write j rest) j.outline rest
  | .null, _, rest => scansTo_null rest
  | .bool true, _, rest => scansTo_true rest
  | .bool false, _, rest => scansTo_false rest
  | .str s, _, rest => scansTo_string (quoted_written s) rest
  | .arr [], _, _ => scansTo_emptyArray rfl
  | .arr (x :: xs), h, rest => (itemsTo_write (x :: xs) (by simp) h rest).array
  | .obj [], _, _ => scansTo_emptyObject rfl
  | .obj (m :: ms), h, rest => (membersTo_write (m :: ms) (by simp) h rest).object

theorem itemsTo_write : ∀ xs : List Json, xs ≠ [] → NumberlessItems xs → ∀ rest,
    ItemsTo (writeItems true xs (']' :: rest)) (outlineItems xs) rest
  | [x], _, h, _ => (scansTo_write x h.1 _).last_item rfl
  | x :: y :: ys, _, h, rest =>
    (scansTo_write x h.1 _).cons_item rfl (itemsTo_write (y :: ys) (by simp) h.2 rest)

theorem membersTo_write : ∀ ms : List (String × Json), ms ≠ [] → NumberlessMembers ms → ∀ rest,
    MembersTo (writeMembers true ms ('\x7d' :: rest)) (outlineMembers ms) rest
  | [(k, v)], _, h, _ => (scansTo_write v h.1 _).last_member (quoted_written k) rfl rfl
  | (k, v) :: m :: ms, _, h, rest =>
    (scansTo_write v h.1 _).cons_member (quoted_written k) rfl rfl
      (membersTo_write (m :: ms) (by simp) h.2 rest)

end

theorem newLine_eq (level : Nat) (rest : List Char) :
    newLine level rest = ('\n' :: List.replicate (2 * level) ' ') ++ rest := rfl

theorem isSpace_newLine (level : Nat) :
    ∀ c ∈ '\n' :: List.replicate (2 * level) ' ', isSpace c := by
  intro c hc
  rcases List.mem_cons.mp hc with rfl | hc
  · rfl
  · rw [(List.mem_replicate.mp hc).2]
    rfl

/-- A new line in front of a closing bracket is skipped. -/
theorem skipSpace_newLine (level : Nat) {c : Char} (hc : isSpace c = false) (rest : List Char) :
    skipSpace (newLine level (c :: rest)) = c :: rest := by
  rw [newLine_eq, skipSpace_append (isSpace_newLine level), skipSpace_cons hc]

theorem isSpace_blank : ∀ c ∈ [' '], isSpace c := by
  intro c hc
  rw [List.mem_singleton.mp hc]
  rfl

mutual

theorem scansTo_writeIndented : ∀ j : Json, j.Numberless → ∀ level rest,
    ScansTo (writeIndented level j rest) j.outline rest
  | .null, _, _, rest => scansTo_null rest
  | .bool true, _, _, rest => scansTo_true rest
  | .bool false, _, _, rest => scansTo_false rest
  | .str s, _, _, rest => scansTo_string (quoted_written s) rest
  | .arr [], _, _, _ => scansTo_emptyArray rfl
  | .arr (x :: xs), h, level, rest => (itemsTo_writeIndented (x :: xs) (by simp) h level rest).array
  | .obj [], _, _, _ => scansTo_emptyObject rfl
  | .obj (m :: ms), h, level, rest =>
    (membersTo_writeIndented (m :: ms) (by simp) h level rest).object

theorem itemsTo_writeIndented : ∀ xs : List Json, xs ≠ [] → NumberlessItems xs → ∀ level rest,
    ItemsTo (writeIndentedItems level true xs (newLine level (']' :: rest))) (outlineItems xs) rest
  | [x], _, h, level, rest =>
    ((scansTo_writeIndented x h.1 (level + 1) _).skip (isSpace_newLine _)).last_item
      (skipSpace_newLine level rfl rest)
  | x :: y :: ys, _, h, level, rest =>
    ((scansTo_writeIndented x h.1 (level + 1) _).skip (isSpace_newLine _)).cons_item rfl
      (itemsTo_writeIndented (y :: ys) (by simp) h.2 level rest)

theorem membersTo_writeIndented : ∀ ms : List (String × Json), ms ≠ [] → NumberlessMembers ms →
    ∀ level rest,
    MembersTo (writeIndentedMembers level true ms (newLine level ('\x7d' :: rest)))
      (outlineMembers ms) rest
  | [(k, v)], _, h, level, rest =>
    (((scansTo_writeIndented v h.1 (level + 1) _).skip isSpace_blank).last_member
      (quoted_written k) rfl (skipSpace_newLine level rfl rest)).skip (isSpace_newLine _)
  | (k, v) :: m :: ms, _, h, level, rest =>
    (((scansTo_writeIndented v h.1 (level + 1) _).skip isSpace_blank).cons_member
      (quoted_written k) rfl rfl
      (membersTo_writeIndented (m :: ms) (by simp) h.2 level rest)).skip (isSpace_newLine _)

end

/-- The outline of a written text is that of the value. -/
theorem ofText_compact {j : Json} (h : j.Numberless) : ofText j.compact = (j.outline, none) :=
  ofText_of_scansTo (List.forall_mem_nil _) (scansTo_write j h [])

theorem ofText_indented {j : Json} (h : j.Numberless) : ofText j.indented = (j.outline, none) :=
  ofText_of_scansTo (List.forall_mem_nil _) (scansTo_writeIndented j h 0 [])

end Outline

end SchemaClient.Json
