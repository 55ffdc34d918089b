import Mathlib.Data.List.TakeWhile
import Mathlib.Tactic.IntervalCases
import SchemaClient.Text.Utf16

/-!
# Encodings undone

What UTF-8 and UTF-16 write for a character is read as that character, whatever follows: the
first byte tells how many belong to it, and the two halves of a pair find each other again. So
whole texts are read back, in either byte order.
-/

namespace SchemaClient.Text

theorem char_lt (c : Char) : c.toNat < 0x110000 := by
  have h := c.valid
  rcases h with h | h
  · exact Nat.lt_trans h (by decide)
  · exact h.2

theorem char_not_surrogate (c : Char) : c.toNat < 0xD800 ∨ 0xE000 ≤ c.toNat := by
  have h := c.valid
  rcases h with h | h
  · exact Or.inl h
  · exact Or.inr h.1

/-! ## UTF-8 -/

section Utf8

variable {n : Nat} {b : UInt8} {tail : Bytes}

theorem toNat_byte (h : n < 256) : (UInt8.ofNat n).toNat = n := by
  simp [Nat.mod_eq_of_lt h]

/-- A byte that follows in a sequence, with six bits. -/
def follow (n : Nat) : UInt8 :=
  UInt8.ofNat (0x80 + n % 64)

theorem toNat_follow (n : Nat) : (follow n).toNat = 0x80 + n % 64 :=
  toNat_byte (by omega)

theorem isContinuation_follow (n : Nat) : isContinuation (follow n) = true := by
  have h := toNat_follow n
  simp only [isContinuation, Bool.and_eq_true, decide_eq_true_eq, UInt8.le_iff_toNat_le, h]
  constructor
  · simp
  · simp only [UInt8.reduceToNat]
    omega

theorem follow_ne_zero (n : Nat) : follow n ≠ 0 := by
  intro h
  have value := toNat_follow n
  rw [h] at value
  have zero : (0 : UInt8).toNat = 0 := rfl
  omega

theorem encodeUtf8Char_cases (c : Char) : encodeUtf8Char c =
    if c.toNat < 0x80 then [UInt8.ofNat c.toNat]
    else if c.toNat < 0x800 then [UInt8.ofNat (0xC0 + c.toNat / 64), follow c.toNat]
    else if c.toNat < 0x10000 then
      [UInt8.ofNat (0xE0 + c.toNat / 4096), follow (c.toNat / 64), follow c.toNat]
    else
      [UInt8.ofNat (0xF0 + c.toNat / 262144), follow (c.toNat / 4096), follow (c.toNat / 64),
        follow c.toNat] := by
  have powers : Nat.pow 64 0 = 1 ∧ Nat.pow 64 1 = 64 ∧ Nat.pow 64 2 = 4096 ∧
      Nat.pow 64 3 = 262144 := by decide
  simp only [encodeUtf8Char, follow, powers, Nat.div_one]

/-- Only the first byte of a character can be zero. -/
theorem zero_notMem_tail (c : Char) : 0 ∉ (encodeUtf8Char c).tail := by
  have follows : ∀ n, (0 : UInt8) ≠ follow n := fun n => (follow_ne_zero n).symm
  rw [encodeUtf8Char_cases]
  split
  · simp
  · split
    · simp [follows]
    · split
      · simp [follows]
      · simp [follows]

/-- The bytes are those of the standard library's encoding. -/
theorem encodeUtf8Char_eq (c : Char) : encodeUtf8Char c = String.utf8EncodeChar c := by
  have high := char_lt c
  have hval : c.val.toNat = c.toNat := rfl
  rw [encodeUtf8Char_cases]
  simp only [String.utf8EncodeChar, hval, follow, Nat.lt_succ_iff]
  generalize c.toNat = n at high
  by_cases one : n ≤ 127
  · simp [one]
  by_cases two : n ≤ 2047
  · have lead : n / 64 % 32 = n / 64 := Nat.mod_eq_of_lt (by omega)
    simp [one, two, lead, Nat.add_comm]
  by_cases three : n ≤ 65535
  · have lead : n / 4096 % 16 = n / 4096 := Nat.mod_eq_of_lt (by omega)
    simp [one, two, three, lead, Nat.add_comm]
  · have lead : n / 262144 % 8 = n / 262144 := Nat.mod_eq_of_lt (by omega)
    simp [one, two, three, lead, Nat.add_comm]

theorem lead?_ascii (h : n < 0x80) : lead? (UInt8.ofNat n) = some ⟨0, 0x80, 0xBF, n⟩ := by
  have hn : (UInt8.ofNat n).toNat = n := toNat_byte (by omega)
  have small : UInt8.ofNat n < 0x80 := by
    rw [UInt8.lt_iff_toNat_lt, hn]
    exact h
  rw [lead?, if_pos small, hn]

theorem lead?_two (low : 0xC2 ≤ n) (high : n < 0xE0) :
    lead? (UInt8.ofNat n) = some ⟨1, 0x80, 0xBF, n - 0xC0⟩ := by
  interval_cases n <;> rfl

theorem lead?_three (low : 0xE0 ≤ n) (high : n < 0xF0) :
    lead? (UInt8.ofNat n) = some ⟨2, if n = 0xE0 then 0xA0 else 0x80,
      if n = 0xED then 0x9F else 0xBF, n - 0xE0⟩ := by
  interval_cases n <;> rfl

theorem lead?_four (low : 0xF0 ≤ n) (high : n ≤ 0xF4) :
    lead? (UInt8.ofNat n) = some ⟨3, if n = 0xF0 then 0x90 else 0x80,
      if n = 0xF4 then 0x8F else 0xBF, n - 0xF0⟩ := by
  interval_cases n <;> rfl

/-- The bytes of a sequence are found again at its length. -/
theorem continuation_append {l : Lead} (more : l.more = tail.length + 1)
    (bounds : l.low ≤ b ∧ b ≤ l.high) (all : ∀ c ∈ tail, isContinuation c = true) (rest : Bytes) :
    continuation l (b :: tail ++ rest) = b :: tail := by
  have hb : (decide (l.low ≤ b) && decide (b ≤ l.high)) = true := by simpa using bounds
  rw [continuation.eq_def, List.cons_append]
  simp only [more, hb, if_true]
  rw [List.take_left' rfl, List.takeWhile_eq_self_iff.mpr all]

theorem sequence_append {l : Lead} {first : UInt8} {c : Char} (lead : lead? first = some l)
    (more : l.more = tail.length) (found : continuation l (tail ++ rest) = tail)
    (value : tail.foldl (fun n b => n * 64 + (b.toNat - 0x80)) l.bits = c.toNat) :
    sequence first (tail ++ rest) = (some c, tail.length) := by
  simp only [sequence, lead, found, more, if_true, value, Char.ofNat_toNat]

/-- A sequence is read from the bounds of its second byte and the value of its bytes. -/
theorem sequence_follow {l : Lead} {first : UInt8} {c : Char} {n : Nat} {ns : List Nat}
    (lead : lead? first = some l) (more : l.more = ns.length + 1)
    (low : l.low.toNat ≤ 0x80 + n % 64) (high : 0x80 + n % 64 ≤ l.high.toNat)
    (value : (n :: ns).foldl (fun m k => m * 64 + k % 64) l.bits = c.toNat) (rest : Bytes) :
    sequence first ((n :: ns).map follow ++ rest) = (some c, ns.length + 1) := by
  have length : l.more = ((n :: ns).map follow).length := by simp [more]
  have found : continuation l ((n :: ns).map follow ++ rest) = (n :: ns).map follow := by
    refine continuation_append (by simp [more]) ?_ (by simp [isContinuation_follow]) rest
    rw [UInt8.le_iff_toNat_le, UInt8.le_iff_toNat_le, toNat_follow]
    exact ⟨low, high⟩
  have sum : ((n :: ns).map follow).foldl (fun m b => m * 64 + (b.toNat - 0x80)) l.bits =
      c.toNat := by
    rw [← value, List.foldl_map]
    simp [toNat_follow]
  rw [sequence_append lead length found sum, ← length, more]

/-- The bytes of a character are read as that character, whatever follows. -/
theorem exists_sequence (c : Char) : ∃ b tail, encodeUtf8Char c = b :: tail ∧
    ∀ rest, sequence b (tail ++ rest) = (some c, tail.length) := by
  have high := char_lt c
  have apart := char_not_surrogate c
  rw [encodeUtf8Char_cases]
  by_cases one : c.toNat < 0x80
  · refine ⟨_, [], if_pos one, fun rest => ?_⟩
    exact sequence_append (lead?_ascii one) rfl rfl rfl
  by_cases two : c.toNat < 0x800
  · refine ⟨UInt8.ofNat (0xC0 + c.toNat / 64), [c.toNat].map follow, by simp [one, two],
      sequence_follow (lead?_two (by omega) (by omega)) rfl ?_ ?_ ?_⟩
    · simp only [UInt8.reduceToNat]
      omega
    · simp only [UInt8.reduceToNat]
      omega
    · simp only [List.foldl_cons, List.foldl_nil]
      omega
  by_cases three : c.toNat < 0x10000
  · refine ⟨UInt8.ofNat (0xE0 + c.toNat / 4096), [c.toNat / 64, c.toNat].map follow,
      by simp [one, two, three],
      sequence_follow (lead?_three (by omega) (by omega)) rfl ?_ ?_ ?_⟩
    -- The bounds of the second byte keep out what fewer bytes can say, and surrogates.
    · dsimp only
      split <;> simp only [UInt8.reduceToNat] <;> omega
    · dsimp only
      split <;> simp only [UInt8.reduceToNat] <;> omega
    · simp only [List.foldl_cons, List.foldl_nil]
      omega
  · refine ⟨UInt8.ofNat (0xF0 + c.toNat / 262144),
      [c.toNat / 4096, c.toNat / 64, c.toNat].map follow, by simp [one, two, three],
      sequence_follow (lead?_four (by omega) (by omega)) rfl ?_ ?_ ?_⟩
    · dsimp only
      split <;> simp only [UInt8.reduceToNat] <;> omega
    · dsimp only
      split <;> simp only [UInt8.reduceToNat] <;> omega
    · simp only [List.foldl_cons, List.foldl_nil]
      omega

theorem utf8Sequences_passed (tail rest : Bytes) :
    utf8Sequences tail.length (tail ++ rest) = utf8Sequences 0 rest := by
  induction tail with
  | nil => rfl
  | cons b tail ih => exact ih

theorem utf8Sequences_encodeUtf8 (cs : List Char) :
    utf8Sequences 0 (encodeUtf8 cs) = cs.map some := by
  induction cs with
  | nil => rfl
  | cons c cs ih =>
    obtain ⟨b, tail, hbytes, hsequence⟩ := exists_sequence c
    rw [encodeUtf8, List.flatMap_cons, hbytes, List.cons_append, utf8Sequences]
    simp only [hsequence]
    rw [utf8Sequences_passed, List.map_cons]
    exact congrArg (some c :: ·) ih

/-- What is written starts with no byte that no sequence starts with. -/
theorem encodeUtf8_ne_cons {cs : List Char} (unread : lead? b = none) (rest : Bytes) :
    encodeUtf8 cs ≠ b :: rest := by
  intro h
  have whole := utf8Sequences_encodeUtf8 cs
  have broken : sequence b rest = (none, 0) := by rw [sequence, unread]
  rw [h, utf8Sequences, broken] at whole
  cases cs with
  | nil => cases whole
  | cons c cs =>
    have first := (List.cons.inj whole).1
    cases first

theorem decodeUtf8Lossy_encodeUtf8 (cs : List Char) : decodeUtf8Lossy (encodeUtf8 cs) = cs := by
  simp [decodeUtf8Lossy, utf8Sequences_encodeUtf8]

end Utf8

/-! ## UTF-16 -/

section Utf16

variable {n : Nat} {order : ByteOrder}

def codeUnits (cs : List Char) : List Nat :=
  cs.flatMap unitsOfChar

theorem encodeUtf16_eq (order : ByteOrder) (cs : List Char) :
    encodeUtf16 order cs = (codeUnits cs).flatMap (unitBytes order) :=
  rfl

theorem unitsOfChar_lt (c : Char) : ∀ n ∈ unitsOfChar c, n < 0x10000 := by
  have high := char_lt c
  intro n hn
  unfold unitsOfChar at hn
  simp only at hn
  split at hn
  · rw [List.mem_singleton] at hn
    omega
  · simp only [List.mem_cons, List.not_mem_nil, or_false] at hn
    omega

theorem codeUnits_lt (cs : List Char) : ∀ n ∈ codeUnits cs, n < 0x10000 := by
  intro n hn
  obtain ⟨c, -, hn⟩ := List.mem_flatMap.mp hn
  exact unitsOfChar_lt c n hn

/-- Every code unit is two bytes. -/
theorem length_encodeUtf16 (order : ByteOrder) (cs : List Char) :
    (encodeUtf16 order cs).length = 2 * (codeUnits cs).length := by
  rw [encodeUtf16_eq]
  induction codeUnits cs with
  | nil => rfl
  | cons n ns ih =>
    have two : (unitBytes order n).length = 2 := by
      cases order with
      | little | big => rfl
    rw [List.flatMap_cons, List.length_append, two, ih, List.length_cons]
    omega

theorem units_unitBytes (h : n < 0x10000) (order : ByteOrder) (rest : Bytes) :
    units order (unitBytes order n ++ rest) = n :: units order rest := by
  have low : (UInt8.ofNat n).toNat = n % 256 := by simp
  have high : (UInt8.ofNat (n / 0x100)).toNat = n / 0x100 := toNat_byte (by omega)
  cases order with
  | little =>
    simp only [unitBytes, List.cons_append, List.nil_append, units, unitOf, low, high]
    congr 1
    omega
  | big =>
    simp only [unitBytes, List.cons_append, List.nil_append, units, unitOf, low, high]
    congr 1
    omega

theorem units_flatMap (ns : List Nat) (h : ∀ n ∈ ns, n < 0x10000) (order : ByteOrder) :
    units order (ns.flatMap (unitBytes order)) = ns := by
  induction ns with
  | nil => rfl
  | cons n ns ih =>
    rw [List.flatMap_cons, units_unitBytes (h n List.mem_cons_self),
      ih fun m hm => h m (List.mem_cons_of_mem n hm)]

/-- A code unit that is no half of a pair is a character by itself. -/
theorem charsAfter_single (apart : n < 0xD800 ∨ 0xE000 ≤ n) (us : List Nat) :
    charsAfter none (n :: us) = Char.ofNat n :: charsAfter none us := by
  have notHigh : isHigh n = false := by
    simp only [isHigh, Bool.and_eq_false_iff, decide_eq_false_iff_not]
    omega
  have notLow : isLow n = false := by
    simp only [isLow, Bool.and_eq_false_iff, decide_eq_false_iff_not]
    omega
  rw [charsAfter]
  simp [notHigh, notLow]

/-- The code units of a character are read as that character. -/
theorem charsAfter_unitsOfChar (c : Char) (rest : List Nat) :
    charsAfter none (unitsOfChar c ++ rest) = c :: charsAfter none rest := by
  have high := char_lt c
  by_cases small : c.toNat < 0x10000
  · have units : unitsOfChar c = [c.toNat] := if_pos small
    rw [units, List.singleton_append, charsAfter_single (char_not_surrogate c), Char.ofNat_toNat]
  · have units : unitsOfChar c =
        [0xD800 + (c.toNat - 0x10000) / 0x400, 0xDC00 + (c.toNat - 0x10000) % 0x400] :=
      if_neg small
    have isHigh : isHigh (0xD800 + (c.toNat - 0x10000) / 0x400) = true := by
      simp only [Text.isHigh, Bool.and_eq_true, decide_eq_true_eq]
      omega
    have isLow : isLow (0xDC00 + (c.toNat - 0x10000) % 0x400) = true := by
      simp only [Text.isLow, Bool.and_eq_true, decide_eq_true_eq]
      omega
    have value : pairChar (0xD800 + (c.toNat - 0x10000) / 0x400)
        (0xDC00 + (c.toNat - 0x10000) % 0x400) = c := by
      have hsum : 0x10000 + (0xD800 + (c.toNat - 0x10000) / 0x400 - 0xD800) * 0x400 +
          (0xDC00 + (c.toNat - 0x10000) % 0x400 - 0xDC00) = c.toNat := by omega
      rw [pairChar, hsum, Char.ofNat_toNat]
    rw [units, List.cons_append, List.singleton_append, charsAfter]
    simp only [isHigh, if_true]
    rw [charsAfter]
    simp only [isLow, if_true, value]

theorem decodeUtf16_encodeUtf16 (order : ByteOrder) (cs : List Char) :
    decodeUtf16 order (encodeUtf16 order cs) = cs := by
  rw [decodeUtf16, encodeUtf16_eq, units_flatMap _ (codeUnits_lt cs)]
  induction cs with
  | nil => rfl
  | cons c cs ih =>
    rw [codeUnits, List.flatMap_cons, charsAfter_unitsOfChar]
    exact congrArg (c :: ·) ih

end Utf16

end SchemaClient.Text
