import SchemaClient.Proofs.Text.Encodings
import SchemaClient.Proofs.Text.LetterCase
import SchemaClient.Source.Analysis

/-!
# Schema files in any encoding

The bytes of a schema say how they are to be read. A mark always does; without one, the second and
the fourth byte decide between UTF-8 and UTF-16. A text in UTF-8 is mistaken for another exactly
if it starts with the character of the mark or if its bytes look like UTF-16.
-/

namespace SchemaClient

open Text

namespace SourceEncoding

/-- More than ten bytes, of which the second and the fourth are zero. -/
def LooksWide (bs : Bytes) : Prop :=
  10 < bs.length ∧ bs[1]? = some 0 ∧ bs[3]? = some 0

instance (bs : Bytes) : Decidable (LooksWide bs) :=
  inferInstanceAs (Decidable (_ ∧ _ ∧ _))

/-- What a text must be like for its bytes in an encoding to be recognised. -/
def Suits : SourceEncoding → List Char → Prop
  | .utf8Mark, _ | .utf16Little, _ | .utf16Big, _ => True
  | .utf16LittleUnmarked, cs =>
    6 ≤ (codeUnits cs).length ∧ ∀ n ∈ (codeUnits cs).take 2, n < 0x100
  | .utf8, cs => cs.head? ≠ some '\ufeff' ∧ ¬ LooksWide (encodeUtf8 cs)

section Detection

variable {cs : List Char}

theorem detect_eq (bs : Bytes) : detect bs =
    if bs.take 2 = [0xFF, 0xFE] then .utf16Little
    else if bs.take 2 = [0xFE, 0xFF] then .utf16Big
    else if bs.take 3 = [0xEF, 0xBB, 0xBF] then .utf8Mark
    else if LooksWide bs then .utf16LittleUnmarked
    else .utf8 := by
  unfold detect
  split
  · simp
  · simp
  · simp
  · rename_i a c rest
    have length : 10 < rest.length + 1 + 1 + 1 + 1 ↔ 6 < rest.length := by omega
    simp [LooksWide, length]
  · rename_i little big marked wide
    have notLittle : bs.take 2 ≠ [0xFF, 0xFE] := by
      intro h
      exact little (bs.drop 2) (by rw [← List.take_append_drop 2 bs, h]; rfl)
    have notBig : bs.take 2 ≠ [0xFE, 0xFF] := by
      intro h
      exact big (bs.drop 2) (by rw [← List.take_append_drop 2 bs, h]; rfl)
    have notMarked : bs.take 3 ≠ [0xEF, 0xBB, 0xBF] := by
      intro h
      exact marked (bs.drop 3) (by rw [← List.take_append_drop 3 bs, h]; rfl)
    have notWide : ¬ LooksWide bs := by
      rintro ⟨-, second, fourth⟩
      match bs, wide with
      | [], _ | [_], _ | [_, _], _ | [_, _, _], _ => simp at fourth
      | a :: b :: c :: d :: rest, wide =>
        simp only [List.getElem?_cons_succ, List.getElem?_cons_zero, Option.some.injEq] at *
        exact wide a c rest (by rw [second, fourth])
    rw [if_neg notLittle, if_neg notBig, if_neg notMarked, if_neg notWide]

theorem encodeUtf8_of_head (h : cs.head? = some '\ufeff') :
    encodeUtf8 cs = [0xEF, 0xBB, 0xBF] ++ encodeUtf8 cs.tail := by
  cases cs with
  | nil => cases h
  | cons c cs =>
    cases h
    rfl

/-- UTF-8 without a mark is never taken for a marked encoding. -/
theorem take_encodeUtf8_ne (cs : List Char) :
    (encodeUtf8 cs).take 2 ≠ [0xFF, 0xFE] ∧ (encodeUtf8 cs).take 2 ≠ [0xFE, 0xFF] ∧
      (cs.head? ≠ some '\ufeff' → (encodeUtf8 cs).take 3 ≠ [0xEF, 0xBB, 0xBF]) := by
  have unread : ∀ a b, lead? a = none → (encodeUtf8 cs).take 2 ≠ [a, b] := by
    intro a b ha h
    have bytes : encodeUtf8 cs = a :: b :: (encodeUtf8 cs).drop 2 := by
      rw [← List.take_append_drop 2 (encodeUtf8 cs), h]
      rfl
    exact encodeUtf8_ne_cons ha _ bytes
  refine ⟨unread _ _ rfl, unread _ _ rfl, ?_⟩
  intro head h
  have whole := utf8Sequences_encodeUtf8 cs
  rw [← List.take_append_drop 3 (encodeUtf8 cs), h] at whole
  apply head
  cases cs with
  | nil => cases whole
  | cons c cs =>
    have first := (List.cons.inj whole).1
    exact first.symm

theorem detect_utf8 (h : Suits .utf8 cs) : detect (encodeUtf8 cs) = .utf8 := by
  obtain ⟨little, big, marked⟩ := take_encodeUtf8_ne cs
  rw [detect_eq, if_neg little, if_neg big, if_neg (marked h.1), if_neg h.2]

theorem detect_utf16LittleUnmarked (h : Suits .utf16LittleUnmarked cs) :
    detect (encodeUtf16 .little cs) = .utf16LittleUnmarked := by
  obtain ⟨long, narrow⟩ := h
  have length := length_encodeUtf16 .little cs
  have bytes : ∃ a c rest, encodeUtf16 .little cs = a :: 0 :: c :: 0 :: rest := by
    have high : ∀ n < 0x100, unitBytes .little n = [UInt8.ofNat n, 0] := by
      intro n hn
      have zero : n / 0x100 = 0 := by omega
      rw [unitBytes, zero]
      rfl
    rw [encodeUtf16_eq]
    cases units : codeUnits cs with
    | nil => simp [units] at long
    | cons m ms =>
      cases ms with
      | nil => simp [units] at long
      | cons n ns =>
        rw [units] at narrow
        rw [List.flatMap_cons, List.flatMap_cons, high m (narrow m (by simp)),
          high n (narrow n (by simp))]
        exact ⟨_, _, _, rfl⟩
  obtain ⟨a, c, rest, bytes⟩ := bytes
  have wide : LooksWide (encodeUtf16 .little cs) := by
    refine ⟨by omega, ?_, ?_⟩
    · rw [bytes]
      rfl
    · rw [bytes]
      rfl
  have unmarked : ∀ a b : UInt8, b ≠ 0 → (encodeUtf16 .little cs).take 2 ≠ [a, b] := by
    intro a b hb h
    rw [bytes] at h
    exact hb (List.cons.inj (List.cons.inj h).2).1.symm
  have noMark : (encodeUtf16 .little cs).take 3 ≠ [0xEF, 0xBB, 0xBF] := by
    intro h
    rw [bytes] at h
    exact absurd (List.cons.inj (List.cons.inj h).2).1 (by decide)
  rw [detect_eq, if_neg (unmarked _ _ (by decide)), if_neg (unmarked _ _ (by decide)),
    if_neg noMark, if_pos wide]

theorem detect_encode (e : SourceEncoding) (h : e.Suits cs) : detect (e.encode cs) = e := by
  cases e with
  | utf8 => exact detect_utf8 h
  | utf8Mark => rfl
  | utf16Little => rfl
  | utf16Big => rfl
  | utf16LittleUnmarked => exact detect_utf16LittleUnmarked h

theorem decode_encode (e : SourceEncoding) (cs : List Char) : e.decode (e.encode cs) = cs := by
  cases e with
  | utf8 | utf8Mark => exact decodeUtf8Lossy_encodeUtf8 cs
  | utf16Little | utf16Big | utf16LittleUnmarked => exact decodeUtf16_encodeUtf16 _ cs

end Detection

/-! ## Texts that are mistaken -/

section Mistaken

variable {bs : Bytes} {cs : List Char}

/-- How many zero bytes a sequence of bytes starts with. -/
def leadingZeros (bs : Bytes) : Nat :=
  (bs.takeWhile (· = 0)).length

def leadingNulls (cs : List Char) : Nat :=
  (cs.takeWhile (· = '\x00')).length

@[simp] theorem leadingZeros_zero (bs : Bytes) : leadingZeros (0 :: bs) = leadingZeros bs + 1 := by
  simp [leadingZeros]

@[simp] theorem leadingNulls_null (cs : List Char) :
    leadingNulls ('\x00' :: cs) = leadingNulls cs + 1 := by
  simp [leadingNulls]

theorem leadingZeros_cons {b : UInt8} (hb : b ≠ 0) (bs : Bytes) : leadingZeros (b :: bs) = 0 := by
  simp [leadingZeros, hb]

theorem leadingNulls_of_head (h : cs.head? ≠ some '\x00') : leadingNulls cs = 0 := by
  cases cs with
  | nil => rfl
  | cons c cs =>
    have hc : c ≠ '\x00' := by simpa using h
    simp [leadingNulls, hc]

theorem leadingZeros_encodeUtf8 (cs : List Char) :
    leadingZeros (encodeUtf8 cs) = leadingNulls cs := by
  induction cs with
  | nil => rfl
  | cons c cs ih =>
    by_cases hc : c = '\x00'
    · subst hc
      have bytes : encodeUtf8 ('\x00' :: cs) = 0 :: encodeUtf8 cs := rfl
      rw [bytes, leadingZeros_zero, leadingNulls_null, ih]
    · obtain ⟨b, tail, hbytes, hsequence⟩ := exists_sequence c
      have hb : b ≠ 0 := by
        rintro rfl
        have zero := (hsequence []).symm.trans (rfl : _ = (some '\x00', 0))
        exact hc (Option.some.inj (Prod.mk.inj zero).1)
      rw [encodeUtf8, List.flatMap_cons, hbytes, List.cons_append, leadingZeros_cons hb,
        leadingNulls_of_head (by simpa using hc)]

theorem ofNat_ne_null {n : Nat} (valid : n.isValidChar) (h : n ≠ 0) : Char.ofNat n ≠ '\x00' := by
  intro heq
  have value := congrArg Char.toNat heq
  rw [toNat_ofNat, if_pos valid] at value
  exact h value

/-- Only the unit zero is read as the character zero. -/
theorem head?_charsAfter {n : Nat} (low : n ≠ 0) (high : n < 0x10000) (us : List Nat) :
    (charsAfter none (n :: us)).head? ≠ some '\x00' := by
  have replaced : replacement ≠ '\x00' := by decide
  rw [charsAfter]
  by_cases hhigh : isHigh n = true
  · simp only [hhigh, if_true]
    cases us with
    | nil => simpa [charsAfter] using replaced
    | cons m us =>
      rw [charsAfter]
      by_cases hlow : isLow m = true
      · simp only [isHigh, isLow, Bool.and_eq_true, decide_eq_true_eq] at hhigh hlow
        have paired : pairChar n m ≠ '\x00' := by
          apply ofNat_ne_null
          · right
            omega
          · omega
        have hm : isLow m = true := by simpa [isLow] using hlow
        simpa [hm] using paired
      · simp only [hlow, Bool.false_eq_true, if_false]
        split
        · simpa using replaced
        · simpa using replaced
  · by_cases hlow : isLow n = true
    · simpa [hhigh, hlow] using replaced
    · have single : Char.ofNat n ≠ '\x00' := by
        apply ofNat_ne_null _ low
        simp only [isHigh, isLow, Bool.and_eq_true, decide_eq_true_eq] at hhigh hlow
        by_cases small : n < 0xD800
        · exact Or.inl small
        · right
          omega
      simpa [hhigh, hlow] using single

/-- Two zero bytes make one zero character in UTF-16. -/
theorem leadingNulls_charsAfter_le (bs : Bytes) :
    2 * leadingNulls (charsAfter none (units .little bs)) ≤ leadingZeros bs := by
  fun_induction units .little bs with
  | case1 a b rest ih =>
    have ha := a.toNat_lt
    have hb := b.toNat_lt
    by_cases zero : unitOf .little a b = 0
    · have hzero : a = 0 ∧ b = 0 := by
        simp only [unitOf] at zero
        constructor
        · exact UInt8.toNat_inj.mp (by simp; omega)
        · exact UInt8.toNat_inj.mp (by simp; omega)
      obtain ⟨rfl, rfl⟩ := hzero
      have null : Char.ofNat (unitOf .little 0 0) = '\x00' := rfl
      rw [charsAfter_single (Or.inl (by omega)), null, leadingNulls_null, leadingZeros_zero,
        leadingZeros_zero]
      omega
    · have high : unitOf .little a b < 0x10000 := by
        change a.toNat + b.toNat * 0x100 < 0x10000
        omega
      rw [leadingNulls_of_head (head?_charsAfter zero high _)]
      omega
  | case2 => exact Nat.zero_le _

/-- Text in UTF-8 whose second byte is zero is another text in UTF-16. -/
theorem decodeUtf16_encodeUtf8_ne (second : (encodeUtf8 cs)[1]? = some 0) :
    decodeUtf16 .little (encodeUtf8 cs) ≠ cs := by
  intro same
  cases cs with
  | nil => cases second
  | cons c cs =>
    obtain ⟨b, tail, hbytes, hsequence⟩ := exists_sequence c
    have bytes : encodeUtf8 (c :: cs) = b :: (tail ++ encodeUtf8 cs) := by
      rw [encodeUtf8, List.flatMap_cons, hbytes]
      rfl
    have single : tail = [] := by
      cases tail with
      | nil => rfl
      | cons d tail =>
        rw [bytes] at second
        have hd : d = 0 := Option.some.inj second
        have nonzero := zero_notMem_tail c
        rw [hbytes, hd] at nonzero
        exact absurd List.mem_cons_self nonzero
    rw [single, List.nil_append] at bytes
    rw [bytes] at second same
    obtain ⟨rest, hrest⟩ : ∃ rest, encodeUtf8 cs = 0 :: rest := by
      cases h : encodeUtf8 cs with
      | nil =>
        rw [h] at second
        cases second
      | cons d rest =>
        rw [h] at second
        exact ⟨rest, by rw [Option.some.inj second]⟩
    have small : unitOf .little b 0 < 0xD800 := by
      have hb := b.toNat_lt
      change b.toNat + 0 * 0x100 < 0xD800
      omega
    rw [hrest, decodeUtf16, units, charsAfter_single (Or.inl small)] at same
    have behind : charsAfter none (units .little rest) = cs := (List.cons.inj same).2
    -- The zeros behind the first byte are as many characters in UTF-8 and half as many in UTF-16.
    have wide := leadingNulls_charsAfter_le rest
    have narrow := leadingZeros_encodeUtf8 cs
    rw [behind] at wide
    rw [hrest, leadingZeros_zero] at narrow
    omega

end Mistaken

theorem suits_utf8_of_decode {cs : List Char}
    (h : (detect (encodeUtf8 cs)).decode (encodeUtf8 cs) = cs) : Suits .utf8 cs := by
  constructor
  · intro head
    have marked : detect (encodeUtf8 cs) = .utf8Mark := by
      rw [encodeUtf8_of_head head]
      rfl
    have shorter := congrArg List.length h
    rw [marked, encodeUtf8_of_head head] at shorter
    have read : decode .utf8Mark ([0xEF, 0xBB, 0xBF] ++ encodeUtf8 cs.tail) = cs.tail :=
      decodeUtf8Lossy_encodeUtf8 cs.tail
    rw [read] at shorter
    cases cs with
    | nil => cases head
    | cons c cs =>
      simp only [List.tail_cons, List.length_cons] at shorter
      omega
  · intro wide
    obtain ⟨little, big, marked⟩ := take_encodeUtf8_ne cs
    by_cases head : cs.head? = some '\ufeff'
    · rw [encodeUtf8_of_head head] at wide
      exact absurd (Option.some.inj wide.2.1) (by decide)
    · have detected : detect (encodeUtf8 cs) = .utf16LittleUnmarked := by
        rw [detect_eq, if_neg little, if_neg big, if_neg (marked head), if_pos wide]
      rw [detected] at h
      exact decodeUtf16_encodeUtf8_ne wide.2.1 h

end SourceEncoding

open SourceEncoding

/-- A text is read back from its bytes in every encoding that they are recognised in, and from its
bytes in UTF-8 only if they are; so its model is the same in all of them. -/
theorem decodeSource_encode (s : String) :
    (∀ e : SourceEncoding, e.Suits s.toList →
      decodeSource (e.encode s.toList) = s ∧
        analyse (decodeSource (e.encode s.toList)) = analyse s) ∧
      (decodeSource (SourceEncoding.utf8.encode s.toList) = s ↔
        SourceEncoding.utf8.Suits s.toList) := by
  have restored : ∀ e : SourceEncoding, e.Suits s.toList →
      decodeSource (e.encode s.toList) = s := by
    intro e h
    rw [decodeSource, detect_encode e h, decode_encode, String.ofList_toList]
  refine ⟨fun e h => ⟨restored e h, by rw [restored e h]⟩, ?_, restored .utf8⟩
  intro h
  apply suits_utf8_of_decode
  have chars := congrArg String.toList h
  rw [decodeSource, String.toList_ofList] at chars
  exact chars

/-- A schema with a character outside the basic plane, in all five encodings. -/
theorem decodeSource_encode_planes :
    (∀ e : SourceEncoding, e.Suits "type A \x7b x: Int \x7d # 𝒜é".toList) ∧
      ∀ e : SourceEncoding, decodeSource (e.encode "type A \x7b x: Int \x7d # 𝒜é".toList) =
        "type A \x7b x: Int \x7d # 𝒜é" := by
  have suits : ∀ e : SourceEncoding, e.Suits "type A \x7b x: Int \x7d # 𝒜é".toList := by
    intro e
    cases e with
    | utf8Mark | utf16Little | utf16Big => trivial
    | utf8 => exact ⟨by decide, by decide⟩
    | utf16LittleUnmarked => exact ⟨by decide, by decide⟩
  exact ⟨suits, fun e => ((decodeSource_encode _).1 e (suits e)).1⟩

end SchemaClient
