import Mathlib.Data.List.Infix
import SchemaClient.Proofs.Text.Encodings
import SchemaClient.Source.Block

/-!
# Matching braces

The body of a block is what stands before the first byte up to which as many braces are closed as
opened. A loop over the bytes of the text that counts open blocks comes to the same body: it never
closes a block where none is open, and it cuts the text only between characters, since the bytes of
braces belong to no other character.
-/

namespace SchemaClient.Source

open Text

def openByte : UInt8 := 0x7b

def closeByte : UInt8 := 0x7d

/-! ## The loop over the bytes -/

inductive ByteFault
  | negativeDepth
  | cutCharacter

/-- The index of the byte at which a block is closed and none stays open. -/
def closingByte (depth index : Nat) : Bytes → Except ByteFault (Option Nat)
  | [] => .ok none
  | b :: bs =>
    if b = openByte then closingByte (depth + 1) (index + 1) bs
    else if b = closeByte then
      if depth = 0 then .error .negativeDepth
      else if depth - 1 = 0 then .ok (some index)
      else closingByte (depth - 1) (index + 1) bs
    else closingByte depth (index + 1) bs

def slice (bs : Bytes) (start stop : Nat) : Bytes :=
  (bs.drop start).take (stop - start)

/-- Whether a character starts at a byte, or the text ends there. -/
def startsCharacter (bs : Bytes) (index : Nat) : Bool :=
  match bs[index]? with
  | some b => !isContinuation b
  | none => index = bs.length

/-- The bytes of a part of a text. -/
def cut (bs : Bytes) (start stop : Nat) : Except ByteFault Bytes :=
  if start ≤ stop ∧ startsCharacter bs start = true ∧ startsCharacter bs stop = true then
    .ok (slice bs start stop)
  else .error .cutCharacter

/-- The trimmed body of the block that opens at a byte, found by the loop. -/
def blockOnBytes (text : String) (position : Nat) : Except ByteFault (Option String) :=
  let bs := encodeUtf8 text.toList
  if bs[position]? = some openByte then
    (closingByte 0 position (bs.drop position)).bind fun
      | none => .ok none
      | some stop => (cut bs (position + 1) stop).map fun inner =>
          some (String.ofList (trim (decodeUtf8Lossy inner)))
  else .ok none

/-- From the opening brace at `start` on, the byte at `stop` is the first up to which as many braces
are closed as opened. -/
structure Closes (bs : Bytes) (start stop : Nat) : Prop where
  opening : bs[start]? = some openByte
  later : start < stop
  even : (slice bs start (stop + 1)).count openByte = (slice bs start (stop + 1)).count closeByte
  first : ∀ i, start ≤ i → i < stop →
    (slice bs start (i + 1)).count openByte ≠ (slice bs start (i + 1)).count closeByte

/-! ## Inside a block -/

/-- Blocks that bytes open, less those that they close. -/
def openBlocks (bs : Bytes) : Int :=
  bs.count openByte - bs.count closeByte

/-- What can stand in a block where `depth` further ones are open: it closes them all, and no other
but those that it opens. -/
structure Inside (depth : Int) (inner : Bytes) : Prop where
  even : depth + openBlocks inner = 0
  covered : ∀ p, p <+: inner → 0 ≤ depth + openBlocks p

variable {bs inner after : Bytes} {b : UInt8} {depth index start stop : Nat}

@[simp] theorem openBlocks_nil : openBlocks [] = 0 :=
  rfl

theorem openBlocks_append (bs bs' : Bytes) :
    openBlocks (bs ++ bs') = openBlocks bs + openBlocks bs' := by
  simp only [openBlocks, List.count_append]
  omega

theorem openBlocks_cons (b : UInt8) (bs : Bytes) :
    openBlocks (b :: bs) = openBlocks [b] + openBlocks bs :=
  openBlocks_append [b] bs

@[simp] theorem openBlocks_open : openBlocks [openByte] = 1 :=
  rfl

@[simp] theorem openBlocks_close : openBlocks [closeByte] = -1 :=
  rfl

theorem openBlocks_other (noOpen : b ≠ openByte) (noClose : b ≠ closeByte) :
    openBlocks [b] = 0 := by
  rw [openBlocks, List.count_singleton, List.count_singleton]
  simp [noOpen, noClose]

theorem inside_cons {d : Int} : Inside d (b :: bs) ↔ 0 ≤ d ∧ Inside (d + openBlocks [b]) bs := by
  constructor
  · intro h
    refine ⟨by simpa using h.covered [] List.nil_prefix, ?_, fun p hp => ?_⟩
    · rw [Int.add_assoc, ← openBlocks_cons]
      exact h.even
    · rw [Int.add_assoc, ← openBlocks_cons]
      exact h.covered (b :: p) (List.cons_prefix_cons.mpr ⟨rfl, hp⟩)
  · rintro ⟨low, h⟩
    refine ⟨?_, fun p hp => ?_⟩
    · rw [openBlocks_cons, ← Int.add_assoc]
      exact h.even
    · rcases List.prefix_cons_iff.mp hp with rfl | ⟨q, rfl, hq⟩
      · simpa using low
      · rw [openBlocks_cons, ← Int.add_assoc]
        exact h.covered q hq

/-- Where the inside of a block ends, the loop ends. -/
theorem closingByte_inside (h : Inside depth inner) (after : Bytes) (index : Nat) :
    closingByte (depth + 1) index (inner ++ closeByte :: after) =
      .ok (some (index + inner.length)) := by
  induction inner generalizing depth index with
  | nil =>
    obtain rfl : depth = 0 := by simpa using h.even
    rfl
  | cons b inner ih =>
    obtain ⟨-, h⟩ := inside_cons.mp h
    have place : index + (b :: inner).length = index + 1 + inner.length := by
      rw [List.length_cons]
      omega
    rw [List.cons_append, closingByte, place]
    by_cases hopen : b = openByte
    · rw [if_pos hopen]
      rw [hopen, openBlocks_open] at h
      exact ih h _
    · rw [if_neg hopen]
      by_cases hclose : b = closeByte
      · rw [if_pos hclose]
        rw [hclose, openBlocks_close] at h
        have low := h.covered [] List.nil_prefix
        rw [openBlocks_nil] at low
        rw [if_neg (by omega), if_neg (by omega), show depth + 1 - 1 = depth - 1 + 1 by omega]
        refine ih ?_ _
        rwa [show ((depth - 1 : Nat) : Int) = depth + -1 by omega]
      · rw [if_neg hclose]
        rw [openBlocks_other hopen hclose, Int.add_zero] at h
        exact ih h _

/-- Where the loop ends, it has passed the inside of a block. -/
theorem inside_of_closingByte (h : closingByte (depth + 1) index bs = .ok (some stop)) :
    ∃ inner after, bs = inner ++ closeByte :: after ∧ stop = index + inner.length ∧
      Inside depth inner := by
  induction bs generalizing depth index with
  | nil => cases h
  | cons b bs ih =>
    rw [closingByte] at h
    have further {d : Nat} (here : depth + openBlocks [b] = d)
        (h : closingByte (d + 1) (index + 1) bs = .ok (some stop)) :
        ∃ inner after, b :: bs = inner ++ closeByte :: after ∧ stop = index + inner.length ∧
          Inside depth inner := by
      obtain ⟨inner, after, rfl, rfl, inside⟩ := ih h
      refine ⟨b :: inner, after, rfl, by rw [List.length_cons]; omega, inside_cons.mpr ⟨?_, ?_⟩⟩
      · omega
      · rw [here]
        exact inside
    by_cases hopen : b = openByte
    · rw [if_pos hopen] at h
      exact further (by simp [hopen]) h
    · rw [if_neg hopen] at h
      by_cases hclose : b = closeByte
      · rw [if_pos hclose] at h
        rw [if_neg (by omega)] at h
        by_cases last : depth = 0
        · subst last
          obtain rfl : index = stop := by simpa using h
          refine ⟨[], bs, by rw [hclose, List.nil_append], rfl, rfl, fun p hp => ?_⟩
          rw [List.prefix_nil.mp hp]
          simp
        · rw [if_neg (by omega), show depth + 1 - 1 = depth - 1 + 1 by omega] at h
          refine further ?_ h
          rw [hclose, openBlocks_close]
          omega
      · rw [if_neg hclose] at h
        exact further (by simp [openBlocks_other hopen hclose]) h

/-! ## The closing brace -/

theorem slice_append (before rest : Bytes) (stop : Nat) :
    slice (before ++ rest) before.length stop = rest.take (stop - before.length) := by
  rw [slice, List.drop_left]

theorem count_eq_iff (bs : Bytes) :
    bs.count openByte = bs.count closeByte ↔ openBlocks bs = 0 := by
  rw [openBlocks]
  omega

/-- What the blocks that are open can change to with one more byte. -/
theorem openBlocks_take_succ (bs : Bytes) (n : Nat) :
    openBlocks (bs.take (n + 1)) = openBlocks (bs.take n) + 1 ∨
    openBlocks (bs.take (n + 1)) = openBlocks (bs.take n) ∨
    (bs[n]? = some closeByte ∧ openBlocks (bs.take (n + 1)) = openBlocks (bs.take n) - 1) := by
  rw [List.take_add_one, openBlocks_append]
  cases hb : bs[n]? with
  | none => exact .inr (.inl (by simp))
  | some b =>
    rw [Option.toList_some]
    by_cases hopen : b = openByte
    · exact .inl (by rw [hopen, openBlocks_open])
    · by_cases hclose : b = closeByte
      · exact .inr (.inr ⟨congrArg some hclose, by rw [hclose, openBlocks_close]; omega⟩)
      · exact .inr (.inl (by rw [openBlocks_other hopen hclose, Int.add_zero]))

theorem closes_of_inside (before after : Bytes) (h : Inside 0 inner) :
    Closes (before ++ openByte :: (inner ++ closeByte :: after)) before.length
      (before.length + 1 + inner.length) := by
  have part (i : Nat) : slice (before ++ openByte :: (inner ++ closeByte :: after)) before.length
      (before.length + i + 1) = openByte :: (inner ++ closeByte :: after).take i := by
    rw [slice_append, show before.length + i + 1 - before.length = i + 1 by omega,
      List.take_succ_cons]
  refine ⟨by simp, by omega, ?_, fun i low high => ?_⟩
  · have even := h.even
    rw [count_eq_iff, show before.length + 1 + inner.length + 1 =
        before.length + (inner.length + 1) + 1 by omega, part, List.take_length_add_append,
      List.take_succ_cons, List.take_zero, openBlocks_cons, openBlocks_append, openBlocks_open,
      openBlocks_close]
    omega
  · obtain ⟨j, rfl⟩ := Nat.exists_eq_add_of_le low
    have covered := h.covered (inner.take j) (List.take_prefix j inner)
    rw [Ne, count_eq_iff, part, List.take_append_of_le_length (by omega), openBlocks_cons,
      openBlocks_open]
    omega

theorem exists_append_of_getElem? {i : Nat} (h : bs[i]? = some b) :
    ∃ before rest, bs = before ++ b :: rest ∧ before.length = i := by
  obtain ⟨inside, rfl⟩ := List.getElem?_eq_some_iff.mp h
  refine ⟨bs.take i, bs.drop (i + 1), ?_, List.length_take_of_le (by omega)⟩
  rw [List.getElem_cons_drop, List.take_append_drop]

theorem Closes.exists_inside (h : Closes bs start stop) : ∃ before inner after,
    bs = before ++ openByte :: (inner ++ closeByte :: after) ∧ before.length = start ∧
      stop = start + 1 + inner.length ∧ Inside 0 inner := by
  obtain ⟨opening, later, even, first⟩ := h
  obtain ⟨before, rest, rfl, rfl⟩ := exists_append_of_getElem? opening
  have part (i : Nat) : openBlocks (slice (before ++ openByte :: rest) before.length
      (before.length + i + 1)) = 1 + openBlocks (rest.take i) := by
    rw [slice_append, show before.length + i + 1 - before.length = i + 1 by omega,
      List.take_succ_cons, openBlocks_cons, openBlocks_open]
  obtain ⟨d, rfl⟩ : ∃ d, stop = before.length + (d + 1) := ⟨stop - before.length - 1, by omega⟩
  rw [count_eq_iff, part] at even
  -- A byte changes the number of open blocks by one at most, so that it cannot pass zero unseen.
  have covered : ∀ j ≤ d, 0 ≤ openBlocks (rest.take j) := by
    intro j hj
    induction j with
    | zero => simp
    | succ j ih =>
      have low := ih (by omega)
      have apart := first (before.length + (j + 1)) (by omega) (by omega)
      rw [Ne, count_eq_iff, part] at apart
      rcases openBlocks_take_succ rest j with h | h | ⟨-, h⟩
      · omega
      · omega
      · omega
  have low := covered d (Nat.le_refl d)
  obtain ⟨closing, last⟩ : rest[d]? = some closeByte ∧
      openBlocks (rest.take (d + 1)) = openBlocks (rest.take d) - 1 := by
    rcases openBlocks_take_succ rest d with h | h | h
    · omega
    · omega
    · exact h
  obtain ⟨inner, after, rfl, rfl⟩ := exists_append_of_getElem? closing
  rw [List.take_left] at last
  refine ⟨before, inner, after, rfl, rfl, by omega, by omega, fun p hp => ?_⟩
  have := covered p.length hp.length_le
  rwa [List.prefix_iff_eq_take.mp (hp.trans (List.prefix_append inner _)), Int.zero_add]

/-! ## Bytes of a text -/

section Texts

variable {c : Char} {cs rest : List Char} {n : Nat}

theorem encodeUtf8_cons (c : Char) (cs : List Char) :
    encodeUtf8 (c :: cs) = encodeUtf8Char c ++ encodeUtf8 cs :=
  List.flatMap_cons

theorem encodeUtf8_append (cs cs' : List Char) :
    encodeUtf8 (cs ++ cs') = encodeUtf8 cs ++ encodeUtf8 cs' :=
  List.flatMap_append

theorem encodeUtf8_open (cs : List Char) :
    encodeUtf8 ('\x7b' :: cs) = openByte :: encodeUtf8 cs :=
  rfl

theorem encodeUtf8_close (cs : List Char) :
    encodeUtf8 ('\x7d' :: cs) = closeByte :: encodeUtf8 cs :=
  rfl

theorem isContinuation_iff {b : UInt8} :
    isContinuation b = true ↔ 0x80 ≤ b.toNat ∧ b.toNat ≤ 0xBF := by
  simp [isContinuation, UInt8.le_iff_toNat_le]

/-- One byte of ASCII, or a first byte from `0xC0` on and bytes that continue it. -/
theorem encodeUtf8Char_shape (c : Char) :
    (c.toNat < 0x80 ∧ encodeUtf8Char c = [UInt8.ofNat c.toNat]) ∨
    ∃ first tail, encodeUtf8Char c = first :: tail ∧ 0xC0 ≤ first.toNat ∧
      ∀ b ∈ tail, isContinuation b = true := by
  have high := char_lt c
  have first {n : Nat} (low : 0xC0 ≤ n) (high : n < 0x100) : 0xC0 ≤ (UInt8.ofNat n).toNat := by
    rwa [toNat_byte high]
  rw [encodeUtf8Char_cases]
  by_cases one : c.toNat < 0x80
  · exact .inl ⟨one, if_pos one⟩
  refine .inr ?_
  rw [if_neg one]
  by_cases two : c.toNat < 0x800
  · exact ⟨_, _, if_pos two, first (by omega) (by omega), by simp [isContinuation_follow]⟩
  rw [if_neg two]
  by_cases three : c.toNat < 0x10000
  · exact ⟨_, _, if_pos three, first (by omega) (by omega), by simp [isContinuation_follow]⟩
  · exact ⟨_, _, if_neg three, first (by omega) (by omega), by simp [isContinuation_follow]⟩

/-- The byte of a character of ASCII belongs to no other character. -/
theorem eq_of_mem_encode {d : Char} (ascii : d.toNat < 0x80)
    (h : UInt8.ofNat d.toNat ∈ encodeUtf8Char c) : c = d := by
  have value : (UInt8.ofNat d.toNat).toNat = d.toNat := toNat_byte (by omega)
  rcases encodeUtf8Char_shape c with ⟨small, bytes⟩ | ⟨first, tail, bytes, low, continued⟩
  · rw [bytes, List.mem_singleton] at h
    rw [h, toNat_byte (by omega)] at value
    exact Char.toNat_inj.mp value
  · rw [bytes, List.mem_cons] at h
    rcases h with rfl | h
    · omega
    · have := isContinuation_iff.mp (continued _ h)
      omega

theorem count_encode {d : Char} (ascii : d.toNat < 0x80) (cs : List Char) :
    (encodeUtf8 cs).count (UInt8.ofNat d.toNat) = cs.count d := by
  induction cs with
  | nil => rfl
  | cons c cs ih =>
    rw [encodeUtf8_cons, List.count_append, ih]
    by_cases hc : c = d
    · subst hc
      rw [encodeUtf8Char_cases, if_pos ascii, List.count_cons_self, List.count_cons_self,
        List.count_nil]
      omega
    · rw [List.count_eq_zero_of_not_mem fun h => hc (eq_of_mem_encode ascii h),
        List.count_cons_of_ne hc, Nat.zero_add]

theorem mem_encode_open (h : openByte ∈ encodeUtf8Char c) : c = '\x7b' :=
  eq_of_mem_encode (by decide) h

theorem mem_encode_close (h : closeByte ∈ encodeUtf8Char c) : c = '\x7d' :=
  eq_of_mem_encode (by decide) h

/-- The bytes of other characters leave the depth as it is. -/
theorem closingByte_append {bs' : Bytes} (noOpen : openByte ∉ bs') (noClose : closeByte ∉ bs')
    (depth index : Nat) (bs : Bytes) :
    closingByte depth index (bs' ++ bs) = closingByte depth (index + bs'.length) bs := by
  induction bs' generalizing index with
  | nil => rfl
  | cons b bs' ih =>
    rw [List.mem_cons, not_or] at noOpen noClose
    rw [List.cons_append, closingByte, if_neg (Ne.symm noOpen.1), if_neg (Ne.symm noClose.1),
      ih noOpen.2 noClose.2, List.length_cons]
    congr 1
    omega

theorem bodyAt_open (depth : Nat) (cs : List Char) :
    bodyAt depth ('\x7b' :: cs) = (bodyAt (depth + 1) cs).map ('\x7b' :: ·) := by
  cases depth <;> rfl

theorem bodyAt_other (noOpen : c ≠ '\x7b') (noClose : c ≠ '\x7d') (depth : Nat)
    (cs : List Char) : bodyAt depth (c :: cs) = (bodyAt depth cs).map (c :: ·) := by
  cases depth <;> rw [bodyAt, if_neg noOpen, if_neg noClose]

/-- The loop over the bytes finds the brace that ends the body. -/
theorem closingByte_encode (depth index : Nat) (cs : List Char) :
    closingByte (depth + 1) index (encodeUtf8 cs) =
      .ok ((bodyAt depth cs).map fun inner => index + (encodeUtf8 inner).length) := by
  induction cs generalizing depth index with
  | nil => rfl
  | cons c cs ih =>
    have further (depth' : Nat) : closingByte (depth' + 1) (index + (encodeUtf8Char c).length)
        (encodeUtf8 cs) = .ok (((bodyAt depth' cs).map (c :: ·)).map fun inner =>
          index + (encodeUtf8 inner).length) := by
      rw [ih, Option.map_map]
      refine congrArg (fun f => Except.ok (Option.map f _)) (funext fun inner => ?_)
      rw [Function.comp_apply, encodeUtf8_cons, List.length_append]
      omega
    by_cases hopen : c = '\x7b'
    · subst hopen
      rw [encodeUtf8_open, closingByte, if_pos rfl, bodyAt_open]
      exact further (depth + 1)
    by_cases hclose : c = '\x7d'
    · subst hclose
      rw [encodeUtf8_close, closingByte, if_neg (by decide), if_pos rfl, if_neg (by omega)]
      cases depth with
      | zero => rfl
      | succ depth => exact further depth
    · rw [encodeUtf8_cons, closingByte_append (fun h => hopen (mem_encode_open h))
        (fun h => hclose (mem_encode_close h)), bodyAt_other hopen hclose]
      exact further depth

theorem append_of_bodyAt {depth : Nat} {inner : List Char} (h : bodyAt depth cs = some inner) :
    ∃ after, cs = inner ++ '\x7d' :: after := by
  induction cs generalizing depth inner with
  | nil => cases h
  | cons c cs ih =>
    have further {depth' : Nat} (h : (bodyAt depth' cs).map (c :: ·) = some inner) :
        ∃ after, c :: cs = inner ++ '\x7d' :: after := by
      obtain ⟨inner', found, rfl⟩ := Option.map_eq_some_iff.mp h
      obtain ⟨after, rfl⟩ := ih found
      exact ⟨after, rfl⟩
    by_cases hopen : c = '\x7b'
    · subst hopen
      rw [bodyAt_open] at h
      exact further h
    by_cases hclose : c = '\x7d'
    · subst hclose
      cases depth with
      | zero =>
        obtain rfl : [] = inner := Option.some.inj h
        exact ⟨cs, rfl⟩
      | succ depth => exact further h
    · rw [bodyAt_other hopen hclose] at h
      exact further h

theorem utf8Size_eq (c : Char) : c.utf8Size = (encodeUtf8Char c).length := by
  rw [encodeUtf8Char_eq, String.length_utf8EncodeChar]

theorem dropBytes_cons {n : Nat} (h : c.utf8Size ≤ n) (cs : List Char) :
    dropBytes n (c :: cs) = dropBytes (n - c.utf8Size) cs := by
  have positive := c.utf8Size_pos
  obtain ⟨k, rfl⟩ : ∃ k, n = k + 1 := ⟨n - 1, by omega⟩
  exact if_pos h

theorem dropBytes_append (before rest : List Char) :
    dropBytes (encodeUtf8 before).length (before ++ rest) = some rest := by
  induction before with
  | nil => cases rest <;> rfl
  | cons c before ih =>
    have size := utf8Size_eq c
    rw [encodeUtf8_cons, List.length_append, ← size, List.cons_append,
      dropBytes_cons (Nat.le_add_right ..), Nat.add_sub_cancel_left, ih]

theorem append_of_dropBytes (h : dropBytes n cs = some rest) :
    ∃ before, cs = before ++ rest ∧ (encodeUtf8 before).length = n := by
  induction cs generalizing n with
  | nil =>
    cases n with
    | zero => exact ⟨[], Option.some.inj h, rfl⟩
    | succ n => cases h
  | cons c cs ih =>
    by_cases fits : c.utf8Size ≤ n
    · rw [dropBytes_cons fits] at h
      obtain ⟨before, rfl, hlength⟩ := ih h
      refine ⟨c :: before, rfl, ?_⟩
      rw [encodeUtf8_cons, List.length_append, hlength, ← utf8Size_eq]
      omega
    · cases n with
      | zero => exact ⟨[], Option.some.inj h, rfl⟩
      | succ n =>
        have broken : dropBytes (n + 1) (c :: cs) = none := if_neg fits
        rw [broken] at h
        cases h

/-- A brace of the text starts where its byte stands. -/
theorem exists_append_of_open (h : (encodeUtf8 cs)[n]? = some openByte) :
    ∃ before rest, cs = before ++ '\x7b' :: rest ∧ (encodeUtf8 before).length = n := by
  induction cs generalizing n with
  | nil => cases h
  | cons c cs ih =>
    rw [encodeUtf8_cons] at h
    by_cases inside : n < (encodeUtf8Char c).length
    · rw [List.getElem?_append_left inside] at h
      obtain rfl := mem_encode_open (List.mem_of_getElem? h)
      obtain rfl : n = 0 := by
        have size : (encodeUtf8Char '\x7b').length = 1 := rfl
        omega
      exact ⟨[], cs, rfl, rfl⟩
    · rw [List.getElem?_append_right (by omega)] at h
      obtain ⟨before, rest, rfl, hlength⟩ := ih h
      refine ⟨c :: before, rest, rfl, ?_⟩
      rw [encodeUtf8_cons, List.length_append, hlength]
      omega

theorem startsCharacter_encode (before rest : List Char) :
    startsCharacter (encodeUtf8 (before ++ rest)) (encodeUtf8 before).length = true := by
  rw [encodeUtf8_append, startsCharacter, List.getElem?_append_right (Nat.le_refl _),
    Nat.sub_self]
  cases rest with
  | nil => simp [encodeUtf8]
  | cons c rest =>
    rw [encodeUtf8_cons]
    rcases encodeUtf8Char_shape c with ⟨small, bytes⟩ | ⟨first, tail, bytes, low, -⟩
    · have ascii : isContinuation (UInt8.ofNat c.toNat) = false := by
        rw [Bool.eq_false_iff, Ne, isContinuation_iff, toNat_byte (by omega)]
        omega
      simp [bytes, ascii]
    · have lead : isContinuation first = false := by
        rw [Bool.eq_false_iff, Ne, isContinuation_iff]
        omega
      simp [bytes, lead]

theorem cut_encode (before inner after : List Char) :
    cut (encodeUtf8 (before ++ (inner ++ after))) (encodeUtf8 before).length
      (encodeUtf8 (before ++ inner)).length = .ok (encodeUtf8 inner) := by
  have start := startsCharacter_encode before (inner ++ after)
  have stop := startsCharacter_encode (before ++ inner) after
  rw [List.append_assoc] at stop
  have size : (encodeUtf8 (before ++ inner)).length =
      (encodeUtf8 before).length + (encodeUtf8 inner).length := by
    rw [encodeUtf8_append, List.length_append]
  rw [cut, if_pos ⟨by omega, start, stop⟩, size, encodeUtf8_append, slice_append,
    Nat.add_sub_cancel_left, encodeUtf8_append, List.take_left]

end Texts

/-! ## The body of a block -/

section Bodies

variable {text : String} {position : Nat} {before inner rest : List Char}

theorem openBlocks_encode (cs : List Char) :
    openBlocks (encodeUtf8 cs) = cs.count '\x7b' - cs.count '\x7d' := by
  have opening : (encodeUtf8 cs).count openByte = cs.count '\x7b' :=
    count_encode (d := '\x7b') (by decide) cs
  have closing : (encodeUtf8 cs).count closeByte = cs.count '\x7d' :=
    count_encode (d := '\x7d') (by decide) cs
  rw [openBlocks, opening, closing]

theorem inside_of_bodyAt (h : bodyAt 0 rest = some inner) : Inside 0 (encodeUtf8 inner) := by
  obtain ⟨after, rfl⟩ := append_of_bodyAt h
  have found := closingByte_encode 0 0 (inner ++ '\x7d' :: after)
  rw [h, Option.map_some] at found
  obtain ⟨inner', after', bytes, hlength, inside⟩ := inside_of_closingByte found
  rw [encodeUtf8_append, encodeUtf8_close] at bytes
  obtain ⟨rfl, -⟩ := List.append_inj bytes (by omega)
  exact inside

theorem blockBodyAt?_append (h : text.toList = before ++ '\x7b' :: rest) :
    blockBodyAt? text (encodeUtf8 before).length =
      (bodyAt 0 rest).map fun inner => String.ofList (trim inner) := by
  rw [blockBodyAt?, h, dropBytes_append, Option.bind_some, blockBody?, Option.map_map]
  rfl

theorem blockBodyAt?_of_ne (h : (encodeUtf8 text.toList)[position]? ≠ some openByte) :
    blockBodyAt? text position = none := by
  rw [blockBodyAt?, Option.map_eq_none_iff, Option.bind_eq_none_iff]
  intro rest found
  obtain ⟨before, htext, rfl⟩ := append_of_dropBytes found
  rw [htext, encodeUtf8_append, List.getElem?_append_right (Nat.le_refl _), Nat.sub_self] at h
  unfold blockBody?
  split
  · exact absurd rfl h
  · rfl

/-- The loop over the bytes neither closes a block where none is open nor cuts a character, and it
comes to the same body. -/
theorem blockOnBytes_eq (text : String) (position : Nat) :
    blockOnBytes text position = .ok (blockBodyAt? text position) := by
  rw [blockOnBytes]
  by_cases h : (encodeUtf8 text.toList)[position]? = some openByte
  · obtain ⟨before, rest, htext, rfl⟩ := exists_append_of_open h
    have bytes : (encodeUtf8 text.toList).drop (encodeUtf8 before).length =
        openByte :: encodeUtf8 rest := by
      rw [htext, encodeUtf8_append, List.drop_left, encodeUtf8_open]
    rw [if_pos h, blockBodyAt?_append htext, bytes, closingByte, if_pos rfl, closingByte_encode]
    cases found : bodyAt 0 rest with
    | none => rfl
    | some inner =>
      obtain ⟨after, rfl⟩ := append_of_bodyAt found
      have parts := cut_encode (before ++ ['\x7b']) inner ('\x7d' :: after)
      have start : (encodeUtf8 (before ++ ['\x7b'])).length = (encodeUtf8 before).length + 1 := by
        rw [encodeUtf8_append, List.length_append]
        rfl
      have stop : (encodeUtf8 (before ++ ['\x7b'] ++ inner)).length =
          (encodeUtf8 before).length + 1 + (encodeUtf8 inner).length := by
        rw [encodeUtf8_append, List.length_append, start]
      rw [start, stop, List.append_assoc, List.singleton_append, ← htext] at parts
      rw [Option.map_some, Option.map_some]
      change (cut _ _ _).map _ = _
      rw [parts, Except.map, decodeUtf8Lossy_encodeUtf8]
  · rw [if_neg h, blockBodyAt?_of_ne h]

theorem closes_iff_bodyAt {stop : Nat} (h : text.toList = before ++ '\x7b' :: rest) :
    Closes (encodeUtf8 text.toList) (encodeUtf8 before).length stop ↔
      ∃ inner, bodyAt 0 rest = some inner ∧
        stop = (encodeUtf8 before).length + 1 + (encodeUtf8 inner).length := by
  rw [h, encodeUtf8_append, encodeUtf8_open]
  constructor
  · intro closes
    obtain ⟨before', inner', after', bytes, hlength, rfl, inside⟩ := closes.exists_inside
    obtain ⟨rfl, hrest⟩ := List.append_inj bytes (by omega)
    have ends : closingByte (0 + 1) 0 (inner' ++ closeByte :: after') =
        .ok (some (0 + inner'.length)) := closingByte_inside inside after' 0
    rw [← (List.cons.inj hrest).2, closingByte_encode] at ends
    obtain ⟨inner, found, place⟩ := Option.map_eq_some_iff.mp (Except.ok.inj ends)
    exact ⟨inner, found, by omega⟩
  · rintro ⟨inner, found, rfl⟩
    have inside := inside_of_bodyAt found
    obtain ⟨after, rfl⟩ := append_of_bodyAt found
    rw [encodeUtf8_append, encodeUtf8_close]
    exact closes_of_inside _ _ inside

/-- A block has a body exactly if a brace closes it, and then the body is the trimmed text between
the two braces, in which braces match. On the bytes of the text this is what the loop that counts
open blocks gives, whatever the text and the byte are: its count is never negative, and both cuts
are between characters. -/
theorem blockBodyAt?_matches (text : String) (position : Nat) :
    blockOnBytes text position = .ok (blockBodyAt? text position) ∧
    ((blockBodyAt? text position).isSome = true ↔
      ∃ stop, Closes (encodeUtf8 text.toList) position stop) ∧
    ∀ stop, Closes (encodeUtf8 text.toList) position stop →
      ∃ before inner after,
        text.toList = before ++ '\x7b' :: (inner ++ '\x7d' :: after) ∧
        (encodeUtf8 before).length = position ∧
        (encodeUtf8 (before ++ '\x7b' :: inner)).length = stop ∧
        (∀ p, p <+: inner → p.count '\x7d' ≤ p.count '\x7b') ∧
        inner.count '\x7d' = inner.count '\x7b' ∧
        blockBodyAt? text position = some (String.ofList (trim inner)) := by
  refine ⟨blockOnBytes_eq text position, ?_, fun stop closes => ?_⟩
  · by_cases h : (encodeUtf8 text.toList)[position]? = some openByte
    · obtain ⟨before, rest, htext, rfl⟩ := exists_append_of_open h
      rw [blockBodyAt?_append htext, Option.isSome_map, Option.isSome_iff_exists]
      constructor
      · rintro ⟨inner, found⟩
        exact ⟨_, (closes_iff_bodyAt htext).mpr ⟨inner, found, rfl⟩⟩
      · rintro ⟨stop, closes⟩
        obtain ⟨inner, found, -⟩ := (closes_iff_bodyAt htext).mp closes
        exact ⟨inner, found⟩
    · rw [blockBodyAt?_of_ne h]
      constructor
      · intro isSome
        cases isSome
      · rintro ⟨stop, closes⟩
        exact absurd closes.opening h
  · obtain ⟨before, rest, htext, rfl⟩ := exists_append_of_open closes.opening
    obtain ⟨inner, found, rfl⟩ := (closes_iff_bodyAt htext).mp closes
    obtain ⟨after, rfl⟩ := append_of_bodyAt found
    have inside := inside_of_bodyAt found
    have even := inside.even
    rw [openBlocks_encode] at even
    refine ⟨before, inner, after, htext, rfl, ?_, fun p hp => ?_, by omega, ?_⟩
    · rw [encodeUtf8_append, encodeUtf8_open, List.length_append, List.length_cons]
      omega
    · obtain ⟨q, rfl⟩ := hp
      have covered := inside.covered (encodeUtf8 p) ⟨encodeUtf8 q, (encodeUtf8_append p q).symm⟩
      rw [openBlocks_encode] at covered
      omega
    · rw [blockBodyAt?_append htext, found, Option.map_some]

/-- The brace at byte 2 is closed at byte 11. In between a block stands with a character of two
bytes. -/
def nestedText : String :=
  "\u00e9\x7b \x7b\u00fc\x7d b \x7d"

theorem blockBodyAt?_matches_nested :
    Closes (encodeUtf8 nestedText.toList) 2 11 ∧
      ∃ inner, blockBodyAt? nestedText 2 = some (String.ofList (trim inner)) ∧
        (encodeUtf8 inner).length = 8 ∧ inner.count '\x7d' = inner.count '\x7b' := by
  let bs : Bytes := encodeUtf8 nestedText.toList
  have first : ∀ i < 11, 2 ≤ i →
      (slice bs 2 (i + 1)).count openByte ≠ (slice bs 2 (i + 1)).count closeByte := by
    decide +kernel
  have closes : Closes bs 2 11 :=
    ⟨by decide +kernel, by decide, by decide +kernel, fun i low high => first i high low⟩
  obtain ⟨-, -, body⟩ := blockBodyAt?_matches nestedText 2
  obtain ⟨before, inner, after, -, start, stop, -, even, found⟩ := body 11 closes
  rw [encodeUtf8_append, encodeUtf8_open, List.length_append, List.length_cons, start] at stop
  exact ⟨closes, inner, found, by omega, even⟩

end Bodies

end SchemaClient.Source
