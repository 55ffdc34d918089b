import SchemaClient.Proofs.Names.Words
import SchemaClient.Proofs.Source.MatchingBraces
import SchemaClient.Proofs.Text.LetterCase

/-!
# Word cuts

A loop over the characters of a segment that keeps the byte at which the open word starts cuts the
bytes of the segment into its words, and only between characters. So the words of a text are all of
its alphanumeric characters, in order. A text in snake case stays as it is when it is put in snake
case again: its words have no capitals, so that none is cut.
-/

namespace SchemaClient.Names

open Text Source

variable {cs w before rest : List Char} {ws : List (List Char)} {c : Char}

/-! ## The loop over the characters of a segment -/

/-- The characters of a text with the bytes at which they start. -/
def placed (start : Nat) : List Char → List (Nat × Char)
  | [] => []
  | c :: cs => (start, c) :: placed (start + (encodeUtf8Char c).length) cs

/-- The words that are cut from the bytes of a segment, behind those found before: `previous` is the
last character that was passed, and the open word starts at the byte `start`. -/
def cutWords (bs : Bytes) (previous : Char) (start : Nat) (found : List Bytes) :
    List (Nat × Char) → Except ByteFault (List Bytes)
  | [] =>
    if start < bs.length then (cut bs start bs.length).map fun word => found ++ [word]
    else .ok found
  | (offset, current) :: rest =>
    if startsWord previous current (rest.head?.map Prod.snd) then
      if start < offset then
        (cut bs start offset).bind fun word => cutWords bs current offset (found ++ [word]) rest
      else cutWords bs current offset found rest
    else cutWords bs current start found rest

/-- The words of a segment on its bytes. -/
def segmentOnBytes (segment : List Char) : Except ByteFault (List Bytes) :=
  match placed 0 segment with
  | [] => .ok []
  | (_, c) :: rest => cutWords (encodeUtf8 segment) c 0 [] rest

/-- The words of a text that is split at the characters that are not alphanumeric, on the bytes of
each piece. -/
def wordsOnBytes (cs : List Char) : Except ByteFault (List Bytes) :=
  let pieces := cs.splitOnP fun c => !isAlphanumeric c
  ((pieces.filter (!·.isEmpty)).mapM segmentOnBytes).map List.flatten

theorem head?_placed (start : Nat) (cs : List Char) :
    (placed start cs).head?.map Prod.snd = cs.head? := by
  cases cs with
  | nil => rfl
  | cons c cs => rfl

theorem length_encode_concat (cs : List Char) (c : Char) :
    (encodeUtf8 (cs ++ [c])).length = (encodeUtf8 cs).length + (encodeUtf8Char c).length := by
  have single : encodeUtf8 [c] = encodeUtf8Char c := List.append_nil _
  rw [encodeUtf8_append, List.length_append, single]

theorem length_encode_lt (before opened : List Char) (c : Char) :
    (encodeUtf8 before).length < (encodeUtf8 (before ++ (opened ++ [c]))).length := by
  have size := c.utf8Size_pos
  rw [utf8Size_eq] at size
  rw [encodeUtf8_append, List.length_append, length_encode_concat]
  omega

/-- The open word `opened` stands behind `before`, and `previous` is its last character so far. What
is found from there on is this word with what continues it, and the words behind it. -/
theorem cutWords_placed {previous : Char} {bs : Bytes} (before opened : List Char)
    (found : List Bytes) (hbs : bs = encodeUtf8 (before ++ (opened ++ previous :: rest))) :
    ∃ w ws, splitCase (previous :: rest) = w :: ws ∧
      cutWords bs previous (encodeUtf8 before).length found
        (placed (encodeUtf8 (before ++ (opened ++ [previous]))).length rest) =
        .ok (found ++ encodeUtf8 (opened ++ w) :: ws.map encodeUtf8) := by
  have nonempty := length_encode_lt before opened previous
  induction rest generalizing before opened previous found with
  | nil =>
    have last := cut_encode before (opened ++ [previous]) []
    rw [List.append_nil, ← hbs] at last
    refine ⟨[previous], [], rfl, ?_⟩
    rw [placed, cutWords, if_pos (by rwa [hbs]), last]
    rfl
  | cons current rest ih =>
    have next := length_encode_concat (before ++ (opened ++ [previous])) current
    have later := length_encode_lt (before ++ (opened ++ [previous])) [] current
    rw [placed, cutWords, head?_placed, ← next]
    cases starts : startsWord previous current rest.head? with
    | true =>
      -- The open word ends, and the next one starts where `current` does.
      have word := cut_encode before (opened ++ [previous]) (current :: rest)
      rw [← List.append_cons, ← hbs] at word
      have text : bs =
          encodeUtf8 (before ++ (opened ++ [previous]) ++ ([] ++ current :: rest)) := by
        simpa using hbs
      obtain ⟨w, ws, split, run⟩ :=
        ih _ [] (found ++ [encodeUtf8 (opened ++ [previous])]) text later
      refine ⟨[previous], w :: ws, by rw [splitCase_starts starts, split], ?_⟩
      rw [if_pos rfl, if_pos nonempty, word]
      simpa [Except.bind] using run
    | false =>
      have text : bs = encodeUtf8 (before ++ (opened ++ [previous] ++ current :: rest)) := by
        simpa using hbs
      obtain ⟨w, ws, split, run⟩ := ih before (opened ++ [previous]) found text
        (length_encode_lt _ _ _)
      refine ⟨previous :: w, ws, splitCase_continues starts split, ?_⟩
      simpa using run

theorem segmentOnBytes_eq (segment : List Char) :
    segmentOnBytes segment = .ok ((splitCase segment).map encodeUtf8) := by
  cases segment with
  | nil => rfl
  | cons c cs =>
    have text : encodeUtf8 (c :: cs) = encodeUtf8 ([] ++ ([] ++ c :: cs)) := rfl
    obtain ⟨w, ws, split, run⟩ := cutWords_placed [] [] [] text
    rw [split]
    simpa [segmentOnBytes, placed, encodeUtf8] using run

/-- The loop finds the words and never cuts a character. -/
theorem wordsOnBytes_eq (cs : List Char) :
    wordsOnBytes cs = .ok ((words cs).map encodeUtf8) := by
  have each : segmentOnBytes = fun segment => pure ((splitCase segment).map encodeUtf8) := by
    funext segment
    exact segmentOnBytes_eq segment
  rw [wordsOnBytes, ← segments_eq_splitOnP, each, List.mapM_pure, words, List.map_flatMap,
    List.flatMap_def]
  rfl

/-! ## Snake case -/

/-- A character of words that lower case keeps and that starts no word. -/
structure Lowered (c : Char) : Prop where
  alphanumeric : isAlphanumeric c = true
  small : isUppercase c = false
  kept : lowerChar c = [c]

theorem isNameChar_of_ascii (ascii : c.toNat < 128) (h : isAlphanumeric c = true) :
    isNameChar c = true :=
  of_ascii (P := fun c => isAlphanumeric c = true → isNameChar c = true) (by decide) ascii h

theorem lowered_toLower (ascii : c.toNat < 128) (h : isAlphanumeric c = true) :
    Lowered c.toLower := by
  have name := isNameChar_of_ascii ascii h
  have table : isAlphanumeric c = true → isAlphanumeric c.toLower = true ∧
      isUppercase c.toLower = false ∧ isNameChar c.toLower = true :=
    of_ascii (P := fun c => isAlphanumeric c = true → isAlphanumeric c.toLower = true ∧
      isUppercase c.toLower = false ∧ isNameChar c.toLower = true) (by decide) ascii
  obtain ⟨alphanumeric, small, lowerName⟩ := table h
  refine ⟨alphanumeric, small, ?_⟩
  rw [lowerChar_of_isNameChar lowerName, toLower_toLower name]

theorem Lowered.ne_sigma (h : Lowered c) : c ≠ 'Σ' := by
  rintro rfl
  have capital : isUppercase 'Σ' = true := by decide
  rw [h.small] at capital
  cases capital

theorem lower_eq_map (f : Char → Char) (h : ∀ c ∈ w, c ≠ 'Σ' ∧ lowerChar c = [f c]) :
    lower w = w.map f := by
  suffices ∀ before, lowerAfter before w = w.map f from this []
  induction w with
  | nil => exact fun _ => rfl
  | cons c w ih =>
    intro before
    obtain ⟨⟨other, image⟩, rest⟩ := List.forall_mem_cons.mp h
    rw [lowerAfter, if_neg other, image, ih rest]
    rfl

theorem lower_of_lowered (h : ∀ c ∈ w, Lowered c) : lower w = w := by
  rw [lower_eq_map id fun c hc => ⟨(h c hc).ne_sigma, (h c hc).kept⟩, List.map_id]

theorem lower_eq_toLower (h : ∀ c ∈ w, isNameChar c = true) : lower w = w.map Char.toLower :=
  lower_eq_map Char.toLower fun c hc =>
    ⟨ne_of_apply (h c hc) (by decide), lowerChar_of_isNameChar (h c hc)⟩

theorem splitCase_of_lowered (nonempty : w ≠ []) (h : ∀ c ∈ w, Lowered c) : splitCase w = [w] := by
  induction w with
  | nil => exact absurd rfl nonempty
  | cons c w ih =>
    cases w with
    | nil => rfl
    | cons d w =>
      have rest := ih (List.cons_ne_nil d w) (List.forall_mem_cons.mp h).2
      have continues : startsWord c d w.head? = false := by
        simp [startsWord, (h d (by simp)).small]
      rw [splitCase_continues continues rest]

/-- Words without capitals are the words of what they are joined to. -/
theorem words_joinWords (h : ∀ w ∈ ws, w ≠ [] ∧ ∀ c ∈ w, Lowered c) :
    words (joinWords ws) = ws := by
  have alphanumeric : ∀ w ∈ ws, ∀ c ∈ w, isAlphanumeric c = true :=
    fun w hw c hc => ((h w hw).2 c hc).alphanumeric
  have separated : segments (joinWords ws) = ws := by
    induction ws using joinWords.induct with
    | case1 => rfl
    | case2 w =>
      have run := segments_run (h w (by simp)).1 (alphanumeric w (by simp)) Stops.nil
      rwa [List.append_nil] at run
    | case3 w more several ih =>
      obtain ⟨⟨nonempty, -⟩, rest⟩ := List.forall_mem_cons.mp h
      have foreign : isAlphanumeric '_' = false := by decide
      rw [joinWords.eq_3 w more several,
        segments_run nonempty (alphanumeric w List.mem_cons_self) (Stops.cons foreign),
        segments_foreign foreign, ih rest fun w hw => alphanumeric w (List.mem_cons_of_mem _ hw)]
  calc words (joinWords ws) = ws.flatMap splitCase := by rw [words, separated]
    _ = ws.flatMap fun w => [w] :=
      List.flatMap_congr fun w hw => splitCase_of_lowered (h w hw).1 (h w hw).2
    _ = ws := List.flatMap_singleton' ws

theorem lowered_words (ascii : ∀ c ∈ cs, c.toNat < 128) :
    ∀ w ∈ (words cs).map lower, w ≠ [] ∧ ∀ c ∈ w, Lowered c := by
  have whole := wordsOf_words cs
  intro v hv
  obtain ⟨w, hw, rfl⟩ := List.mem_map.mp hv
  have letter : ∀ c ∈ w, c.toNat < 128 ∧ isAlphanumeric c = true := by
    intro c hc
    obtain ⟨inside, alphanumeric⟩ := whole.mem hw hc
    exact ⟨ascii c inside, alphanumeric⟩
  rw [lower_eq_toLower fun c hc => isNameChar_of_ascii (letter c hc).1 (letter c hc).2]
  refine ⟨by simpa using whole.nonempty w hw, fun d hd => ?_⟩
  obtain ⟨c, hc, rfl⟩ := List.mem_map.mp hd
  exact lowered_toLower (letter c hc).1 (letter c hc).2

theorem snakeCase_snakeCase (ascii : ∀ c ∈ cs, c.toNat < 128) :
    snakeCase (snakeCase cs) = snakeCase cs := by
  have lowered := lowered_words ascii
  have kept : ((words cs).map lower).map lower = (words cs).map lower := by
    refine (List.map_congr_left fun w hw => ?_).trans (List.map_id _)
    exact lower_of_lowered (lowered w hw).2
  rw [snakeCase, snakeCase, words_joinWords lowered, kept]

/-- The words of a text are cut from it between characters. None of them is empty, each is of
alphanumeric characters, and together they are the alphanumeric characters of the text, each once
and in order. A text of ASCII in snake case stays as it is. -/
theorem words_lose_nothing (cs : List Char) :
    wordsOnBytes cs = .ok ((words cs).map encodeUtf8) ∧
    (∀ w ∈ words cs, w ≠ [] ∧ ∀ c ∈ w, isAlphanumeric c = true) ∧
    (words cs).flatten = cs.filter isAlphanumeric ∧
    ((∀ c ∈ cs, c.toNat < 128) → snakeCase (snakeCase cs) = snakeCase cs) := by
  have whole := wordsOf_words cs
  refine ⟨wordsOnBytes_eq cs, ?_, whole.flatten, snakeCase_snakeCase⟩
  intro w hw
  exact ⟨whole.nonempty w hw, fun c hc => (whole.mem hw hc).2⟩

theorem words_lose_nothing_acronym :
    (∀ c ∈ "_XMLHttp2Request-ID__".toList, c.toNat < 128) ∧
      words "_XMLHttp2Request-ID__".toList =
        ["XML".toList, "Http2".toList, "Request".toList, "ID".toList] ∧
      snakeCase (snakeCase "_XMLHttp2Request-ID__".toList) = "xml_http2_request_id".toList := by
  have ascii : ∀ c ∈ "_XMLHttp2Request-ID__".toList, c.toNat < 128 := by decide
  have stable := (words_lose_nothing "_XMLHttp2Request-ID__".toList).2.2.2 ascii
  have spelled : snakeCase "_XMLHttp2Request-ID__".toList = "xml_http2_request_id".toList := by
    decide +kernel
  exact ⟨ascii, by decide +kernel, stable.trans spelled⟩

end SchemaClient.Names
