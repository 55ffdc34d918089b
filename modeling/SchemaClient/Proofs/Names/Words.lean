import SchemaClient.Names.Word
import SchemaClient.Proofs.Text.Scanning

/-!
# Words of a text

The words of a text stand in it in order, each of alphanumeric characters, and what stands in front
of them, between and behind them is of no word.
-/

namespace SchemaClient.Names

open Text

variable {cs w v : List Char} {ws : List (List Char)} {c d : Char}

/-- The text is made of the words in order, and of characters that are not alphanumeric in front of
them, between and behind them. -/
inductive WordsOf : List (List Char) → List Char → Prop
  | nil : WordsOf [] []
  | foreign {c : Char} {ws : List (List Char)} {cs : List Char} :
      isAlphanumeric c = false → WordsOf ws cs → WordsOf ws (c :: cs)
  | word {w : List Char} {ws : List (List Char)} {cs : List Char} :
      w ≠ [] → (∀ c ∈ w, isAlphanumeric c = true) → WordsOf ws cs → WordsOf (w :: ws) (w ++ cs)

namespace WordsOf

theorem start (h : WordsOf ws cs) (hc : isAlphanumeric c = true) :
    WordsOf ([c] :: ws) (c :: cs) :=
  .word (List.cons_ne_nil c []) (by simpa using hc) h

/-- A first word that begins with the text is longer by a character in front of both. -/
theorem extend (h : WordsOf (w :: ws) (d :: cs)) (hc : isAlphanumeric c = true)
    (hd : isAlphanumeric d = true) : WordsOf ((c :: w) :: ws) (c :: d :: cs) := by
  generalize htext : d :: cs = text at h
  cases h with
  | foreign foreign _ =>
    rw [← (List.cons.inj htext).1, hd] at foreign
    cases foreign
  | word _ all h => exact .word (List.cons_ne_nil c w) (List.forall_mem_cons.mpr ⟨hc, all⟩) h

theorem nonempty (h : WordsOf ws cs) : ∀ w ∈ ws, w ≠ [] := by
  induction h with
  | nil => simp
  | foreign _ _ ih => exact ih
  | word nonempty _ _ ih => exact List.forall_mem_cons.mpr ⟨nonempty, ih⟩

/-- The words together are the alphanumeric characters of the text. -/
theorem flatten (h : WordsOf ws cs) : ws.flatten = cs.filter isAlphanumeric := by
  induction h with
  | nil => rfl
  | foreign hc _ ih => rw [List.filter_cons_of_neg (by simp [hc]), ih]
  | word _ all _ ih =>
    rw [List.flatten_cons, List.filter_append, List.filter_eq_self.mpr all, ih]

theorem mem (h : WordsOf ws cs) (hw : w ∈ ws) (hc : c ∈ w) :
    c ∈ cs ∧ isAlphanumeric c = true := by
  have joined : c ∈ ws.flatten := List.mem_flatten.mpr ⟨w, hw, hc⟩
  rw [h.flatten] at joined
  exact List.mem_filter.mp joined

end WordsOf

/-! ## Segments -/

theorem wordsOf_segments (cs : List Char) : WordsOf (segments cs) cs := by
  induction cs with
  | nil => exact .nil
  | cons c cs ih =>
    cases hc : isAlphanumeric c with
    | false =>
      rw [segments, hc]
      exact .foreign hc ih
    | true =>
      cases cs with
      | nil =>
        rw [segments, hc]
        exact .start .nil hc
      | cons d cs =>
        rw [segments, hc]
        simp only
        split
        · rename_i hd found
          rw [found] at ih
          exact ih.extend hc hd
        · exact ih.start hc

/-- The segments are what is not empty of a text split at every foreign character. -/
theorem segments_eq_splitOnP (cs : List Char) :
    segments cs = (cs.splitOnP fun c => !isAlphanumeric c).filter (!·.isEmpty) := by
  induction cs with
  | nil => rfl
  | cons c cs ih =>
    rw [segments, List.splitOnP_cons_eq_if_modifyHead, ih]
    cases hc : isAlphanumeric c with
    | false => rfl
    | true =>
      cases cs with
      | nil => rfl
      | cons d cs =>
        obtain ⟨piece, pieces, hsplit⟩ :=
          List.exists_cons_of_ne_nil (List.splitOnP_ne_nil (fun c => !isAlphanumeric c) cs)
        cases hd : isAlphanumeric d with
        | false => simp [List.splitOnP_cons_eq_if_modifyHead, hd]
        | true => simp [List.splitOnP_cons_eq_if_modifyHead, hd, hsplit]

theorem segments_foreign (hc : isAlphanumeric c = false) (cs : List Char) :
    segments (c :: cs) = segments cs := by
  rw [segments, hc]

theorem segments_run (nonempty : w ≠ []) (hw : ∀ c ∈ w, isAlphanumeric c = true)
    (stops : Stops isAlphanumeric cs) : segments (w ++ cs) = w :: segments cs := by
  induction w with
  | nil => exact absurd rfl nonempty
  | cons c w ih =>
    obtain ⟨hc, hw⟩ := List.forall_mem_cons.mp hw
    cases w with
    | nil =>
      cases cs with
      | nil => simp [segments, hc]
      | cons d cs => simp [segments, hc, stops.head]
    | cons d w =>
      have rest := ih (List.cons_ne_nil d w) hw
      rw [List.cons_append] at rest
      rw [List.cons_append, List.cons_append, segments, hc, rest]
      simp only [hw d List.mem_cons_self]

/-! ## Cuts inside a segment -/

theorem exists_splitCase (c : Char) (cs : List Char) : ∃ w ws, splitCase (c :: cs) = w :: ws := by
  cases cs with
  | nil => exact ⟨[c], [], rfl⟩
  | cons d cs =>
    rw [splitCase]
    split
    · exact ⟨_, _, rfl⟩
    · split
      · exact ⟨_, _, rfl⟩
      · exact ⟨_, _, rfl⟩

theorem splitCase_starts (starts : startsWord c d cs.head? = true) :
    splitCase (c :: d :: cs) = [c] :: splitCase (d :: cs) := by
  obtain ⟨w, ws, found⟩ := exists_splitCase d cs
  rw [splitCase, found]
  exact if_pos starts

theorem splitCase_continues (continues : startsWord c d cs.head? = false)
    (found : splitCase (d :: cs) = w :: ws) : splitCase (c :: d :: cs) = (c :: w) :: ws := by
  rw [splitCase, found]
  exact if_neg (by simp [continues])

theorem WordsOf.splitCase (h : WordsOf ws cs) (hw : ∀ c ∈ w, isAlphanumeric c = true) :
    WordsOf (splitCase w ++ ws) (w ++ cs) := by
  induction w with
  | nil => exact h
  | cons c w ih =>
    obtain ⟨hc, hw⟩ := List.forall_mem_cons.mp hw
    cases w with
    | nil => exact h.start hc
    | cons d w =>
      have rest := ih hw
      obtain ⟨v, vs, found⟩ := exists_splitCase d w
      cases starts : startsWord c d w.head? with
      | true =>
        rw [splitCase_starts starts]
        exact rest.start hc
      | false =>
        rw [found] at rest
        rw [splitCase_continues starts found]
        exact rest.extend hc (List.forall_mem_cons.mp hw).1

theorem wordsOf_words (cs : List Char) : WordsOf (words cs) cs := by
  have segmented := wordsOf_segments cs
  rw [words]
  generalize segments cs = pieces at segmented
  induction segmented with
  | nil => exact .nil
  | foreign hc _ ih => exact .foreign hc ih
  | word _ hw _ ih =>
    rw [List.flatMap_cons]
    exact ih.splitCase hw

end SchemaClient.Names
