import SchemaClient.Proofs.Text.Characters
import SchemaClient.Proofs.Text.Scanning
import SchemaClient.Source.Entry

/-!
# Words and the gaps between them

A schema text is its words with gaps of blanks around them. A gap may be empty where a punctuation
mark keeps the words apart. The normal form shortens gaps and drops the two at the ends; it changes
neither the words nor their order.
-/

namespace SchemaClient.Source

open Text

theorem isBlank_of_isTypeChar {c : Char} (h : isTypeChar c = true) : isBlank c = false := by
  simp only [isTypeChar, Bool.or_eq_true, decide_eq_true_eq] at h
  rcases h with ((h | rfl) | rfl) | rfl
  · exact isBlank_of_isNameChar h
  · decide
  · decide
  · decide

theorem isTypeChar_of_isNameChar {c : Char} (h : isNameChar c = true) : isTypeChar c = true := by
  simp [isTypeChar, h]

theorem isTypeChar_of_isBlank {c : Char} (h : isBlank c = true) : isTypeChar c = false := by
  cases ht : isTypeChar c with
  | false => rfl
  | true =>
    rw [isBlank_of_isTypeChar ht] at h
    cases h

/-- A run of blanks, possibly empty. -/
def Gap (g : List Char) : Prop :=
  ∀ c ∈ g, isBlank c = true

instance (g : List Char) : Decidable (Gap g) :=
  inferInstanceAs (Decidable (∀ c ∈ g, _))

/-- A word without blanks. -/
def Solid (w : List Char) : Prop :=
  w ≠ [] ∧ ∀ c ∈ w, isBlank c = false

/-- The end of the first text and the beginning of the second would not be read as one type. -/
def Apart (a b : List Char) : Prop :=
  ∀ c ∈ a.getLast?, isTypeChar c = true → Stops isTypeChar b

/-- The text is made of the words in order, with gaps before, between and behind them. -/
inductive Spaced : List (List Char) → List Char → Prop
  | gap {g : List Char} : Gap g → Spaced [] g
  | word {g w : List Char} {ws : List (List Char)} {cs : List Char} :
      Gap g → Apart w cs → Spaced ws cs → Spaced (w :: ws) (g ++ w ++ cs)

section Gaps

variable {g a b w : List Char} {c : Char}

theorem Gap.nil : Gap [] := by
  simp [Gap]

theorem Gap.head (h : Gap (c :: g)) : isBlank c = true :=
  h c List.mem_cons_self

theorem Gap.tail (h : Gap (c :: g)) : Gap g :=
  fun d hd => h d (List.mem_cons_of_mem c hd)

theorem Gap.append (ha : Gap a) (hb : Gap b) : Gap (a ++ b) := by
  intro c hc
  rcases List.mem_append.mp hc with hc | hc
  · exact ha c hc
  · exact hb c hc

theorem Gap.not_isNameChar (h : Gap g) : ∀ c ∈ g, isNameChar c = false :=
  fun c hc => isNameChar_of_isBlank (h c hc)

theorem Gap.not_isNameChar_concat (h : Gap g) (hc : isNameChar c = false) :
    ∀ d ∈ g ++ [c], isNameChar d = false := by
  intro d hd
  rcases List.mem_append.mp hd with hd | hd
  · exact h.not_isNameChar d hd
  · rw [List.mem_singleton.mp hd]
    exact hc

theorem Gap.stops {p : Char → Bool} (h : Gap g) (hp : ∀ c, isBlank c = true → p c = false)
    {cs : List Char} (hcs : Stops p cs) : Stops p (g ++ cs) := by
  cases g with
  | nil => exact hcs
  | cons c g => exact Stops.cons (hp c h.head)

theorem Apart.of_append (h : Apart w (a ++ b)) : Apart w a :=
  fun c hc ht => (h c hc ht).of_append

theorem Apart.nil_left : Apart [] b := by
  simp [Apart]

theorem Solid.stops_blank (h : Solid w) (cs : List Char) : Stops isBlank (w ++ cs) := by
  obtain ⟨c, w, rfl⟩ := List.exists_cons_of_ne_nil h.1
  exact Stops.cons (h.2 c List.mem_cons_self)

end Gaps

namespace Spaced

variable {ws vs : List (List Char)} {a b cs g w : List Char}

theorem chars {P : Char → Prop} (h : Spaced ws cs) (blank : ∀ c, isBlank c = true → P c)
    (words : ∀ w ∈ ws, ∀ c ∈ w, P c) : ∀ c ∈ cs, P c := by
  induction h with
  | gap hg => exact fun c hc => blank c (hg c hc)
  | word hg _ _ ih =>
    intro c hc
    rw [List.mem_append, List.mem_append] at hc
    rcases hc with (hc | hc) | hc
    · exact blank c (hg c hc)
    · exact words _ List.mem_cons_self c hc
    · exact ih (fun w hw => words w (List.mem_cons_of_mem _ hw)) c hc

/-- The text around one of the words. -/
theorem split (h : Spaced (ws ++ w :: vs) cs) :
    ∃ a b, cs = a ++ w ++ b ∧ Spaced ws a ∧ Apart w b ∧ Spaced vs b := by
  induction ws generalizing cs with
  | nil =>
    cases h with
    | word hg apart hrest => exact ⟨_, _, rfl, .gap hg, apart, hrest⟩
  | cons v ws ih =>
    cases h with
    | word hg apart hrest =>
      obtain ⟨a, b, rfl, ha, hw, hb⟩ := ih hrest
      rw [List.append_assoc] at apart
      refine ⟨_, b, ?_, .word hg apart.of_append ha, hw, hb⟩
      simp only [List.append_assoc]

theorem gap_append (hg : Gap g) (h : Spaced ws cs) : Spaced ws (g ++ cs) := by
  cases h with
  | gap hg' => exact .gap (hg.append hg')
  | word hg' apart hrest =>
    rw [← List.append_assoc, ← List.append_assoc]
    exact .word (hg.append hg') apart hrest

theorem append (ha : Spaced ws a) (hb : Spaced vs b) (apart : Apart a b) :
    Spaced (ws ++ vs) (a ++ b) := by
  induction ha with
  | gap hg => exact hb.gap_append hg
  | @word g w ws cs hg hw hrest ih =>
    rw [List.append_assoc]
    refine .word hg ?_ (ih ?_)
    · cases cs with
      | nil =>
        intro c hc
        apply apart c
        rw [List.append_nil, List.getLast?_append, hc, Option.some_or]
        rfl
      | cons c cs => exact fun d hd ht => Stops.cons (hw d hd ht).head
    · cases cs with
      | nil => exact Apart.nil_left
      | cons c cs =>
        intro d hd
        apply apart d
        rw [List.getLast?_append, hd]
        rfl

/-- The same gap in front of every word spaces a text. -/
theorem flatMap (hg : Gap g) (nonempty : g ≠ []) (ws : List (List Char)) :
    Spaced ws (ws.flatMap (g ++ ·)) := by
  induction ws with
  | nil => exact .gap Gap.nil
  | cons w ws ih =>
    refine .word hg (fun _ _ _ => ?_) ih
    cases ws with
    | nil => exact Stops.nil
    | cons v ws =>
      obtain ⟨c, g, rfl⟩ := List.exists_cons_of_ne_nil nonempty
      exact Stops.cons (isTypeChar_of_isBlank hg.head)

end Spaced

section Collapse

variable {g a b w cs : List Char} {c : Char}

theorem collapseFrom_solid (inRun : Bool) (h : isBlank c = false) :
    collapseFrom inRun (c :: cs) = c :: collapse cs := by
  simp [collapseFrom, collapse, h]

theorem collapseFrom_gap (hg : Gap g) (cs : List Char) :
    collapseFrom true (g ++ cs) = collapseFrom true cs := by
  induction g with
  | nil => rfl
  | cons c g ih =>
    rw [List.cons_append, collapseFrom, if_pos hg.head, if_pos rfl]
    exact ih hg.tail

/-- What a gap becomes in the normal form. -/
def shortGap (g : List Char) : List Char :=
  if g.isEmpty then [] else [' ']

theorem gap_shortGap (g : List Char) : Gap (shortGap g) := by
  intro c hc
  unfold shortGap at hc
  split at hc
  · cases hc
  · rw [List.mem_singleton.mp hc]
    decide

theorem collapse_gap_append (hg : Gap g) (h : Stops isBlank cs) :
    collapse (g ++ cs) = shortGap g ++ collapse cs := by
  cases g with
  | nil => rfl
  | cons c g =>
    have hrun : collapseFrom true cs = collapse cs := by
      cases cs with
      | nil => rfl
      | cons d cs =>
        rw [collapseFrom_solid true h.head]
        exact (collapseFrom_solid false h.head).symm
    rw [List.cons_append, collapse, collapseFrom, if_pos hg.head, if_neg (by simp),
      collapseFrom_gap hg.tail, hrun]
    rfl

theorem collapse_gap (hg : Gap g) : collapse g = shortGap g := by
  have h := collapse_gap_append hg (Stops.nil (p := isBlank))
  rw [List.append_nil] at h
  simpa [collapse, collapseFrom] using h

theorem collapse_solid_append (h : ∀ c ∈ w, isBlank c = false) (cs : List Char) :
    collapse (w ++ cs) = w ++ collapse cs := by
  induction w with
  | nil => rfl
  | cons c w ih =>
    rw [List.cons_append, collapse, collapseFrom_solid false (h c List.mem_cons_self),
      ih fun c hc => h c (List.mem_cons_of_mem _ hc), List.cons_append]

/-- Both sides of a character that is no blank are collapsed on their own. -/
theorem collapse_append_cons (a : List Char) (h : isBlank c = false) (b : List Char) :
    collapse (a ++ c :: b) = collapse a ++ c :: collapse b := by
  suffices ∀ inRun, collapseFrom inRun (a ++ c :: b) = collapseFrom inRun a ++ c :: collapse b
    from this false
  induction a with
  | nil => exact fun inRun => collapseFrom_solid inRun h
  | cons d a ih =>
    intro inRun
    rw [List.cons_append]
    simp only [collapseFrom, ih]
    split
    · split
      · rfl
      · rfl
    · rfl

theorem stops_collapse {p : Char → Bool} (h : Stops p cs) (space : p ' ' = false) :
    Stops p (collapse cs) := by
  cases cs with
  | nil => exact Stops.nil
  | cons c cs =>
    rw [collapse, collapseFrom]
    split
    · exact Stops.cons space
    · exact Stops.cons h.head

theorem Spaced.collapse {ws : List (List Char)} (h : Spaced ws cs) (solid : ∀ w ∈ ws, Solid w) :
    Spaced ws (collapse cs) := by
  induction h with
  | gap hg =>
    rw [collapse_gap hg]
    exact .gap (gap_shortGap _)
  | @word g w ws cs hg apart hrest ih =>
    have hw := solid w List.mem_cons_self
    rw [List.append_assoc, collapse_gap_append hg (hw.stops_blank cs),
      collapse_solid_append hw.2, ← List.append_assoc]
    refine .word (gap_shortGap g) ?_ (ih fun w hw => solid w (List.mem_cons_of_mem _ hw))
    exact fun c hc ht => stops_collapse (apart c hc ht) (by decide)

end Collapse

section Trim

variable {p : Char → Bool} {a b g cs : List Char} {c : Char}

theorem trimBy_eq (p : Char → Bool) (cs : List Char) :
    trimBy p cs = trimEndBy p (cs.dropWhile p) :=
  rfl

theorem trimBy_inside (p : Char → Bool) (cs : List Char) : trimBy p cs <:+: cs := by
  have front : trimBy p cs <+: cs.dropWhile p := by
    rw [← List.reverse_suffix, trimBy, List.reverse_reverse]
    exact List.dropWhile_suffix p
  exact front.isInfix.trans (List.dropWhile_suffix p).isInfix

/-- Behind a character that stays, only the rest is trimmed. -/
theorem trimEndBy_append (last : a.getLast? = some c) (h : p c = false) (b : List Char) :
    trimEndBy p (a ++ b) = a ++ trimEndBy p b := by
  have stops : a.reverse.dropWhile p = a.reverse := by
    apply Stops.dropWhile
    intro d hd
    rw [List.head?_reverse, last] at hd
    cases hd
    exact h
  rw [trimEndBy, List.reverse_append, List.dropWhile_append]
  split
  · rename_i hb
    rw [stops, List.reverse_reverse, trimEndBy, List.isEmpty_iff.mp hb]
    simp
  · simp [trimEndBy]

theorem trimEndBy_of_all (h : ∀ c ∈ cs, p c = true) : trimEndBy p cs = [] := by
  rw [trimEndBy, dropWhile_all fun c hc => h c (List.mem_reverse.mp hc)]
  rfl

theorem append_of_trimEndBy (p : Char → Bool) (cs : List Char) :
    ∃ t, cs = trimEndBy p cs ++ t := by
  refine ⟨(cs.reverse.takeWhile p).reverse, ?_⟩
  rw [trimEndBy, ← List.reverse_append, List.takeWhile_append_dropWhile, List.reverse_reverse]

/-- A character that is no blank parts what is trimmed at both ends. -/
theorem trim_append_cons (a : List Char) (h : isBlank c = false) (b : List Char) :
    Text.trim (a ++ c :: b) = a.dropWhile isBlank ++ c :: trimEndBy isBlank b := by
  have start : (a ++ c :: b).dropWhile isBlank = (a.dropWhile isBlank ++ [c]) ++ b := by
    rw [List.dropWhile_append]
    split
    · rename_i hempty
      rw [(Stops.cons h).dropWhile, List.isEmpty_iff.mp hempty]
      rfl
    · simp
  rw [Text.trim, trimBy_eq, start, trimEndBy_append (List.getLast?_concat ..) h,
    List.append_assoc, List.singleton_append]

theorem trim_collapse_ne_nil (h : c ∈ cs) (hc : isBlank c = false) :
    Text.trim (collapse cs) ≠ [] := by
  obtain ⟨a, r, rfl⟩ := List.append_of_mem h
  rw [collapse_append_cons a hc, trim_append_cons _ hc]
  simp

theorem getLast?_append_of_solid {w : List Char} (h : Solid w) (a : List Char) :
    ∃ c, (a ++ w).getLast? = some c ∧ isBlank c = false := by
  refine ⟨w.getLast h.1, ?_, h.2 _ (List.getLast_mem h.1)⟩
  rw [List.getLast?_append, List.getLast?_eq_some_getLast h.1]
  rfl

namespace Spaced

variable {ws : List (List Char)}

theorem trimStart (h : Spaced ws cs) (solid : ∀ w ∈ ws, Solid w) :
    Spaced ws (cs.dropWhile isBlank) := by
  cases h with
  | gap hg =>
    rw [dropWhile_all hg]
    exact .gap Gap.nil
  | word hg apart hrest =>
    rw [List.append_assoc, List.dropWhile_append_of_pos hg,
      ((solid _ List.mem_cons_self).stops_blank _).dropWhile]
    exact .word (g := []) Gap.nil apart hrest

theorem trimEnd (h : Spaced ws cs) (solid : ∀ w ∈ ws, Solid w) :
    Spaced ws (trimEndBy isBlank cs) := by
  induction h with
  | gap hg =>
    rw [trimEndBy_of_all hg]
    exact .gap Gap.nil
  | @word g w ws cs hg apart hrest ih =>
    obtain ⟨c, last, hc⟩ := getLast?_append_of_solid (solid w List.mem_cons_self) g
    rw [trimEndBy_append last hc]
    refine .word hg ?_ (ih fun w hw => solid w (List.mem_cons_of_mem _ hw))
    obtain ⟨t, ht⟩ := append_of_trimEndBy isBlank cs
    rw [ht] at apart
    exact apart.of_append

theorem trim (h : Spaced ws cs) (solid : ∀ w ∈ ws, Solid w) : Spaced ws (trim cs) :=
  (h.trimStart solid).trimEnd solid

end Spaced

end Trim

end SchemaClient.Source
