import SchemaClient.Proofs.Source.BlockText
import SchemaClient.Proofs.Source.NoiseShapes

/-!
# Normal form

What is left without noise has no number sign and no at sign in front of a name, even where a match
was taken out and other characters have come together. In the normal form blanks are single spaces,
none of them at the ends, and the normal form is empty exactly if blanks alone are left.
-/

namespace SchemaClient.Source

open Text

variable {cs left found rest : List Char} {c : Char}

/-! ## What is left without noise -/

theorem stops_of_directive (h : Directive found rest) : Stops isNameChar rest := by
  obtain ⟨name, -, -, stops⟩ := h
  exact stops

theorem stops_of_comment (h : Comment found rest) : Stops isNameChar rest := by
  obtain ⟨line, -, -, stops⟩ := h
  refine stops.mono fun c hc => ?_
  simpa using ne_of_apply hc (by decide)

theorem parted_directive (h : Without Directive cs left) : Parted '@' isNameChar left := by
  refine h.parted (fun found rest => stops_of_directive) fun t _ miss => ?_
  cases hrun : run? isNameChar t with
  | none => exact stops_of_run? hrun
  | some named =>
    -- A name behind the at sign would have been taken out with it.
    obtain ⟨name, rest⟩ := named
    obtain ⟨rfl, nonempty, all, stops⟩ := run?_eq_some hrun
    exact absurd rfl (miss ('@' :: name) rest ⟨name, rfl, ⟨nonempty, all⟩, stops⟩)

theorem parted_comment (h : Without Comment cs left) (hcs : Parted '@' isNameChar cs) :
    Parted '@' isNameChar left := by
  refine h.parted (fun found rest => stops_of_comment) fun t ht _ => ?_
  exact (Parted.cons_iff.mp (hcs.inside ht.isInfix)).1 rfl

theorem not_mem_comment (h : Without Comment cs left) : '#' ∉ left := by
  induction h with
  | nil => simp
  | hit _ _ ih => exact ih
  | @skip c cs left miss _ ih =>
    rw [List.mem_cons, not_or]
    refine ⟨?_, ih⟩
    rintro rfl
    -- A number sign begins a comment, whatever follows it.
    have begins : comment ('#' :: cs) = some ((cs.takeWhile (· ≠ '\n')).length + 1) := rfl
    obtain ⟨found, rest, heq, -, matched⟩ := finds_comment.eq_some_iff.mp begins
    exact miss found rest matched heq.symm

/-! ## Single spaces -/

/-- A text without noise in which blanks are single spaces, none of them at the ends. -/
structure Normalised (cs : List Char) : Prop where
  nonempty : cs ≠ []
  starts : ∀ c ∈ cs.head?, isBlank c = false
  ends : ∀ c ∈ cs.getLast?, isBlank c = false
  spaces : ∀ c ∈ cs, isBlank c = true → c = ' '
  single : ¬ [' ', ' '] <:+: cs
  unmarked : '#' ∉ cs
  undirected : ∀ c, isNameChar c = true → ¬ ['@', c] <:+: cs

theorem stops_collapseFrom (cs : List Char) : Stops isBlank (collapseFrom true cs) := by
  induction cs with
  | nil => exact Stops.nil
  | cons c cs ih =>
    by_cases hc : isBlank c = true
    · rw [collapseFrom, if_pos hc, if_pos rfl]
      exact ih
    · rw [collapseFrom_solid true (by simpa using hc)]
      exact Stops.cons (by simpa using hc)

theorem parted_collapse_space (cs : List Char) : Parted ' ' isBlank (collapse cs) := by
  suffices ∀ inRun, Parted ' ' isBlank (collapseFrom inRun cs) from this false
  induction cs with
  | nil => exact fun _ => Parted.nil
  | cons c cs ih =>
    intro inRun
    rw [collapseFrom]
    split
    · split
      · exact ih true
      · exact Parted.cons_iff.mpr ⟨fun _ => stops_collapseFrom cs, ih true⟩
    · rename_i hc
      refine Parted.cons_iff.mpr ⟨?_, ih false⟩
      rintro rfl
      exact absurd rfl hc

theorem parted_collapse {a : Char} {p : Char → Bool} (h : Parted a p cs)
    (solid : isBlank a = false) (space : p ' ' = false) : Parted a p (collapse cs) := by
  suffices ∀ inRun, Parted a p (collapseFrom inRun cs) from this false
  induction cs with
  | nil => exact fun _ => Parted.nil
  | cons c cs ih =>
    obtain ⟨start, rest⟩ := Parted.cons_iff.mp h
    intro inRun
    rw [collapseFrom]
    split
    · rename_i hc
      split
      · exact ih rest true
      · refine Parted.cons_iff.mpr ⟨?_, ih rest true⟩
        rintro rfl
        cases solid
    · refine Parted.cons_iff.mpr ⟨fun hca => stops_collapse (start hca) space, ih rest false⟩

theorem stops_trimBy (p : Char → Bool) (cs : List Char) :
    Stops p (trimBy p cs) ∧ Stops p (trimBy p cs).reverse := by
  constructor
  · obtain ⟨t, ht⟩ := append_of_trimEndBy p (cs.dropWhile p)
    have stops := stops_dropWhile p cs
    rw [ht, ← trimBy_eq] at stops
    exact stops.of_append
  · rw [trimBy, List.reverse_reverse]
    exact stops_dropWhile p _

/-- The characters that are no blanks. -/
def solids (cs : List Char) : List Char :=
  cs.filter fun c => !isBlank c

theorem solids_eq_nil_iff : solids cs = [] ↔ Gap cs := by
  simp [solids, Gap]

theorem solids_collapse (cs : List Char) : solids (collapse cs) = solids cs := by
  suffices ∀ inRun, solids (collapseFrom inRun cs) = solids cs from this false
  induction cs with
  | nil => exact fun _ => rfl
  | cons c cs ih =>
    have space : isBlank ' ' = true := by decide
    intro inRun
    by_cases hc : isBlank c = true
    · cases inRun with
      | true => simpa [collapseFrom, solids, hc] using ih true
      | false => simpa [collapseFrom, solids, hc, space] using ih true
    · simpa [collapseFrom, solids, hc] using ih false

theorem solids_dropWhile (cs : List Char) : solids (cs.dropWhile isBlank) = solids cs := by
  induction cs with
  | nil => rfl
  | cons c cs ih =>
    by_cases hc : isBlank c = true
    · rw [List.dropWhile_cons_of_pos hc, ih]
      simp [solids, hc]
    · rw [List.dropWhile_cons_of_neg hc]

theorem solids_reverse (cs : List Char) : solids cs.reverse = (solids cs).reverse :=
  List.filter_reverse ..

theorem solids_trim (cs : List Char) : solids (trim cs) = solids cs := by
  rw [trim, trimBy, solids_reverse, solids_dropWhile, solids_reverse, List.reverse_reverse,
    solids_dropWhile]

/-- The normal form says what is left without noise. -/
theorem solids_normal (cs : List Char) : solids (normal cs) = solids (withoutNoise cs) := by
  rw [normal, solids_trim, solids_collapse]

theorem normal_inside (cs : List Char) : normal cs <:+: collapse (withoutNoise cs) :=
  trimBy_inside isBlank _

theorem stops_normal (cs : List Char) :
    Stops isBlank (normal cs) ∧ Stops isBlank (normal cs).reverse :=
  stops_trimBy isBlank _

theorem normal_eq_nil_iff : normal cs = [] ↔ Gap (withoutNoise cs) := by
  rw [← solids_eq_nil_iff, ← solids_normal]
  constructor
  · intro h
    rw [h]
    rfl
  · intro h
    have start := (stops_normal cs).1
    cases hnormal : normal cs with
    | nil => rfl
    | cons c rest =>
      rw [hnormal] at start h
      exact absurd (solids_eq_nil_iff.mp h c List.mem_cons_self) (by simp [start.head])

theorem normalised_normal (h : normal cs ≠ []) : Normalised (normal cs) := by
  obtain ⟨unquoted, undirected, unmarked, -, -, hnames, hcomments⟩ :=
    stripped_iff.mpr (rfl : withoutNoise cs = _)
  have directives : Parted '@' isNameChar (collapse (withoutNoise cs)) :=
    parted_collapse (parted_comment hcomments (parted_directive hnames)) (by decide) (by decide)
  have spaces := parted_collapse_space (withoutNoise cs)
  refine ⟨h, (stops_normal cs).1, ?_, ?_, ?_, ?_, directives.inside (normal_inside cs)⟩
  · intro c hc
    apply (stops_normal cs).2
    rwa [List.head?_reverse]
  · intro c hc blank
    refine (solid_of_mem_collapse (mem_trim hc)).resolve_right fun solid => ?_
    rw [solid.2] at blank
    cases blank
  · exact spaces.inside (normal_inside cs) ' ' (by decide)
  · intro hmem
    rcases mem_collapse (mem_trim hmem) with space | hmem
    · exact absurd space (by decide)
    · exact not_mem_comment hcomments hmem

theorem normalise_eq_error_iff {text : String} :
    normalise text = .error .emptySchema ↔ normal text.toList = [] := by
  rw [normalise]
  split
  · simp_all
  · simp_all

/-- One text is left without block strings, directives and comments. The schema is empty exactly if
this is all blanks, and otherwise it has a normal form with the same characters but for blanks. -/
theorem normalise_normalises (text : String) :
    ∃ left, (∀ l, Stripped text.toList l ↔ l = left) ∧
      (normalise text = .error .emptySchema ↔ ∀ c ∈ left, isBlank c = true) ∧
      (normalise text = .error .emptySchema ∨
        ∃ result, normalise text = .ok result ∧ Normalised result.toList ∧
          solids result.toList = solids left) := by
  refine ⟨withoutNoise text.toList, fun l => ?_, ?_, ?_⟩
  · rw [stripped_iff, eq_comm]
  · exact normalise_eq_error_iff.trans normal_eq_nil_iff
  · by_cases empty : normal text.toList = []
    · exact .inl (normalise_eq_error_iff.mpr empty)
    · have result := normalise_of_ne_nil empty
      rw [String.ofList_toList] at result
      refine .inr ⟨_, result, ?_⟩
      rw [String.toList_ofList]
      exact ⟨normalised_normal empty, solids_normal _⟩

-- An at sign whose name goes with another one, and a comment that a directive comes before.
example : normal "a @@b(c: 1) \t@d#e\n @\u2003f".toList = "a @ @ f".toList := by decide

end SchemaClient.Source
