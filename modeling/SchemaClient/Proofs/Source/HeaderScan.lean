import SchemaClient.Proofs.Source.Spacing
import SchemaClient.Source.Header

/-!
# How headers are looked for

A header is a keyword and a name, or `extend` and these; it reaches up to the next brace, which has
to open a block. The search passes over everything in which no header starts.
-/

namespace SchemaClient.Source

open Text

/-- A word of letters, digits and underscores. -/
def IsWord (w : List Char) : Prop :=
  w ≠ [] ∧ ∀ c ∈ w, isNameChar c = true

/-- A word that starts with no digit. -/
def IsName (w : List Char) : Prop :=
  (w.head?.map isNameStart).getD false = true ∧ ∀ c ∈ w, isNameChar c = true

instance (w : List Char) : Decidable (IsName w) :=
  inferInstanceAs (Decidable (_ ∧ _))

/-- A punctuation mark other than a brace. -/
def IsMark (w : List Char) : Prop :=
  w ≠ [] ∧ ∀ c ∈ w, isWordChar c = false ∧ isBlank c = false ∧ isBrace c = false

def IsToken (w : List Char) : Prop :=
  IsWord w ∨ IsMark w

section Words

variable {w cs : List Char} {c : Char}

theorem isBrace_of_apply {p : Char → Bool} (h : p c = true) (opening : p '\x7b' = false)
    (closing : p '\x7d' = false) : isBrace c = false := by
  simp [isBrace, ne_of_apply h opening, ne_of_apply h closing]

theorem isBrace_of_isNameChar (h : isNameChar c = true) : isBrace c = false :=
  isBrace_of_apply h (by decide) (by decide)

theorem isBrace_of_isBlank (h : isBlank c = true) : isBrace c = false :=
  isBrace_of_apply h (by decide) (by decide)

theorem IsName.isWord (h : IsName w) : IsWord w := by
  refine ⟨?_, h.2⟩
  rintro rfl
  cases h.1

theorem IsToken.solid (h : IsToken w) : Solid w := by
  rcases h with h | h
  · exact ⟨h.1, fun c hc => isBlank_of_isNameChar (h.2 c hc)⟩
  · exact ⟨h.1, fun c hc => (h.2 c hc).2.1⟩

theorem IsToken.isBrace (h : IsToken w) : ∀ c ∈ w, isBrace c = false := by
  rcases h with h | h
  · exact fun c hc => isBrace_of_isNameChar (h.2 c hc)
  · exact fun c hc => (h.2 c hc).2.2

theorem IsMark.isNameChar (h : IsMark w) (hc : c ∈ w) : isNameChar c = false := by
  cases hn : Text.isNameChar c with
  | false => rfl
  | true =>
    have := isWordChar_of_isNameChar hn
    rw [(h.2 c hc).1] at this
    cases this

/-- Behind a word stands no character that would belong to it. -/
theorem Apart.stops (h : Apart w cs) (hw : IsWord w) : Stops isNameChar cs := by
  have hlast := h (w.getLast hw.1) (List.getLast?_eq_some_getLast hw.1)
    (isTypeChar_of_isNameChar (hw.2 _ (List.getLast_mem hw.1)))
  intro c hc
  cases hn : isNameChar c with
  | false => rfl
  | true =>
    have := hlast c hc
    rw [isTypeChar_of_isNameChar hn] at this
    cases this

theorem isWord_keyword (kind : DefinitionKind) : IsWord kind.keyword.toList := by
  cases kind <;> exact ⟨by decide, by decide⟩

theorem isWord_extend : IsWord extendWord :=
  ⟨by decide, by decide⟩

theorem extend_ne_keyword (kind : DefinitionKind) : extendWord ≠ kind.keyword.toList := by
  cases kind <;> decide

/-- Two ways to cut the same text behind its first word agree. -/
theorem word_unique {v ds : List Char} (hw : IsWord w) (hv : IsWord v) (hcs : Stops isNameChar cs)
    (hds : Stops isNameChar ds) (h : w ++ cs = v ++ ds) : w = v ∧ cs = ds := by
  have hrun := run?_run hw.1 hw.2 hcs
  rw [h, run?_run hv.1 hv.2 hds] at hrun
  cases hrun
  exact ⟨rfl, rfl⟩

end Words

section Header

variable {keyword name block cs rest g : List Char}

/-- A header without `extend`, as it stands in a text. -/
structure PlainHeader (keyword name block cs : List Char) : Prop where
  reads : ∃ g rest, cs = keyword ++ g ++ name ++ rest ∧ g ≠ [] ∧ Gap g ∧ Stops isNameChar rest ∧
    rest.dropWhile (!isBrace ·) = block
  isName : IsName name
  opens : ∃ inner, block = '\x7b' :: inner

theorem nameAt?_eq_some (h : nameAt? cs = some (name, rest)) :
    cs = name ++ rest ∧ IsName name ∧ Stops isNameChar rest := by
  unfold nameAt? at h
  split at h
  · rename_i hstart
    obtain ⟨rfl, hne, hall, hstops⟩ := run?_eq_some h
    refine ⟨rfl, ⟨?_, hall⟩, hstops⟩
    obtain ⟨c, w, rfl⟩ := List.exists_cons_of_ne_nil hne
    exact hstart
  · cases h

theorem nameAt?_name (hname : IsName name) (stops : Stops isNameChar rest) :
    nameAt? (name ++ rest) = some (name, rest) := by
  have hw := hname.isWord
  have hstart : ((name ++ rest).head?.map isNameStart).getD false = true := by
    obtain ⟨c, w, rfl⟩ := List.exists_cons_of_ne_nil hw.1
    exact hname.1
  rw [nameAt?, if_pos hstart, run?_run hw.1 hw.2 stops]

theorem plainHeader?_iff :
    plainHeader? keyword cs = some (name, block) ↔ PlainHeader keyword name block cs := by
  constructor
  · intro h
    simp only [plainHeader?, afterBlanks?, Option.bind_eq_bind, Option.bind_eq_some_iff,
      Option.map_eq_some_iff] at h
    obtain ⟨r₁, hafter, r₂, ⟨⟨g, r⟩, hrun, rfl⟩, ⟨n, r₃⟩, hname, hblock⟩ := h
    obtain rfl := after?_eq_some hafter
    obtain ⟨rfl, hne, hgap, -⟩ := run?_eq_some hrun
    obtain ⟨hr, hn, hstops⟩ := nameAt?_eq_some hname
    simp only at hr hblock
    split at hblock
    · rename_i inner hdrop
      cases hblock
      refine ⟨⟨g, r₃, ?_, hne, hgap, hstops, hdrop⟩, hn, inner, rfl⟩
      rw [hr]
      simp only [List.append_assoc]
    · cases hblock
  · rintro ⟨⟨g, rest, rfl, hne, hgap, hstops, hdrop⟩, hn, inner, rfl⟩
    have hstart : Stops isBlank (name ++ rest) :=
      (IsToken.solid (Or.inl hn.isWord)).stops_blank rest
    simp only [plainHeader?, afterBlanks?, List.append_assoc, after?_append, Option.bind_eq_bind,
      Option.bind_some, run?_run hne hgap hstart, Option.map_some, nameAt?_name hn hstops, hdrop]

theorem PlainHeader.block_eq (h : PlainHeader keyword name block cs)
    (hk : ∀ c ∈ keyword, isBrace c = false) : cs.dropWhile (!isBrace ·) = block := by
  obtain ⟨⟨g, rest, rfl, -, hgap, -, hdrop⟩, hn, -⟩ := h
  have braceless : ∀ c ∈ keyword ++ g ++ name, (!isBrace c) = true := by
    intro c hc
    rw [List.mem_append, List.mem_append] at hc
    rcases hc with (hc | hc) | hc
    · simp [hk c hc]
    · simp [isBrace_of_isBlank (hgap c hc)]
    · simp [isBrace_of_isNameChar (hn.2 c hc)]
  rw [List.dropWhile_append_of_pos braceless, hdrop]

theorem header?_eq_some (h : header? keyword cs = some (name, block)) :
    PlainHeader keyword name block cs ∨
      ∃ g rest, cs = extendWord ++ g ++ rest ∧ g ≠ [] ∧ Gap g ∧
        PlainHeader keyword name block rest := by
  unfold header? at h
  rw [Option.orElse_eq_orElse, Option.orElse_eq_or, Option.or_eq_some_iff] at h
  rcases h with h | ⟨-, h⟩
  · simp only [afterBlanks?, Option.bind_eq_bind, Option.bind_eq_some_iff,
      Option.map_eq_some_iff] at h
    obtain ⟨r₁, hafter, r₂, ⟨⟨g, r⟩, hrun, rfl⟩, hplain⟩ := h
    obtain rfl := after?_eq_some hafter
    obtain ⟨rfl, hne, hgap, -⟩ := run?_eq_some hrun
    exact Or.inr ⟨g, r, by simp only [List.append_assoc], hne, hgap, plainHeader?_iff.mp hplain⟩
  · exact Or.inl (plainHeader?_iff.mp h)

theorem header?_ne_none (h : PlainHeader keyword name block cs) : header? keyword cs ≠ none := by
  intro hnone
  unfold header? at hnone
  rw [Option.orElse_eq_orElse, Option.orElse_eq_or, Option.or_eq_none_iff] at hnone
  rw [plainHeader?_iff.mpr h] at hnone
  cases hnone.2

/-- A header reaches up to the first brace of the text, which opens a block. -/
theorem header?_block (kind : DefinitionKind)
    (h : header? kind.keyword.toList cs = some (name, block)) :
    cs.dropWhile (!isBrace ·) = block ∧ ∃ inner, block = '\x7b' :: inner := by
  have hk : ∀ c ∈ kind.keyword.toList, isBrace c = false :=
    fun c hc => isBrace_of_isNameChar ((isWord_keyword kind).2 c hc)
  rcases header?_eq_some h with h | ⟨g, rest, rfl, -, hgap, h⟩
  · exact ⟨h.block_eq hk, h.opens⟩
  · refine ⟨?_, h.opens⟩
    have braceless : ∀ c ∈ extendWord ++ g, (!isBrace c) = true := by
      intro c hc
      rcases List.mem_append.mp hc with hc | hc
      · simp [isBrace_of_isNameChar (isWord_extend.2 c hc)]
      · simp [isBrace_of_isBlank (hgap c hc)]
    rw [List.dropWhile_append_of_pos braceless, h.block_eq hk]

/-- Every header begins with a character of a name. -/
theorem header?_cons_of_not_isNameChar (kind : DefinitionKind) {c : Char}
    (hc : isNameChar c = false) (cs : List Char) :
    header? kind.keyword.toList (c :: cs) = none := by
  have starts : ∀ w ds, IsWord w → c :: cs ≠ w ++ ds := by
    intro w ds hw heq
    obtain ⟨d, w, rfl⟩ := List.exists_cons_of_ne_nil hw.1
    obtain ⟨rfl, -⟩ := List.cons.inj heq
    rw [hw.2 c List.mem_cons_self] at hc
    cases hc
  cases h : header? kind.keyword.toList (c :: cs) with
  | none => rfl
  | some found =>
    rcases header?_eq_some h with ⟨⟨g, rest, heq, -⟩, -⟩ | ⟨g, rest, heq, -⟩
    · rw [List.append_assoc, List.append_assoc] at heq
      exact absurd heq (starts _ _ (isWord_keyword kind))
    · rw [List.append_assoc] at heq
      exact absurd heq (starts _ _ isWord_extend)

end Header

section Scan

variable {kind : DefinitionKind} {previous : Option Char} {c : Char} {u w cs rest : List Char}

/-- The character before belongs to no word. -/
def Outside (previous : Option Char) : Prop :=
  ∀ c ∈ previous, isWordChar c = false

theorem outside_none : Outside none := by
  simp [Outside]

theorem outside_some {d : Char} (h : isWordChar d = false) : Outside (some d) := by
  intro c hc
  cases hc
  exact h

theorem outside_close : Outside (some '\x7d') :=
  outside_some (by decide)

theorem startsWord_of_outside (h : Outside previous) (hc : isNameChar c = true) :
    startsWord previous (c :: cs) = true := by
  have hw := isWordChar_of_isNameChar hc
  cases previous with
  | none => simp [startsWord, hw]
  | some d => simp [startsWord, hw, h d rfl]

theorem startsWord_inside {d : Char} (hd : isNameChar d = true) (hc : isNameChar c = true) :
    startsWord (some d) (c :: cs) = false := by
  simp [startsWord, isWordChar_of_isNameChar hd, isWordChar_of_isNameChar hc]

theorem headersFrom_of_none {keyword : List Char} (h : header? keyword (c :: cs) = none) :
    headersFrom keyword previous 0 (c :: cs) = headersFrom keyword (some c) 0 cs := by
  rw [headersFrom, h]

theorem headersFrom_of_some {keyword name block : List Char}
    (h : header? keyword (c :: cs) = some (name, block)) :
    headersFrom keyword previous 0 (c :: cs) =
      if startsWord previous (c :: cs) then
        (name, block) :: headersFrom keyword (some c) (cs.length + 1 - block.length) cs
      else headersFrom keyword (some c) 0 cs := by
  rw [headersFrom, h]

theorem headersFrom_pass (kind : DefinitionKind) (previous : Option Char)
    (h : ∀ c ∈ u, isNameChar c = false) (cs : List Char) :
    headersFrom kind.keyword.toList previous 0 (u ++ cs) =
      headersFrom kind.keyword.toList (u.getLast?.or previous) 0 cs := by
  induction u generalizing previous with
  | nil => rfl
  | cons c u ih =>
    rw [List.cons_append,
      headersFrom_of_none (header?_cons_of_not_isNameChar kind (h c List.mem_cons_self) _)]
    rw [ih (some c) fun d hd => h d (List.mem_cons_of_mem _ hd), List.getLast?_cons]
    cases u.getLast? <;> rfl

theorem headersFrom_inside (kind : DefinitionKind) {d : Char} (hd : isNameChar d = true)
    (h : ∀ c ∈ w, isNameChar c = true) (cs : List Char) :
    ∃ e, headersFrom kind.keyword.toList (some d) 0 (w ++ cs) =
      headersFrom kind.keyword.toList (some e) 0 cs := by
  induction w generalizing d with
  | nil => exact ⟨d, rfl⟩
  | cons c w ih =>
    have hc := h c List.mem_cons_self
    obtain ⟨e, he⟩ := ih hc fun c hc => h c (List.mem_cons_of_mem _ hc)
    refine ⟨e, ?_⟩
    rw [List.cons_append]
    cases header : header? kind.keyword.toList (c :: (w ++ cs)) with
    | none => rw [headersFrom_of_none header, he]
    | some found => rw [headersFrom_of_some header, startsWord_inside hd hc, if_neg (by simp), he]

theorem headersFrom_skip (keyword : List Char) (previous : Option Char) (u : List Char)
    (c : Char) (cs : List Char) :
    headersFrom keyword previous (u.length + 1) (u ++ c :: cs) =
      headersFrom keyword (some c) 0 cs := by
  induction u generalizing previous with
  | nil => rfl
  | cons d u ih => exact ih (some d)

theorem headersFrom_found {name : List Char}
    (h : header? kind.keyword.toList (c :: u ++ '\x7b' :: rest) = some (name, '\x7b' :: rest))
    (starts : startsWord previous (c :: u ++ '\x7b' :: rest) = true) :
    headersFrom kind.keyword.toList previous 0 (c :: u ++ '\x7b' :: rest) =
      (name, '\x7b' :: rest) :: headersFrom kind.keyword.toList (some '\x7b') 0 rest := by
  rw [List.cons_append] at h starts ⊢
  rw [headersFrom_of_some h, if_pos starts]
  have hlen : (u ++ '\x7b' :: rest).length + 1 - ('\x7b' :: rest).length = u.length + 1 := by
    simp only [List.length_append, List.length_cons]
    omega
  rw [hlen, headersFrom_skip]

/-- In front of a closing brace no header starts. -/
theorem headersFrom_close (kind : DefinitionKind) (previous : Option Char)
    (h : ∀ c ∈ u, isBrace c = false) (rest : List Char) :
    headersFrom kind.keyword.toList previous 0 (u ++ '\x7d' :: rest) =
      headersFrom kind.keyword.toList (some '\x7d') 0 rest := by
  have closed : ∀ v, (∀ c ∈ v, isBrace c = false) →
      header? kind.keyword.toList (v ++ '\x7d' :: rest) = none := by
    intro v hv
    cases hh : header? kind.keyword.toList (v ++ '\x7d' :: rest) with
    | none => rfl
    | some found =>
      obtain ⟨name, block⟩ := found
      obtain ⟨hblock, inner, rfl⟩ := header?_block kind hh
      rw [List.dropWhile_append_of_pos fun c hc => by simp [hv c hc]] at hblock
      cases hblock
  induction u generalizing previous with
  | nil =>
    have := closed [] h
    rw [List.nil_append] at this ⊢
    rw [headersFrom_of_none this]
  | cons c u ih =>
    have := closed (c :: u) h
    rw [List.cons_append] at this ⊢
    rw [headersFrom_of_none this]
    exact ih (some c) fun d hd => h d (List.mem_cons_of_mem _ hd)

/-- Whatever stands in front of a closing brace, the search begins anew behind it. -/
theorem headersFrom_behind_close (kind : DefinitionKind) (previous : Option Char) {passed : Nat}
    (room : passed ≤ u.length) (rest : List Char) :
    ∃ hs, headersFrom kind.keyword.toList previous passed (u ++ '\x7d' :: rest) =
      hs ++ headersFrom kind.keyword.toList (some '\x7d') 0 rest := by
  induction u generalizing previous passed with
  | nil =>
    obtain rfl : passed = 0 := by simpa using room
    exact ⟨[], headersFrom_close kind previous (by simp) rest⟩
  | cons c u ih =>
    rw [List.length_cons] at room
    cases passed with
    | succ passed => exact ih (some c) (by omega)
    | zero =>
      rw [List.cons_append]
      cases header : header? kind.keyword.toList (c :: (u ++ '\x7d' :: rest)) with
      | none =>
        rw [headersFrom_of_none header]
        exact ih (some c) (Nat.zero_le _)
      | some found =>
        obtain ⟨name, block⟩ := found
        -- The header ends at an opening brace, so in front of the closing one.
        have inside : (u ++ '\x7d' :: rest).length + 1 - block.length ≤ u.length := by
          obtain ⟨hblock, inner, rfl⟩ := header?_block kind header
          rw [← List.cons_append, List.dropWhile_append] at hblock
          split at hblock
          · cases hblock
          · rename_i hne
            have hpos : 0 < ((c :: u).dropWhile (!isBrace ·)).length := by
              cases hd : (c :: u).dropWhile (!isBrace ·) with
              | nil => simp [hd] at hne
              | cons d ds => simp
            rw [← hblock]
            simp only [List.length_append, List.length_cons] at hpos ⊢
            omega
        rw [headersFrom_of_some header]
        split
        · obtain ⟨hs, h⟩ := ih (some c) inside
          exact ⟨(name, block) :: hs, by rw [h, List.cons_append]⟩
        · exact ih (some c) (Nat.zero_le _)

theorem header?_length {keyword name block cs : List Char}
    (h : header? keyword cs = some (name, block)) : name.length ≤ cs.length := by
  rcases header?_eq_some h with ⟨⟨g, rest, rfl, -⟩, -⟩ |
    ⟨g, rest, rfl, -, -, ⟨g', rest', rfl, -⟩, -⟩
  · simp only [List.length_append]
    omega
  · simp only [List.length_append]
    omega

/-- No name is longer than the text that it stands in. -/
theorem length_le_of_mem_headersFrom {keyword cs : List Char} {previous : Option Char}
    {passed : Nat} {e : List Char × List Char} (h : e ∈ headersFrom keyword previous passed cs) :
    e.1.length ≤ cs.length := by
  induction cs generalizing previous passed with
  | nil => cases h
  | cons c cs ih =>
    have behind : ∀ {previous passed}, e ∈ headersFrom keyword previous passed cs →
        e.1.length ≤ (c :: cs).length := fun h => Nat.le_succ_of_le (ih h)
    cases passed with
    | succ passed => exact behind h
    | zero =>
      cases header : header? keyword (c :: cs) with
      | none =>
        rw [headersFrom_of_none header] at h
        exact behind h
      | some found =>
        rw [headersFrom_of_some header] at h
        split at h
        · rcases List.mem_cons.mp h with rfl | h
          · exact header?_length header
          · exact behind h
        · exact behind h

/-- Without an opening brace there is no header. -/
theorem headersFrom_braceless (kind : DefinitionKind) (previous : Option Char)
    (h : ∀ c ∈ u, isBrace c = false) : headersFrom kind.keyword.toList previous 0 u = [] := by
  induction u generalizing previous with
  | nil => rfl
  | cons c u ih =>
    have none : header? kind.keyword.toList (c :: u) = none := by
      cases hh : header? kind.keyword.toList (c :: u) with
      | none => rfl
      | some found =>
        obtain ⟨name, block⟩ := found
        obtain ⟨hblock, inner, rfl⟩ := header?_block kind hh
        rw [dropWhile_all fun d hd => by simp [h d hd]] at hblock
        cases hblock
    rw [headersFrom_of_none none]
    exact ih (some c) fun d hd => h d (List.mem_cons_of_mem _ hd)

end Scan

end SchemaClient.Source
