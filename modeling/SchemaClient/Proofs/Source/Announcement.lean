import SchemaClient.Proofs.Source.HeaderScan

/-!
# Which definitions a text holds

In front of an opening brace the first keyword that a name follows announces the block, whatever
else stands there. No header reaches over a closing brace. So the definitions of a text are those
of its blocks, each with what precedes it, one after the other.
-/

namespace SchemaClient.Source

open Text

/-- The name that the words in front of a block give it: the one behind the first keyword that a
name follows. -/
def announced (keyword : List Char) : List (List Char) → Option (List Char)
  | w :: n :: ws => if w = keyword ∧ IsName n then some n else announced keyword (n :: ws)
  | _ => none

section Segment

variable {kind : DefinitionKind} {ws : List (List Char)} {w g n cs r rest : List Char}

theorem Gap.stops_name (hg : Gap g) (nonempty : g ≠ []) (cs : List Char) :
    Stops isNameChar (g ++ cs) := by
  obtain ⟨c, g, rfl⟩ := List.exists_cons_of_ne_nil nonempty
  exact Stops.cons (isNameChar_of_isBlank hg.head)

theorem announced_keyword {keyword : List Char} (hn : IsName n) (ws : List (List Char)) :
    announced keyword (keyword :: n :: ws) = some n := by
  simp [announced, hn]

theorem announced_cons_of_ne {keyword : List Char} (h : w ≠ keyword) (ws : List (List Char)) :
    announced keyword (w :: ws) = announced keyword ws := by
  cases ws with
  | nil => rfl
  | cons n ws => simp [announced, h]

theorem Apart.stops_brace (h : Apart w cs) (hw : IsWord w) (rest : List Char) :
    Stops isNameChar (cs ++ '\x7b' :: rest) := by
  cases cs with
  | nil => exact Stops.cons (by decide)
  | cons c cs => exact Stops.cons (h.stops hw).head

/-- The first word of a text in front of a brace, read as a word. -/
theorem Spaced.next (h : Spaced ws cs) (tokens : ∀ w ∈ ws, IsToken w) (hg : Gap g)
    (hn : IsWord n) (stops : Stops isNameChar r)
    (heq : cs ++ '\x7b' :: rest = g ++ n ++ r) :
    ∃ ws' cs', ws = n :: ws' ∧ Spaced ws' cs' ∧ r = cs' ++ '\x7b' :: rest := by
  have right : (cs ++ '\x7b' :: rest).dropWhile isBlank = n ++ r := by
    have solid : Solid n := IsToken.solid (.inl hn)
    rw [heq, List.append_assoc, List.dropWhile_append_of_pos hg, (solid.stops_blank r).dropWhile]
  cases h with
  | gap hg' =>
    rw [List.dropWhile_append_of_pos hg', (Stops.cons (by decide)).dropWhile] at right
    obtain ⟨c, n, rfl⟩ := List.exists_cons_of_ne_nil hn.1
    have hc := hn.2 c List.mem_cons_self
    rw [← (List.cons.inj right).1] at hc
    cases hc
  | @word g' w ws cs hg' apart hrest =>
    have hw := tokens w List.mem_cons_self
    rw [List.append_assoc, List.append_assoc, List.dropWhile_append_of_pos hg',
      (hw.solid.stops_blank _).dropWhile] at right
    rcases hw with hw | hw
    · obtain ⟨rfl, hr⟩ := word_unique hw hn (apart.stops_brace hw rest) stops right
      exact ⟨ws, cs, rfl, hrest, hr.symm⟩
    · obtain ⟨c, w, rfl⟩ := List.exists_cons_of_ne_nil hw.1
      obtain ⟨d, n, rfl⟩ := List.exists_cons_of_ne_nil hn.1
      have hd := hn.2 d List.mem_cons_self
      rw [← (List.cons.inj right).1, hw.isNameChar List.mem_cons_self] at hd
      cases hd

/-- A header at a word is announced by it. -/
theorem announced_of_header (h : Spaced ws cs) (tokens : ∀ w ∈ ws, IsToken w) (hw : IsWord w)
    (apart : Apart w cs) {block : List Char}
    (header : header? kind.keyword.toList (w ++ cs ++ '\x7b' :: rest) = some (n, block)) :
    announced kind.keyword.toList (w :: ws) = some n ∧ block = '\x7b' :: rest := by
  have braceless : ∀ c ∈ w ++ cs, (!isBrace c) = true := by
    intro c hc
    rcases List.mem_append.mp hc with hc | hc
    · simp [isBrace_of_isNameChar (hw.2 c hc)]
    · have := h.chars (P := fun c => isBrace c = false) (fun c hc => isBrace_of_isBlank hc)
        (fun w hw => (tokens w hw).isBrace) c hc
      simp [this]
  have hblock := (header?_block kind header).1
  rw [List.dropWhile_append_of_pos braceless] at hblock
  refine ⟨?_, hblock.symm⟩
  have hstops := apart.stops_brace hw rest
  rcases header?_eq_some header with ⟨⟨g, r, heq, hne, hg, stops, -⟩, hn, -⟩ |
    ⟨g, r, heq, hne, hg, ⟨g', r', rfl, hne', hg', stops, -⟩, hn, -⟩
  · simp only [List.append_assoc] at heq
    obtain ⟨rfl, hcs⟩ := word_unique hw (isWord_keyword kind) hstops (hg.stops_name hne _) heq
    rw [← List.append_assoc] at hcs
    obtain ⟨ws', cs', rfl, -⟩ := h.next tokens hg hn.isWord stops hcs
    exact announced_keyword hn ws'
  · simp only [List.append_assoc] at heq
    obtain ⟨rfl, hcs⟩ := word_unique hw isWord_extend hstops (hg.stops_name hne _) heq
    rw [← List.append_assoc] at hcs
    obtain ⟨ws', cs', rfl, hrest, hr⟩ :=
      h.next tokens hg (isWord_keyword kind) (hg'.stops_name hne' _) hcs
    rw [← List.append_assoc] at hr
    obtain ⟨ws'', cs'', rfl, -⟩ :=
      hrest.next (fun w hw => tokens w (List.mem_cons_of_mem _ hw)) hg' hn.isWord stops hr.symm
    rw [announced_cons_of_ne (extend_ne_keyword kind)]
    exact announced_keyword hn ws''

/-- What a word announces together with the next one is a header there. -/
theorem header?_of_announced (h : Spaced ws cs) (tokens : ∀ w ∈ ws, IsToken w)
    (apart : Apart w cs) (announces : announced kind.keyword.toList (w :: ws) ≠
      announced kind.keyword.toList ws) :
    header? kind.keyword.toList (w ++ cs ++ '\x7b' :: rest) ≠ none := by
  cases h with
  | gap hg => exact absurd rfl announces
  | @word g n ws cs hg apart' hrest =>
    by_cases hk : w = kind.keyword.toList ∧ IsName n
    · obtain ⟨rfl, hn⟩ := hk
      have hgap : g ≠ [] := by
        rintro rfl
        have stops := apart.stops (isWord_keyword kind)
        obtain ⟨c, n, rfl⟩ := List.exists_cons_of_ne_nil hn.isWord.1
        have := stops.head
        rw [hn.2 c List.mem_cons_self] at this
        cases this
      have braceless : ∀ c ∈ cs, (!isBrace c) = true := by
        intro c hc
        have := hrest.chars (P := fun c => isBrace c = false) (fun c hc => isBrace_of_isBlank hc)
          (fun w hw => (tokens w (List.mem_cons_of_mem _ hw)).isBrace) c hc
        simp [this]
      have plain : PlainHeader kind.keyword.toList n ('\x7b' :: rest)
          (kind.keyword.toList ++ (g ++ n ++ cs) ++ '\x7b' :: rest) := by
        refine ⟨⟨g, cs ++ '\x7b' :: rest, ?_, hgap, hg, apart'.stops_brace hn.isWord rest, ?_⟩,
          hn, rest, rfl⟩
        · simp only [List.append_assoc]
        · rw [List.dropWhile_append_of_pos braceless]
          rfl
      exact header?_ne_none plain
    · exact absurd (by rw [announced, if_neg hk]) announces

/-- The header that the words in front of a block make. -/
def headerBehind (kind : DefinitionKind) (ws : List (List Char)) (rest : List Char) :
    List (List Char × List Char) :=
  ((announced kind.keyword.toList ws).map fun n => (n, '\x7b' :: rest)).toList

theorem headerBehind_congr {vs : List (List Char)}
    (h : announced kind.keyword.toList ws = announced kind.keyword.toList vs) (rest : List Char) :
    headerBehind kind ws rest = headerBehind kind vs rest := by
  rw [headerBehind, headerBehind, h]

/-- A word is a header with the next one, or the search goes on behind it. -/
theorem headersFrom_word {previous : Option Char} (hw : IsWord w) (outside : Outside previous)
    (apart : Apart w cs) (h : Spaced ws cs) (tokens : ∀ w ∈ ws, IsToken w)
    (behind : ∀ e, headersFrom kind.keyword.toList (some e) 0 (cs ++ '\x7b' :: rest) =
      headerBehind kind ws rest ++ headersFrom kind.keyword.toList (some '\x7b') 0 rest) :
    headersFrom kind.keyword.toList previous 0 (w ++ cs ++ '\x7b' :: rest) =
      headerBehind kind (w :: ws) rest ++
        headersFrom kind.keyword.toList (some '\x7b') 0 rest := by
  cases header : header? kind.keyword.toList (w ++ cs ++ '\x7b' :: rest) with
  | some found =>
    obtain ⟨n, block⟩ := found
    obtain ⟨hann, rfl⟩ := announced_of_header h tokens hw apart header
    obtain ⟨c, w, rfl⟩ := List.exists_cons_of_ne_nil hw.1
    rw [List.cons_append] at header ⊢
    rw [headersFrom_found header (startsWord_of_outside outside (hw.2 c List.mem_cons_self)),
      headerBehind, hann]
    rfl
  | none =>
    have hann : announced kind.keyword.toList (w :: ws) = announced kind.keyword.toList ws := by
      by_cases hann : announced kind.keyword.toList (w :: ws) = announced kind.keyword.toList ws
      · exact hann
      · exact absurd header (header?_of_announced h tokens apart hann)
    rw [headerBehind_congr hann]
    obtain ⟨c, w, rfl⟩ := List.exists_cons_of_ne_nil hw.1
    rw [List.append_assoc, List.cons_append] at header ⊢
    rw [headersFrom, header]
    obtain ⟨e, he⟩ := headersFrom_inside kind (hw.2 c List.mem_cons_self)
      (fun d hd => hw.2 d (List.mem_cons_of_mem _ hd)) (cs ++ '\x7b' :: rest)
    exact he.trans (behind e)

/-- No word reaches into a gap, so the one behind it starts there. -/
theorem Gap.outside {previous : Option Char} (hg : Gap g) (hw : IsWord w)
    (start : Outside previous ∨ Stops isNameChar (g ++ w ++ cs)) :
    Outside (g.getLast?.or previous) := by
  cases hlast : g.getLast? with
  | some c => exact outside_some (isWordChar_of_isBlank (hg c (List.mem_of_getLast? hlast)))
  | none =>
    rw [List.getLast?_eq_none_iff.mp hlast, List.nil_append] at start
    rcases start with start | start
    · exact start
    · obtain ⟨c, w, rfl⟩ := List.exists_cons_of_ne_nil hw.1
      have := start.head
      rw [hw.2 c List.mem_cons_self] at this
      cases this

/-- In front of a brace at most one header is found, the announced one. -/
theorem headersFrom_segment (kind : DefinitionKind) {previous : Option Char} (h : Spaced ws cs)
    (tokens : ∀ w ∈ ws, IsToken w) (start : Outside previous ∨ Stops isNameChar cs)
    (rest : List Char) :
    headersFrom kind.keyword.toList previous 0 (cs ++ '\x7b' :: rest) =
      headerBehind kind ws rest ++
        headersFrom kind.keyword.toList (some '\x7b') 0 rest := by
  induction h generalizing previous with
  | @gap g hg =>
    have nameless : ∀ c ∈ g ++ ['\x7b'], isNameChar c = false := by
      intro c hc
      rcases List.mem_append.mp hc with hc | hc
      · exact hg.not_isNameChar c hc
      · rw [List.mem_singleton.mp hc]
        decide
    have passed := headersFrom_pass kind previous nameless rest
    simpa [headerBehind, announced] using passed
  | @word g w ws cs hg apart hrest ih =>
    have htail : ∀ w ∈ ws, IsToken w := fun w hw => tokens w (List.mem_cons_of_mem _ hw)
    rw [List.append_assoc, List.append_assoc, headersFrom_pass kind previous hg.not_isNameChar,
      ← List.append_assoc]
    rcases tokens w List.mem_cons_self with hw | hw
    · exact headersFrom_word hw (hg.outside hw start) apart hrest htail
        fun e => ih htail (.inr (apart.stops hw))
    · have hne : w ≠ kind.keyword.toList := by
        rintro rfl
        have hk := isWord_keyword kind
        have := hw.isNameChar (List.head_mem hk.1)
        rw [hk.2 _ (List.head_mem hk.1)] at this
        cases this
      have outside : Outside (w.getLast?.or (g.getLast?.or previous)) := by
        rw [List.getLast?_eq_some_getLast hw.1]
        exact outside_some (hw.2 _ (List.getLast_mem hw.1)).1
      rw [List.append_assoc, headersFrom_pass kind _ fun c hc => hw.isNameChar hc,
        ih htail (.inl outside), headerBehind_congr (announced_cons_of_ne hne ws)]

end Segment

end SchemaClient.Source
