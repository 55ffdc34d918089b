import SchemaClient.Proofs.Source.BlockText
import SchemaClient.Proofs.Source.Marks
import SchemaClient.Proofs.Source.Noise

/-!
# Comments at the ends of lines

Comments are removed after block strings and directives, so these are looked for in comments too.
A comment that closes no block string or argument list and opens none can be put at the end of any
line. Where nothing is open, every other comment takes a part of some schema along with it.
-/

namespace SchemaClient.Source

open Text

section Lines

variable {cs p c r : List Char} {inComment : Bool}

/-- The text without comments, if it starts inside one or outside. -/
def uncommented : (inComment : Bool) → List Char → List Char
  | _, [] => []
  | false, c :: cs => if c = '#' then uncommented true cs else c :: uncommented false cs
  | true, c :: cs => if c = '\n' then c :: uncommented false cs else uncommented true cs

/-- Whether a text ends inside a comment. -/
def endsInComment : (inComment : Bool) → List Char → Bool
  | inComment, [] => inComment
  | false, c :: cs => endsInComment (c = '#') cs
  | true, c :: cs => endsInComment (c ≠ '\n') cs

theorem eraseFrom_comment (cs : List Char) :
    eraseFrom comment 0 cs = uncommented false cs ∧
      eraseFrom comment (cs.takeWhile (· ≠ '\n')).length cs = uncommented true cs := by
  induction cs with
  | nil => exact ⟨rfl, rfl⟩
  | cons c cs ih =>
    constructor
    · by_cases hc : c = '#'
      · subst hc
        simp only [eraseFrom, comment, uncommented, if_true, Nat.add_sub_cancel]
        exact ih.2
      · simp only [eraseFrom, comment_cons hc, uncommented, if_neg hc, ih.1]
    · by_cases hc : c = '\n'
      · subst hc
        simp only [uncommented, if_true, ← ih.1]
        rfl
      · rw [List.takeWhile_cons_of_pos (by simpa using hc), uncommented, if_neg hc, ← ih.2]
        rfl

theorem erase_comment (cs : List Char) : erase comment cs = uncommented false cs :=
  (eraseFrom_comment cs).1

theorem uncommented_append (inComment : Bool) (p r : List Char) :
    uncommented inComment (p ++ r) =
      uncommented inComment p ++ uncommented (endsInComment inComment p) r := by
  induction p generalizing inComment with
  | nil => cases inComment <;> rfl
  | cons d p ih =>
    cases inComment with
    | false =>
      by_cases hd : d = '#'
      · simp [uncommented, endsInComment, hd, ih]
      · simp [uncommented, endsInComment, hd, ih]
    | true =>
      by_cases hd : d = '\n'
      · simp [uncommented, endsInComment, hd, ih]
      · simp [uncommented, endsInComment, hd, ih]

theorem uncommented_line (hc : '\n' ∉ c) (r : List Char) :
    uncommented true (c ++ r) = uncommented true r := by
  induction c with
  | nil => rfl
  | cons d c ih =>
    rw [List.mem_cons, not_or] at hc
    rw [List.cons_append, uncommented, if_neg (Ne.symm hc.1), ih hc.2]

/-- A line ends in front of this text. -/
inductive LineEnd : List Char → Prop
  | last : LineEnd []
  | newline (rest : List Char) : LineEnd ('\n' :: rest)
  | returned (rest : List Char) : LineEnd ('\r' :: '\n' :: rest)

theorem LineEnd.stops {joins : Char → Bool} (h : LineEnd r) (newline : joins '\n' = false)
    (return' : joins '\r' = false) : Stops joins r := by
  cases h with
  | last => exact Stops.nil
  | newline rest => exact Stops.cons newline
  | returned rest => exact Stops.cons return'

theorem LineEnd.erase {pattern : List Char → Option Nat} (h : LineEnd r)
    (newline : ∀ cs, pattern ('\n' :: cs) = none) (return' : ∀ cs, pattern ('\r' :: cs) = none) :
    LineEnd (erase pattern r) := by
  cases h with
  | last => exact .last
  | newline rest =>
    rw [erase_cons_of_none (newline rest)]
    exact .newline _
  | returned rest =>
    rw [erase_cons_of_none (return' _), erase_cons_of_none (newline rest)]
    exact .returned _

theorem collapse_append_congr {a b : List Char}
    (h : ∀ inRun, collapseFrom inRun a = collapseFrom inRun b) (p : List Char) :
    collapse (p ++ a) = collapse (p ++ b) := by
  suffices ∀ inRun, collapseFrom inRun (p ++ a) = collapseFrom inRun (p ++ b) from this false
  induction p with
  | nil => exact h
  | cons c p ih =>
    intro inRun
    simp only [List.cons_append, collapseFrom, ih]

/-- The end of a line collapses alike inside a comment and outside. -/
theorem LineEnd.collapse_uncommented (h : LineEnd r) (p : List Char) :
    collapse (p ++ uncommented true r) = collapse (p ++ uncommented false r) := by
  refine collapse_append_congr (fun inRun => ?_) p
  cases h with
  | last => rfl
  | newline rest => rfl
  | returned rest =>
    have newline : isBlank '\n' = true := by decide
    have return' : isBlank '\r' = true := by decide
    cases inRun <;> simp [uncommented, collapseFrom, newline, return']

theorem collapse_erase_comment (hc : '\n' ∉ c) (hr : LineEnd r) (p : List Char) :
    collapse (erase comment (p ++ ('#' :: c ++ r))) = collapse (erase comment (p ++ r)) := by
  rw [erase_comment, erase_comment, uncommented_append, uncommented_append false p]
  cases endsInComment false p with
  | true => rw [uncommented_line (by simp [hc])]
  | false =>
    rw [List.cons_append, uncommented, if_pos rfl, uncommented_line hc]
    exact hr.collapse_uncommented _

end Lines

section Insertion

variable {p c r : List Char}

/-- A comment at this place neither ends a block string or an argument list that is open there nor
leaves one open itself. -/
structure Contained (p c : List Char) : Prop where
  strings : strings.Contains p ('#' :: c)
  arguments : arguments.Contains (erase blockString p) ('#' :: erase blockString c)

theorem names_endsOpen (cs : List Char) : names.endsOpen cs = false := by
  refine Delimited.endsOpen_eq_false (fun cs h => ?_) cs
  rw [directive_eq, Option.map_eq_none_iff] at h
  simp only [Delimited.opens, names, Option.isSome_map, h, Option.isSome_none]

/-- Where a contained comment does not vanish with its surroundings, it stays a comment. -/
theorem erase_comment_insert {pattern : List Char → Option Nat} {d : Delimited pattern}
    (contained : d.Contains p ('#' :: c)) (plain : ∀ x ∈ ['#', '\n', '\r'], d.joins x = false)
    (mark : ∀ cs, pattern ('#' :: cs) = none) (hr : LineEnd r) :
    erase pattern (p ++ ('#' :: c ++ r)) = erase pattern (p ++ r) ∨
      erase pattern (p ++ ('#' :: c ++ r)) =
          erase pattern p ++ ('#' :: erase pattern c ++ erase pattern r) ∧
        erase pattern (p ++ r) = erase pattern p ++ erase pattern r := by
  have h := d.erase_insert contained (Stops.cons (plain '#' (by simp)))
    (hr.stops (plain '\n' (by simp)) (plain '\r' (by simp)))
  rw [erase_cons_of_none (mark c)] at h
  exact h

theorem normal_insert (contained : Contained p c) (hc : '\n' ∉ c) (hr : LineEnd r) :
    normal (p ++ ('#' :: c ++ r)) = normal (p ++ r) := by
  have hc' : ∀ {pattern : List Char → Option Nat} {cs}, '\n' ∉ cs → '\n' ∉ erase pattern cs :=
    fun h hmem => h ((eraseFrom_sublist _ _ _).mem hmem)
  unfold normal withoutNoise
  rcases erase_comment_insert contained.strings (by decide) (blockString_cons (by decide)) hr with
    h | ⟨h, h'⟩
  · rw [h]
  rw [h, h']
  have hr₁ : LineEnd (erase blockString r) :=
    hr.erase (blockString_cons (by decide)) (blockString_cons (by decide))
  rcases erase_comment_insert contained.arguments (by decide)
    (directiveWithArguments_cons (by decide)) hr₁ with h | ⟨h, h'⟩
  · rw [h]
  rw [h, h']
  have hr₂ : LineEnd (erase directiveWithArguments (erase blockString r)) :=
    hr₁.erase (directiveWithArguments_cons (by decide)) (directiveWithArguments_cons (by decide))
  have contained' : ∀ u t, names.Contains u t := fun u t => by
    simp [Delimited.Contains, names_endsOpen]
  rcases erase_comment_insert (contained' _ _) (by decide) (directive_cons (by decide)) hr₂ with
    h | ⟨h, h'⟩
  · rw [h]
  rw [h, h']
  have hr₃ := hr₂.erase (directive_cons (by decide)) (directive_cons (by decide))
  rw [collapse_erase_comment (hc' (hc' (hc' hc))) hr₃]

end Insertion

section Probes

variable {p c v w tail cs ds : List Char} {n : Nat}

/-- A name of this length. -/
def longName (n : Nat) : List Char :=
  List.replicate n 'X'

def probeBlock (n : Nat) : BlockText where
  head := [DefinitionKind.object.keyword.toList, longName n].flatMap ([' '] ++ ·)
  inner := [' ', 'a', ':', ' ', 'B', ' ']

/-- The end of a line and of whatever block is open there, and an object type behind it. -/
def probe (n : Nat) : List Char :=
  '\n' :: '\x7d' :: joined [probeBlock n] []

theorem probe_append (n : Nat) (tail : List Char) :
    probe n ++ tail = '\n' :: '\x7d' :: joined [probeBlock n] tail := by
  simp [probe, joined]

theorem isName_longName (h : 0 < n) : IsName (longName n) := by
  obtain ⟨m, rfl⟩ : ∃ m, n = m + 1 := ⟨n - 1, by omega⟩
  refine ⟨rfl, fun c hc => ?_⟩
  rw [List.eq_of_mem_replicate hc]
  decide

theorem probeBlock_announces (h : 0 < n) :
    (probeBlock n).Announces [DefinitionKind.object.keyword.toList, longName n] := by
  have inner : ∀ c ∈ [' ', 'a', ':', ' ', 'B', ' '], isBrace c = false := by decide
  refine ⟨Spaced.flatMap (by decide) (by simp) _, fun w hw => ?_, inner⟩
  simp only [List.mem_cons, List.not_mem_nil, or_false] at hw
  rcases hw with rfl | rfl
  · exact .inl (isWord_keyword .object)
  · exact .inl (isName_longName h).isWord

/-- What may stand behind a probe: no block string, nothing that begins other noise, no brace. -/
structure Inert (tail : List Char) : Prop where
  erased : erase blockString tail = tail
  plain : ∀ c ∈ tail, c ≠ '@' ∧ c ≠ '#'
  braceless : Braceless tail

theorem mem_probe {d : Char} (h : d ∈ probe n) : d = 'X' ∨ d ∈ probe 0 := by
  simp only [probe, probeBlock, joined, longName, List.flatMap_cons, List.mem_cons,
    List.mem_append, List.mem_replicate, List.flatMap_nil] at h ⊢
  tauto

theorem probe_quiet (n : Nat) : Quiet (probe n) := by
  have short : ∀ d ∈ probe 0, d ≠ '"' ∧ d ≠ '@' ∧ d ≠ '#' := by decide
  intro d hd
  rcases mem_probe hd with rfl | hd
  · decide
  · exact short d hd

theorem lineEnd_probe (n : Nat) (tail : List Char) : LineEnd (probe n ++ tail) :=
  .newline _

theorem plain_probe (inert : Inert tail) (n : Nat) : ∀ c ∈ probe n ++ tail, c ≠ '@' ∧ c ≠ '#' := by
  intro c hc
  rcases List.mem_append.mp hc with hc | hc
  · exact (probe_quiet n c hc).2
  · exact inert.plain c hc

theorem erase_blockString_probe (inert : Inert tail) (n : Nat) :
    erase blockString (probe n ++ tail) = probe n ++ tail := by
  rw [erase_pass (fun c hc => blockString_cons (probe_quiet n c hc).1), inert.erased]

theorem erase_arguments_plain (plain : ∀ c ∈ w, c ≠ '@' ∧ c ≠ '#') :
    erase directiveWithArguments w = w :=
  erase_of_none fun c hc => directiveWithArguments_cons (plain c hc).1

theorem uncommented_newline {inComment : Bool} {cs : List Char} (h : '#' ∉ cs) :
    uncommented inComment ('\n' :: cs) = '\n' :: cs := by
  have rest : uncommented false cs = cs := by
    rw [← erase_comment]
    exact erase_of_none fun c hc => comment_cons fun heq => h (heq ▸ hc)
  cases inComment with
  | false => rw [uncommented, if_neg (by decide), rest]
  | true => rw [uncommented, if_pos rfl, rest]

/-- Lines without directives and comments stay as they are when block strings and arguments are
gone. -/
theorem withoutNoise_behind (plain : ∀ c ∈ w, c ≠ '@' ∧ c ≠ '#')
    (h : erase directiveWithArguments (erase blockString cs) = v ++ '\n' :: w) :
    ∃ u, withoutNoise cs = u ++ '\n' :: w := by
  have names' : erase directive ('\n' :: w) = '\n' :: w := by
    rw [erase_cons_of_none (directive_cons (by decide) w),
      erase_of_none fun c hc => directive_cons (plain c hc).1]
  have line : ∀ inComment, uncommented inComment ('\n' :: w) = '\n' :: w :=
    fun _ => uncommented_newline fun hmem => (plain '#' hmem).2 rfl
  rw [withoutNoise, h, Delimited.erase_append_of_shut (names_endsOpen v) (Stops.cons rfl), names',
    erase_comment, uncommented_append, line]
  exact ⟨_, rfl⟩

theorem length_collapse_le (cs : List Char) : (collapse cs).length ≤ cs.length := by
  suffices ∀ inRun, (collapseFrom inRun cs).length ≤ cs.length from this false
  induction cs with
  | nil => exact fun _ => Nat.le_refl 0
  | cons c cs ih =>
    intro inRun
    have htrue := ih true
    have hfalse := ih false
    rw [collapseFrom]
    split
    · split
      · exact Nat.le_succ_of_le htrue
      · exact Nat.succ_le_succ htrue
    · exact Nat.succ_le_succ hfalse

theorem length_trim_le (cs : List Char) : (trim cs).length ≤ cs.length :=
  (trimBy_inside isBlank cs).length_le

/-- The probe shows in the model of a text that ends with it. -/
theorem probe_mem_objectsIn (long : ∀ r ∈ reservedTypeNames, r.length < n) (inert : Inert tail)
    (u : List Char) :
    ∃ t ∈ objectsIn (String.ofList (trim (collapse (u ++ (probe n ++ tail))))),
      t.name = String.ofList (longName n) := by
  have pos : 0 < n := Nat.lt_of_le_of_lt (Nat.zero_le _) (long "Query" (by decide))
  have ordinary : String.ofList (longName n) ∉ reservedTypeNames := fun hmem => by
    have := long _ hmem
    simp [longName] at this
  have announces := (probeBlock_announces pos).collapse
  have name : (probeBlock n).collapsed.name? .object = some (longName n) := by
    rw [announces.name?]
    exact announced_keyword (isName_longName pos) []
  have braceless : Braceless (trimEndBy isBlank (collapse tail)) := by
    obtain ⟨t, ht⟩ := append_of_trimEndBy isBlank (collapse tail)
    intro c hc
    exact inert.braceless.collapse c (ht ▸ List.mem_append_left t hc)
  have shape : u ++ (probe n ++ tail) = (u ++ ['\n']) ++ '\x7d' :: joined [probeBlock n] tail := by
    rw [probe_append]
    simp
  rw [shape, collapse_behind_close, trim_behind_close]
  have clean : ∀ b ∈ [probeBlock n].map BlockText.collapsed, b.Clean := by
    simpa using ⟨_, announces⟩
  have found := mem_definitionsIn_behind_close clean braceless List.mem_cons_self name
    ((collapse (u ++ ['\n'])).dropWhile isBlank)
  refine ⟨_, List.mem_map.mpr ⟨_, List.mem_filter.mpr ⟨found, ?_⟩, rfl⟩, rfl⟩
  simpa using ordinary

theorem length_le_of_mem_objectsIn {cs : List Char} {t : ObjectType}
    (h : t ∈ objectsIn (String.ofList cs)) : t.name.length ≤ cs.length := by
  obtain ⟨d, hd, rfl⟩ := List.mem_map.mp h
  exact length_le_of_mem_definitionsIn (List.mem_filter.mp hd).1

theorem objectTypes_of_analyse {m : SchemaModel} {cs : List Char}
    (h : analyse (String.ofList cs) = .ok m) :
    m.objectTypes = objectsIn (String.ofList (normal cs)) := by
  by_cases hnil : normal cs = []
  · rw [analyse, normalise, String.toList_ofList, hnil] at h
    simp [Except.map] at h
  · rw [analyse_of_ne_nil hnil, Except.ok.injEq] at h
    simp only [← h, modelOf, SchemaModel.of]

/-- A probe is left in what is analysed. -/
def Shown (n : Nat) (cs : List Char) : Prop :=
  ∃ u tail, Inert tail ∧ withoutNoise cs = u ++ (probe n ++ tail)

namespace Shown

theorem of_erased (inert : Inert tail)
    (h : erase directiveWithArguments (erase blockString cs) = v ++ (probe n ++ tail)) :
    Shown n cs := by
  obtain ⟨u, hu⟩ := withoutNoise_behind
    (fun c hc => plain_probe inert n c (List.mem_cons_of_mem _ hc)) h
  exact ⟨u, tail, inert, hu⟩

/-- A long probe that is shown is read. -/
theorem exists_objectType (shown : Shown n cs) (long : 12 < n) :
    ∃ m, analyse (String.ofList cs) = .ok m ∧
      ∃ t ∈ m.objectTypes, t.name = String.ofList (longName n) := by
  obtain ⟨u, tail, inert, noise⟩ := shown
  have reserved : ∀ r ∈ reservedTypeNames, r.length < 13 := by decide
  have long' : ∀ r ∈ reservedTypeNames, r.length < n := fun r hr => by
    have := reserved r hr
    omega
  obtain ⟨t, ht, name⟩ := probe_mem_objectsIn long' inert u
  rw [← noise, ← normal] at ht
  have nonempty : normal cs ≠ [] := by
    intro hnil
    have bound := length_le_of_mem_objectsIn ht
    rw [hnil, List.length_nil, name, String.length_ofList, longName, List.length_replicate] at bound
    omega
  have read := analyse_of_ne_nil nonempty
  rw [← objectTypes_of_analyse read] at ht
  exact ⟨_, read, t, ht, name⟩

/-- No short text is read like one that shows a long probe. -/
theorem analyse_ne {m : SchemaModel} (shown : Shown n cs) (long : 12 < n)
    (short : (withoutNoise ds).length < n) (h : analyse (String.ofList cs) = .ok m) :
    analyse (String.ofList ds) ≠ .ok m := by
  obtain ⟨m', hm', t, ht, name⟩ := shown.exists_objectType long
  obtain rfl : m = m' := by
    rw [h, Except.ok.injEq] at hm'
    exact hm'
  intro same
  rw [objectTypes_of_analyse same] at ht
  have bound := length_le_of_mem_objectsIn ht
  rw [name, String.length_ofList, longName, List.length_replicate, normal] at bound
  have := Nat.le_trans (length_trim_le _) (length_collapse_le (withoutNoise ds))
  omega

end Shown

end Probes

section Exactness

variable {p c : List Char}

theorem endsOpen_mark {pattern : List Char → Option Nat} {d : Delimited pattern}
    (mark : ∀ cs, pattern ('#' :: cs) = none) (opening : ∀ cs, d.opening ('#' :: cs) = none)
    (cs : List Char) : d.endsOpen ('#' :: cs) = d.endsOpen cs :=
  Delimited.endsOpen_cons (mark cs) (by rw [Delimited.opens, opening]; rfl)

theorem strings_endsOpen_mark (cs : List Char) :
    strings.endsOpen ('#' :: cs) = strings.endsOpen cs :=
  endsOpen_mark (blockString_cons (by decide)) (fun _ => rfl) cs

theorem arguments_endsOpen_mark (cs : List Char) :
    arguments.endsOpen ('#' :: cs) = arguments.endsOpen cs :=
  endsOpen_mark (directiveWithArguments_cons (by decide)) (fun _ => rfl) cs

theorem length_withoutNoise_le (cs : List Char) :
    (withoutNoise cs).length ≤ (erase directiveWithArguments (erase blockString cs)).length :=
  Nat.le_trans (eraseFrom_sublist _ _ _).length_le (eraseFrom_sublist _ _ _).length_le

/-- The comment changes what is read of some text. -/
def Influences (p c : List Char) : Prop :=
  ∃ r m, LineEnd r ∧ analyse (String.ofList (p ++ r)) = .ok m ∧
    analyse (String.ofList (p ++ ('#' :: c ++ r))) ≠ .ok m

theorem influences_of_hidden (bound : Nat) (h : ∀ n, ∃ r, LineEnd r ∧ Shown n (p ++ r) ∧
    (withoutNoise (p ++ ('#' :: c ++ r))).length ≤ bound) : Influences p c := by
  obtain ⟨r, hr, shown, short⟩ := h (bound + 13)
  obtain ⟨m, hm, -⟩ := shown.exists_objectType (by omega)
  exact ⟨r, m, hr, hm, shown.analyse_ne (by omega) (by omega) hm⟩

theorem influences_of_revealed (bound : Nat) (h : ∀ n, ∃ r, LineEnd r ∧
    Shown n (p ++ ('#' :: c ++ r)) ∧ normal (p ++ r) ≠ [] ∧
    (withoutNoise (p ++ r)).length ≤ bound) : Influences p c := by
  obtain ⟨r, hr, shown, nonempty, short⟩ := h (bound + 13)
  have read := analyse_of_ne_nil nonempty
  exact ⟨r, _, hr, read, fun same => shown.analyse_ne (by omega) (by omega) same read⟩

/-- Block strings are removed from the parts of a text when none is open at their ends. -/
theorem erase_blockString_insert (shut : strings.endsOpen p = false)
    (shutc : strings.endsOpen c = false) {r : List Char} (hr : LineEnd r) :
    erase blockString (p ++ ('#' :: c ++ r)) =
      erase blockString p ++ ('#' :: erase blockString c ++ erase blockString r) := by
  have mark : Stops strings.joins ('#' :: c ++ r) := Stops.cons rfl
  have shutc : strings.endsOpen ('#' :: c) = false := by
    rw [strings_endsOpen_mark, shutc]
  rw [Delimited.erase_append_of_shut shut mark,
    Delimited.erase_append_of_shut shutc (hr.stops rfl rfl),
    erase_cons_of_none (blockString_cons (by decide) c)]

/-- A parenthesis in front of a probe ends the arguments that are open there. -/
theorem shown_behind_parenthesis (shut : strings.endsOpen p = false) (inert : Inert tail)
    (n : Nat) : Shown n (p ++ ('\n' :: ')' :: (probe n ++ tail))) := by
  have plain := erase_arguments_plain (plain_probe inert n)
  have strings' : erase blockString (p ++ ('\n' :: ')' :: (probe n ++ tail))) =
      erase blockString p ++ ('\n' :: ')' :: (probe n ++ tail)) := by
    rw [Delimited.erase_append_of_shut shut (Stops.cons rfl),
      erase_cons_of_none (blockString_cons (by decide) _),
      erase_cons_of_none (blockString_cons (by decide) _), erase_blockString_probe inert n]
  have seam : Stops arguments.joins ('\n' :: ')' :: (probe n ++ tail)) := Stops.cons rfl
  cases isOpen : arguments.endsOpen (erase blockString p) with
  | true =>
    have closed : arguments.closes ('\n' :: ')' :: (probe n ++ tail)) = some 2 := by
      simp [arguments, parenthesisAhead_cons]
    obtain ⟨e, -, h⟩ := Delimited.erase_open isOpen
    refine .of_erased (v := e) inert ?_
    rw [strings', h _ _ seam closed]
    exact congrArg (e ++ ·) plain
  | false =>
    refine .of_erased (v := erase directiveWithArguments (erase blockString p) ++ ['\n', ')'])
      inert ?_
    rw [strings', Delimited.erase_append_of_shut isOpen seam,
      erase_cons_of_none (directiveWithArguments_cons (by decide) _),
      erase_cons_of_none (directiveWithArguments_cons (by decide) _), plain]
    simp

/-- A comment that leaves a block string open hides what is in front of the next three quotes. -/
theorem influences_of_string (shut : strings.endsOpen p = false)
    (isOpen : strings.endsOpen c = true) : Influences p c := by
  have inert : Inert [' ', '"', '"', '"'] := ⟨rfl, by decide, by unfold Braceless; decide⟩
  refine influences_of_hidden (p.length + ('#' :: c).length) fun n =>
    ⟨_, .newline _, shown_behind_parenthesis shut inert n, ?_⟩
  have unclosed : strings.closes ('\n' :: ')' :: probe n) = none := by
    rw [strings, Option.map_eq_none_iff]
    refine quotesAhead_eq_none fun h => ?_
    simp only [List.mem_cons] at h
    rcases h with h | h | h
    · cases h
    · cases h
    · exact (probe_quiet n _ h).1 rfl
  have closed : strings.closes ('\n' :: ')' :: (probe n ++ [' ', '"', '"', '"'])) =
      some ('\n' :: ')' :: (probe n ++ [' ', '"', '"', '"'])).length := by
    refine (strings.closes_append unclosed (Stops.cons rfl)).trans ?_
    rw [show strings.closes [' ', '"', '"', '"'] = some 4 from rfl, Option.map_some]
    simp
  refine Nat.le_trans (length_withoutNoise_le _)
    (Nat.le_trans (eraseFrom_sublist _ _ _).length_le ?_)
  exact Delimited.length_erase_open_le shut (by rw [strings_endsOpen_mark, isOpen])
    (Stops.cons rfl) (Stops.cons rfl) closed

theorem arguments_closes_probe (n : Nat) (tail : List Char) :
    arguments.closes (probe n ++ tail) =
      (arguments.closes tail).map ((probe n).length + ·) := by
  refine parenthesisAhead_append (fun h => ?_) tail
  rcases mem_probe h with h | h
  · cases h
  · exact absurd h (by decide)

/-- A comment that leaves an argument list open hides what is in front of the next parenthesis that
closes. -/
theorem influences_of_arguments (shut : strings.endsOpen p = false)
    (shut' : arguments.endsOpen (erase blockString p) = false) (shutc : strings.endsOpen c = false)
    (isOpen : arguments.endsOpen (erase blockString c) = true) : Influences p c := by
  have inert : Inert [' ', ')'] := ⟨rfl, by decide, by unfold Braceless; decide⟩
  refine influences_of_hidden (p.length + ('#' :: c).length) fun n =>
    ⟨probe n ++ [' ', ')'], lineEnd_probe n _, ?_, ?_⟩
  · refine .of_erased (v := erase directiveWithArguments (erase blockString p)) inert ?_
    have line := lineEnd_probe n [' ', ')']
    rw [Delimited.erase_append_of_shut shut (line.stops rfl rfl), erase_blockString_probe inert n,
      Delimited.erase_append_of_shut shut' (line.stops rfl rfl),
      erase_arguments_plain (plain_probe inert n)]
  · have closed : arguments.closes (probe n ++ [' ', ')']) =
        some (probe n ++ [' ', ')']).length := by
      rw [arguments_closes_probe, List.length_append]
      rfl
    have bound := Delimited.length_erase_open_le shut'
      (by rw [arguments_endsOpen_mark, isOpen]) (Stops.cons rfl)
      ((lineEnd_probe n _).stops rfl rfl) closed
    have hp : (erase blockString p).length ≤ p.length := (eraseFrom_sublist _ _ _).length_le
    have hc : (erase blockString c).length ≤ c.length := (eraseFrom_sublist _ _ _).length_le
    refine Nat.le_trans (length_withoutNoise_le _) ?_
    rw [erase_blockString_insert shut shutc (lineEnd_probe n _), erase_blockString_probe inert n]
    refine Nat.le_trans bound ?_
    simp only [List.length_cons]
    omega

/-- A comment that closes the argument list open in front of it shows what was hidden behind it. -/
theorem influences_of_closed (shut : strings.endsOpen p = false)
    (isOpen : arguments.endsOpen (erase blockString p) = true)
    (shutc : strings.endsOpen c = false) {k : Nat}
    (closed : arguments.closes ('#' :: erase blockString c) = some k)
    (shut' : arguments.endsOpen (('#' :: erase blockString c).drop k) = false) :
    Influences p c := by
  obtain ⟨tail, htail⟩ : ∃ tail, tail = [' ', ')', '\n', 'x'] := ⟨_, rfl⟩
  have inert : Inert tail := by
    rw [htail]
    exact ⟨rfl, by decide, by unfold Braceless; decide⟩
  have line := fun n => lineEnd_probe n tail
  obtain ⟨e, -, swallowed⟩ := Delimited.erase_open isOpen
  have hidden : ∀ n, erase directiveWithArguments (erase blockString (p ++ (probe n ++ tail))) =
      e ++ ['\n', 'x'] := by
    intro n
    have closes : arguments.closes (probe n ++ tail) = some ((probe n).length + 2) := by
      rw [arguments_closes_probe, htail]
      rfl
    rw [Delimited.erase_append_of_shut shut ((line n).stops rfl rfl),
      erase_blockString_probe inert n, swallowed _ _ ((line n).stops rfl rfl) closes,
      List.drop_length_add_append, htail]
    rfl
  refine influences_of_revealed (e.length + 2) fun n =>
    ⟨probe n ++ tail, line n, ?_, ?_, ?_⟩
  · obtain ⟨v, hv⟩ := Delimited.erase_closed (r := probe n ++ tail) isOpen closed shut'
      (Stops.cons rfl) ((line n).stops rfl rfl)
    refine .of_erased (v := v) inert ?_
    rw [erase_blockString_insert shut shutc (line n), erase_blockString_probe inert n, hv,
      erase_arguments_plain (plain_probe inert n)]
  · obtain ⟨u, hu⟩ := withoutNoise_behind (by decide) (hidden n)
    rw [normal, hu]
    exact trim_collapse_ne_nil (c := 'x') (by simp) (by decide)
  · refine Nat.le_trans (length_withoutNoise_le _) ?_
    rw [hidden n, List.length_append]
    exact Nat.le_refl _

theorem contained_of_sound (shut : strings.endsOpen p = false)
    (once : ¬ arguments.Reopens (erase blockString p) ('#' :: erase blockString c))
    (sound : ¬ Influences p c) : Contained p c := by
  have shutc : strings.endsOpen c = false := by
    cases h : strings.endsOpen c with
    | false => rfl
    | true => exact absurd (influences_of_string shut h) sound
  constructor
  · rw [Delimited.Contains, if_neg (by simp [shut]), strings_endsOpen_mark]
    exact shutc
  · unfold Delimited.Contains
    split
    · rename_i isOpen
      cases closed : arguments.closes ('#' :: erase blockString c) with
      | none => rfl
      | some k =>
        cases rest : arguments.endsOpen (('#' :: erase blockString c).drop k) with
        | false => exact absurd (influences_of_closed shut isOpen shutc closed rest) sound
        | true => exact absurd ⟨isOpen, k, closed, rest⟩ once
    · rename_i shut'
      rw [arguments_endsOpen_mark]
      cases h : arguments.endsOpen (erase blockString c) with
      | false => rfl
      | true =>
        exact absurd (influences_of_arguments shut (by simpa using shut') shutc h) sound

/-- A comment at the end of a line changes no analysis if it closes nothing that is open there and
leaves nothing open. Outside block strings no other comment is harmless, unless it closes an
argument list and opens another one. -/
theorem analyse_insert_comment (p c : List Char) (line : '\n' ∉ c) :
    (∀ r, LineEnd r → Contained p c →
      analyse (String.ofList (p ++ ('#' :: c ++ r))) = analyse (String.ofList (p ++ r))) ∧
    (strings.endsOpen p = false →
      ¬ arguments.Reopens (erase blockString p) ('#' :: erase blockString c) →
      ((∀ r m, LineEnd r → analyse (String.ofList (p ++ r)) = .ok m →
        analyse (String.ofList (p ++ ('#' :: c ++ r))) = .ok m) ↔ Contained p c)) := by
  have harmless : ∀ r, LineEnd r → Contained p c →
      analyse (String.ofList (p ++ ('#' :: c ++ r))) = analyse (String.ofList (p ++ r)) := by
    intro r hr contained
    rw [analyse, analyse, normalise, normalise, String.toList_ofList, String.toList_ofList,
      normal_insert contained line hr]
  refine ⟨harmless, fun shut once => ⟨fun same => ?_, fun contained r m hr hm => ?_⟩⟩
  · have sound : ¬ Influences p c := by
      rintro ⟨r, m, hr, hm, hne⟩
      exact hne (same r m hr hm)
    exact contained_of_sound shut once sound
  · rw [harmless r hr contained, hm]

def userType : List Char :=
  "type User { id: ID }".toList

theorem analyse_insert_comment_user :
    (Contained userType " was @auth".toList ∧
      analyse (String.ofList (userType ++ ('#' :: " was @auth".toList ++ ['\n']))) =
        analyse (String.ofList (userType ++ ['\n']))) ∧
    ¬ ∀ r m, LineEnd r → analyse (String.ofList (userType ++ r)) = .ok m →
      analyse (String.ofList (userType ++ ('#' :: " was @auth(".toList ++ r))) = .ok m := by
  have contained : Contained userType " was @auth".toList := ⟨by decide, by decide⟩
  refine ⟨⟨contained, ?_⟩, ?_⟩
  · exact (analyse_insert_comment userType _ (by decide)).1 _ (.newline []) contained
  · have exact' := (analyse_insert_comment userType " was @auth(".toList (by decide)).2 (by decide)
      fun reopens => absurd reopens.1 (by decide)
    rw [exact']
    exact fun contained => absurd contained.arguments (by decide)

end Exactness

end SchemaClient.Source
