import Mathlib.Data.List.Basic
import SchemaClient.Proofs.Source.Announcement
import SchemaClient.Source.Normal

/-!
# Texts made of blocks

A text without nested braces is a list of blocks, each with what stands in front of it, and what
stands behind the last one. Its definitions are read off the blocks one by one, and so are those
of its normal form.
-/

namespace SchemaClient.Source

open Text

/-- A block of a text. -/
structure BlockText where
  /-- What stands between the brace before, or the beginning, and the brace of the block. -/
  head : List Char
  inner : List Char

/-- The text of blocks with `tail` behind the last one. -/
def joined : List BlockText → (tail : List Char) → List Char
  | [], tail => tail
  | b :: bs, tail => b.head ++ '\x7b' :: (b.inner ++ '\x7d' :: joined bs tail)

theorem joined_tail_append (bs : List BlockText) (tail cs : List Char) :
    joined bs tail ++ cs = joined bs (tail ++ cs) := by
  induction bs with
  | nil => rfl
  | cons b bs ih => simp only [joined, ← ih, List.append_assoc, List.cons_append]

theorem joined_append (bs cs : List BlockText) (tail : List Char) :
    joined (bs ++ cs) tail = joined bs (joined cs tail) := by
  induction bs with
  | nil => rfl
  | cons b bs ih => rw [List.cons_append, joined, joined, ih]

def Braceless (cs : List Char) : Prop :=
  ∀ c ∈ cs, isBrace c = false

namespace BlockText

/-- The first header of the text in front of the brace. -/
def name? (kind : DefinitionKind) (b : BlockText) : Option (List Char) :=
  ((headers kind.keyword.toList (b.head ++ ['\x7b'])).head?).map (·.1)

/-- The body of the block in normal form. -/
def body (b : BlockText) : String :=
  String.ofList (trim (collapse b.inner))

def collapsed (b : BlockText) : BlockText :=
  ⟨collapse b.head, collapse b.inner⟩

/-- The definition of a kind that the block makes, its body in normal form. -/
def definition? (kind : DefinitionKind) (b : BlockText) : Option RawDefinition :=
  (b.name? kind).map fun n => ⟨String.ofList n, b.body⟩

/-- The words stand in front of the block, and no brace inside. -/
structure Announces (ws : List (List Char)) (b : BlockText) : Prop where
  spaced : Spaced ws b.head
  tokens : ∀ w ∈ ws, IsToken w
  braceless : Braceless b.inner

def Clean (b : BlockText) : Prop :=
  ∃ ws, b.Announces ws

theorem Announces.name? {ws : List (List Char)} {b : BlockText} (h : b.Announces ws)
    (kind : DefinitionKind) : b.name? kind = announced kind.keyword.toList ws := by
  have segment := headersFrom_segment kind h.spaced h.tokens (.inl outside_none) []
  rw [BlockText.name?, headers, segment, headerBehind]
  cases announced kind.keyword.toList ws with
  | none => rfl
  | some n => rfl

end BlockText

theorem bodyAt_braceless {cs : List Char} (h : Braceless cs) (rest : List Char) :
    bodyAt 0 (cs ++ '\x7d' :: rest) = some cs := by
  induction cs with
  | nil => rfl
  | cons c cs ih =>
    have hc : c ≠ '\x7b' ∧ c ≠ '\x7d' := by
      simpa [isBrace] using h c List.mem_cons_self
    rw [List.cons_append, bodyAt, if_neg hc.1, if_neg hc.2,
      ih fun d hd => h d (List.mem_cons_of_mem _ hd)]
    rfl

section Definitions

variable {kind : DefinitionKind} {bs : List BlockText} {tail : List Char}

theorem headersFrom_joined (kind : DefinitionKind) {previous : Option Char}
    (start : Outside previous) (clean : ∀ b ∈ bs, b.Clean) (htail : Braceless tail) :
    ((headersFrom kind.keyword.toList previous 0 (joined bs tail)).filterMap fun (name, block) =>
      (blockBody? block).map fun body => (name, body)) =
      bs.filterMap fun b => (b.name? kind).map fun n => (n, trim b.inner) := by
  induction bs generalizing previous with
  | nil =>
    rw [joined, headersFrom_braceless kind previous htail]
    rfl
  | cons b bs ih =>
    obtain ⟨ws, hb⟩ := clean b List.mem_cons_self
    rw [joined, headersFrom_segment kind hb.spaced hb.tokens (.inl start),
      headersFrom_close kind _ hb.braceless, List.filterMap_append,
      ih outside_close fun b hb => clean b (List.mem_cons_of_mem _ hb), List.filterMap_cons,
      hb.name?, headerBehind]
    cases announced kind.keyword.toList ws with
    | none => rfl
    | some n => simp [blockBody?, bodyAt_braceless hb.braceless]

/-- The definitions of a text are those of its blocks. -/
theorem definitionsIn_joined (kind : DefinitionKind) (clean : ∀ b ∈ bs, b.Clean)
    (htail : Braceless tail) :
    definitionsIn kind (String.ofList (joined bs tail)) =
      bs.filterMap fun b => (b.name? kind).map fun n =>
        ⟨String.ofList n, String.ofList (trim b.inner)⟩ := by
  have found := congrArg (List.map fun e : List Char × List Char =>
    RawDefinition.mk (String.ofList e.1) (String.ofList e.2))
    (headersFrom_joined kind outside_none clean htail)
  simpa only [definitionsIn, headers, String.toList_ofList, List.map_filterMap, Option.map_map,
    Function.comp_def] using found

/-- Behind a closing brace every block is found, whatever stands in front. -/
theorem mem_definitionsIn_behind_close (clean : ∀ b ∈ bs, b.Clean) (htail : Braceless tail)
    {b : BlockText} {n : List Char} (hb : b ∈ bs) (hn : b.name? kind = some n) (u : List Char) :
    ⟨String.ofList n, String.ofList (trim b.inner)⟩ ∈
      definitionsIn kind (String.ofList (u ++ '\x7d' :: joined bs tail)) := by
  obtain ⟨hs, found⟩ := headersFrom_behind_close kind none (Nat.zero_le u.length) (joined bs tail)
  have listed : (n, trim b.inner) ∈
      bs.filterMap fun b => (b.name? kind).map fun n => (n, trim b.inner) :=
    List.mem_filterMap.mpr ⟨b, hb, by rw [hn, Option.map_some]⟩
  rw [← headersFrom_joined kind outside_close clean htail] at listed
  obtain ⟨⟨name, block⟩, hmem, hbody⟩ := List.mem_filterMap.mp listed
  obtain ⟨body, hblock, heq⟩ := Option.map_eq_some_iff.mp hbody
  cases heq
  rw [definitionsIn, headers, String.toList_ofList, found]
  exact List.mem_filterMap.mpr
    ⟨(n, block), List.mem_append_right hs hmem, by simp only [hblock, Option.map_some]⟩

theorem length_le_of_mem_definitionsIn {cs : List Char} {d : RawDefinition}
    (h : d ∈ definitionsIn kind (String.ofList cs)) : d.name.length ≤ cs.length := by
  rw [definitionsIn, headers, String.toList_ofList] at h
  obtain ⟨⟨name, block⟩, hmem, hbody⟩ := List.mem_filterMap.mp h
  obtain ⟨body, -, rfl⟩ := Option.map_eq_some_iff.mp hbody
  have := length_le_of_mem_headersFrom hmem
  simpa using this

end Definitions

section Normal

variable {bs : List BlockText} {tail cs : List Char} {c : Char}

/-- Blanks that are left are spaces. -/
theorem solid_of_mem_collapse (h : c ∈ collapse cs) : c = ' ' ∨ c ∈ cs ∧ isBlank c = false := by
  suffices ∀ inRun, c ∈ collapseFrom inRun cs → c = ' ' ∨ c ∈ cs ∧ isBlank c = false from
    this false h
  clear h
  induction cs with
  | nil => simp [collapseFrom]
  | cons d cs ih =>
    have later : ∀ inRun, c ∈ collapseFrom inRun cs →
        c = ' ' ∨ c ∈ d :: cs ∧ isBlank c = false :=
      fun inRun h => (ih inRun h).imp_right fun solid => ⟨List.mem_cons_of_mem d solid.1, solid.2⟩
    intro inRun h
    rw [collapseFrom] at h
    split at h
    · split at h
      · exact later true h
      · exact (List.mem_cons.mp h).elim .inl (later true)
    · rename_i solid
      rcases List.mem_cons.mp h with rfl | h
      · exact .inr ⟨List.mem_cons_self, by simpa using solid⟩
      · exact later false h

theorem mem_collapse (h : c ∈ collapse cs) : c = ' ' ∨ c ∈ cs :=
  (solid_of_mem_collapse h).imp_right And.left

theorem mem_trim (h : c ∈ trim cs) : c ∈ cs :=
  (trimBy_inside isBlank cs).subset h

theorem Braceless.collapse (h : Braceless cs) : Braceless (collapse cs) := by
  intro c hc
  rcases mem_collapse hc with rfl | hc
  · decide
  · exact h c hc

theorem BlockText.Announces.collapse {ws : List (List Char)} {b : BlockText}
    (h : b.Announces ws) : b.collapsed.Announces ws :=
  ⟨h.spaced.collapse fun w hw => (h.tokens w hw).solid, h.tokens, h.braceless.collapse⟩

theorem BlockText.Announces.trimStart {ws : List (List Char)} {b : BlockText}
    (h : b.Announces ws) : BlockText.Announces ws ⟨b.head.dropWhile isBlank, b.inner⟩ :=
  ⟨h.spaced.trimStart fun w hw => (h.tokens w hw).solid, h.tokens, h.braceless⟩

theorem collapse_joined (bs : List BlockText) (tail : List Char) :
    collapse (joined bs tail) =
      joined (bs.map BlockText.collapsed) (collapse tail) := by
  induction bs with
  | nil => rfl
  | cons b bs ih =>
    rw [joined, collapse_append_cons _ (by decide), collapse_append_cons _ (by decide), ih]
    rfl

theorem trimEnd_joined (bs : List BlockText) (tail : List Char) :
    trimEndBy isBlank (joined bs tail) = joined bs (trimEndBy isBlank tail) := by
  induction bs with
  | nil => rfl
  | cons b bs ih =>
    have shape : ∀ rest : List Char, b.head ++ '\x7b' :: (b.inner ++ '\x7d' :: rest) =
        (b.head ++ '\x7b' :: b.inner ++ ['\x7d']) ++ rest := by
      intro rest
      simp
    rw [joined, shape, trimEndBy_append (List.getLast?_concat ..) (by decide), ih, ← shape, joined]

theorem trim_joined (b : BlockText) (bs : List BlockText) (tail : List Char) :
    trim (joined (b :: bs) tail) =
      joined (⟨b.head.dropWhile isBlank, b.inner⟩ :: bs) (trimEndBy isBlank tail) := by
  have shape : ∀ (u rest : List Char), u ++ '\x7b' :: (b.inner ++ '\x7d' :: rest) =
      u ++ '\x7b' :: ((b.inner ++ ['\x7d']) ++ rest) := by
    intro u rest
    simp
  rw [joined, shape, trim_append_cons _ (by decide),
    trimEndBy_append (List.getLast?_concat ..) (by decide), trimEnd_joined, ← shape, joined]

theorem trim_behind_close (u : List Char) (bs : List BlockText) (tail : List Char) :
    trim (u ++ '\x7d' :: joined bs tail) =
      u.dropWhile isBlank ++ '\x7d' :: joined bs (trimEndBy isBlank tail) := by
  rw [trim_append_cons _ (by decide), trimEnd_joined]

theorem collapse_behind_close (u : List Char) (bs : List BlockText) (tail : List Char) :
    collapse (u ++ '\x7d' :: joined bs tail) = collapse u ++
      '\x7d' :: joined (bs.map BlockText.collapsed) (collapse tail) := by
  rw [collapse_append_cons _ (by decide), collapse_joined]

/-- Neither the names nor the bodies depend on how the blocks are spaced. -/
theorem definitionsIn_normal (kind : DefinitionKind) (clean : ∀ b ∈ bs, b.Clean)
    (htail : Braceless tail) :
    definitionsIn kind (String.ofList (trim (collapse (joined bs tail)))) =
      bs.filterMap (·.definition? kind) := by
  have short : ∀ b ∈ bs.map BlockText.collapsed, b.Clean := by
    intro b' hb'
    obtain ⟨b, hb, rfl⟩ := List.mem_map.mp hb'
    obtain ⟨ws, hws⟩ := clean b hb
    exact ⟨ws, hws.collapse⟩
  have tailEnd : Braceless (trimEndBy isBlank (collapse tail)) := by
    obtain ⟨t, ht⟩ := append_of_trimEndBy isBlank (collapse tail)
    intro c hc
    refine htail.collapse c ?_
    rw [ht]
    exact List.mem_append_left t hc
  have names : ∀ b ∈ bs, b.collapsed.name? kind = b.name? kind := by
    intro b hb
    obtain ⟨ws, hws⟩ := clean b hb
    rw [hws.name?, hws.collapse.name?]
  rw [collapse_joined]
  cases bs with
  | nil =>
    have braceless : Braceless (trim (collapse tail)) := fun c hc => htail.collapse c (mem_trim hc)
    have none : ∀ b ∈ ([] : List BlockText), b.Clean := by simp
    have found := definitionsIn_joined kind none braceless
    rw [joined, List.filterMap_nil] at found
    rw [List.map_nil, joined, found, List.filterMap_nil]
  | cons b bs =>
    obtain ⟨ws, hb⟩ := clean b List.mem_cons_self
    rw [List.map_cons, trim_joined, definitionsIn_joined kind ?_ tailEnd]
    · rw [List.filterMap_cons, List.filterMap_cons, List.filterMap_map, hb.collapse.trimStart.name?,
        ← hb.name?]
      have rest : ∀ b ∈ bs, ((b.collapsed.name? kind).map fun n =>
          RawDefinition.mk (String.ofList n) (String.ofList (trim b.collapsed.inner))) =
            b.definition? kind := by
        intro b hb
        rw [names b (List.mem_cons_of_mem _ hb)]
        rfl
      simp only [Function.comp_def, List.filterMap_congr rest]
      rfl
    · intro b' hb'
      rcases List.mem_cons.mp hb' with rfl | hb'
      · exact ⟨ws, hb.collapse.trimStart⟩
      · exact short b' (List.mem_cons_of_mem _ hb')

end Normal

end SchemaClient.Source
