import SchemaClient.Proofs.Files.Entries
import SchemaClient.Proofs.Files.Locations

/-!
# What operations change

An operation on the name of a file in a directory changes one location, or two if it renames. A new
directory takes a location that was free. The directories of a disk stay through all of it, so that
a path that leads to a directory goes on leading there.
-/

namespace SchemaClient

open Text DiskPath

namespace Disk

variable {d d' d'' : Disk} {p directory : DiskPath} {name name' : String}
  {names names' : List String} {l l' x : Location} {c : List Char} {cs : List (List Char)}
  {e : Entry} {content : Bytes}

/-! ## Growth -/

/-- The directories of the first disk are directories of the second one. -/
structure Grows (d d' : Disk) : Prop where
  home : d'.home = d.home
  directories : ∀ x, d.entry? x = some .directory → d'.entry? x = some .directory

theorem Grows.refl (d : Disk) : Grows d d :=
  ⟨rfl, fun _ h => h⟩

theorem Grows.trans (h : Grows d d') (h' : Grows d' d'') : Grows d d'' :=
  ⟨h'.home.trans h.home, fun x hx => h'.directories x (h.directories x hx)⟩

/-- A dot leads to the same place on every disk. -/
theorem descend_of_not_isName (h : isName c = false) (d d' : Disk) (l : Location) :
    d.descend l c = d'.descend l c := by
  rw [descend, descend]
  by_cases dot : c = ['.']
  · rw [if_pos dot, if_pos dot]
  · rw [if_neg dot, if_neg dot]
    have dots : c = ['.', '.'] := by simpa [isName, dot] using h
    rw [if_pos dots, if_pos dots]

theorem descend_eq_ok_iff (h : isName c = true) : d.descend l c = .ok l' ↔
    l' = String.ofList c :: l ∧ (String.ofList c).utf8ByteSize ≤ maxName ∧
      d.entry? l' = some .directory := by
  simp only [isName, Bool.and_eq_true, decide_eq_true_eq] at h
  rw [descend, if_neg h.1, if_neg h.2, bind_eq_ok_iff]
  constructor
  · rintro ⟨name, hnamed, hl⟩
    obtain ⟨rfl, short⟩ := named_eq_ok hnamed
    split at hl
    · rename_i hentry
      cases hl
      rw [String.ofList_toList]
      exact ⟨rfl, short, hentry⟩
    · cases hl
    · cases hl
  · rintro ⟨rfl, short, hentry⟩
    refine ⟨String.ofList c, if_pos short, ?_⟩
    simp only [hentry]
    rfl

/-- A directory is found at a path exactly if the path leads into one. -/
theorem find_eq_directory_iff : d.find p = .ok .directory ↔ ∃ l, d.directoryAt p = .ok l := by
  simp only [find, directoryAt, bind_eq_ok_iff]
  rw [exists_comm]
  refine exists_congr fun q => ?_
  rw [exists_and_left]
  refine and_congr_right fun hq => ?_
  cases q with
  | directory l => simp [pure, Except.pure]
  | child l name slash =>
    obtain ⟨-, -, hname, -⟩ := place_eq_child hq
    simp only [descend_eq_ok_iff hname.isName, String.ofList_toList, hname.short, true_and,
      exists_eq_left]
    cases hentry : d.entry? (name :: l) with
    | none => simp [throw, throwThe, MonadExceptOf.throw]
    | some e =>
      cases e with
      | directory => simp [pure, Except.pure]
      | file content =>
        cases slash <;> simp [throw, throwThe, MonadExceptOf.throw, pure, Except.pure]

theorem isDirectory_iff : d.isDirectory p = true ↔ Usable p ∧ ∃ l, d.follow p = .ok l := by
  have found : d.isDirectory p = true ↔ d.find p = .ok .directory := by
    rw [isDirectory]
    split
    · rename_i h
      simp [h]
    · rename_i other
      exact iff_of_false Bool.false_ne_true other
  rw [found, find_eq_directory_iff]
  constructor
  · rintro ⟨l, hl⟩
    obtain ⟨q, hq, -⟩ := bind_eq_ok_iff.mp hl
    have usable := usable_of_place hq
    exact ⟨usable, l, (directoryAt_eq usable).symm.trans hl⟩
  · rintro ⟨usable, l, hl⟩
    exact ⟨l, (directoryAt_eq usable).trans hl⟩

theorem Grows.descend (h : Grows d d') (hl : d.descend l c = .ok l') :
    d'.descend l c = .ok l' := by
  cases hname : isName c with
  | false => rw [descend_of_not_isName hname d' d, hl]
  | true =>
    obtain ⟨hl', short, hdirectory⟩ := (descend_eq_ok_iff hname).mp hl
    exact (descend_eq_ok_iff hname).mpr ⟨hl', short, h.directories l' hdirectory⟩

theorem Grows.foldlM (h : Grows d d') (hl : cs.foldlM d.descend l = .ok l') :
    cs.foldlM d'.descend l = .ok l' := by
  induction cs generalizing l with
  | nil => exact hl
  | cons c cs ih =>
    rw [List.foldlM_cons, bind_eq_ok_iff] at hl ⊢
    obtain ⟨l₁, hc, hl⟩ := hl
    exact ⟨l₁, h.descend hc, ih hl⟩

theorem Grows.start (h : Grows d d') (p : DiskPath) : d'.start p = d.start p := by
  rw [Disk.start, Disk.start, h.home]

theorem Grows.follow (h : Grows d d') (hl : d.follow p = .ok l) : d'.follow p = .ok l := by
  rw [Disk.follow, h.start]
  exact h.foldlM hl

/-! ## The way to a directory -/

/-- The way to a path leads through the name at this location. -/
def Passes (d : Disk) (p : DiskPath) (x : Location) : Prop :=
  ∃ cs c l, cs ++ [c] <+: components p ∧ isName c = true ∧
    cs.foldlM d.descend (d.start p) = .ok l ∧ x = String.ofList c :: l

theorem Passes.grow (h : d.Passes p x) (grows : Grows d d') : d'.Passes p x := by
  obtain ⟨cs, c, l, hprefix, hname, hl, rfl⟩ := h
  refine ⟨cs, c, l, hprefix, hname, ?_, rfl⟩
  rw [grows.start]
  exact grows.foldlM hl

theorem Passes.of_leads {q : DiskPath} (h : d.Passes q x) (leads : Leads q p) : d.Passes p x := by
  obtain ⟨cs, c, l, hprefix, hname, hl, rfl⟩ := h
  refine ⟨cs, c, l, hprefix.trans leads.components, hname, ?_, rfl⟩
  rw [start, ← leads.isAbsolute]
  exact hl

/-- A path that can be followed leads through directories only. -/
theorem Passes.entry?_eq (h : d'.Passes p x) (grows : Grows d d') (hl : d.follow p = .ok l) :
    d.entry? x = some .directory := by
  obtain ⟨cs, c, l₁, ⟨rest, hp⟩, hname, hl₁, rfl⟩ := h
  rw [follow, ← hp, List.foldlM_append] at hl
  obtain ⟨l₃, hl₃, -⟩ := bind_eq_ok_iff.mp hl
  obtain ⟨l₂, hcs, hc⟩ := foldlM_concat_eq_ok_iff.mp hl₃
  have same : l₂ = l₁ := by
    have := grows.foldlM hcs
    rw [← grows.start, hl₁] at this
    exact (Except.ok.inj this).symm
  subst same
  obtain ⟨rfl, -, hdirectory⟩ := (descend_eq_ok_iff hname).mp hc
  exact hdirectory

/-- A location that was free is a directory on the way to a path. -/
structure Made (p : DiskPath) (d d' : Disk) (x : Location) : Prop where
  free : d.entry? x = none
  directory : d'.entry? x = some .directory
  passes : d'.Passes p x

/-- No change but to names in a directory and to the way there. -/
structure Confined (directory : DiskPath) (names : List String) (d d' : Disk) : Prop
    extends Grows d d' where
  proper : d.Proper → d'.Proper
  entries : ∀ x, d'.entry? x = d.entry? x ∨ Made directory d d' x ∨
    ∃ name ∈ names, ∃ l, d'.follow directory = .ok l ∧ x = name :: l

namespace Confined

theorem refl (directory : DiskPath) (names : List String) (d : Disk) :
    Confined directory names d d :=
  ⟨Grows.refl d, id, fun _ => .inl rfl⟩

theorem mono (h : Confined directory names d d') (subset : names ⊆ names') :
    Confined directory names' d d' := by
  refine ⟨h.toGrows, h.proper, fun x => ?_⟩
  rcases h.entries x with same | made | ⟨name, hname, hx⟩
  · exact .inl same
  · exact .inr (.inl made)
  · exact .inr (.inr ⟨name, subset hname, hx⟩)

theorem trans (h : Confined directory names d d') (h' : Confined directory names d' d'') :
    Confined directory names d d'' := by
  refine ⟨h.toGrows.trans h'.toGrows, h'.proper ∘ h.proper, fun x => ?_⟩
  rcases h'.entries x with same | made | changed
  · rcases h.entries x with same' | made | ⟨name, hname, l, hl, hx⟩
    · exact .inl (same.trans same')
    · exact .inr (.inl ⟨made.free, same.trans made.directory, made.passes.grow h'.toGrows⟩)
    · exact .inr (.inr ⟨name, hname, l, h'.toGrows.follow hl, hx⟩)
  · rcases h.entries x with same' | earlier | ⟨name, hname, l, hl, hx⟩
    · exact .inr (.inl ⟨same' ▸ made.free, made.directory, made.passes⟩)
    · have := made.free
      rw [earlier.directory] at this
      cases this
    · exact .inr (.inr ⟨name, hname, l, h'.toGrows.follow hl, hx⟩)
  · exact .inr (.inr changed)

/-- Where the directory is there already, other locations stay as they are. -/
theorem entry?_eq (h : Confined directory names d d') (hl : d.follow directory = .ok l)
    (hx : ∀ name ∈ names, x ≠ name :: l) : d'.entry? x = d.entry? x := by
  rcases h.entries x with same | made | ⟨name, hname, l', hl', rfl⟩
  · exact same
  · have := made.passes.entry?_eq h.toGrows hl
    rw [made.free] at this
    cases this
  · rw [h.toGrows.follow hl, Except.ok.injEq] at hl'
    exact absurd (hl' ▸ rfl) (hx name hname)

/-- A file stays unless its name is one of those that change. -/
theorem file (h : Confined directory names d d') (hx : d.entry? x = some (.file content))
    (hnames : ∀ name ∈ names, x.head? ≠ some name) : d'.entry? x = some (.file content) := by
  rcases h.entries x with same | made | ⟨name, hname, l, -, rfl⟩
  · rw [same, hx]
  · have := made.free
    rw [hx] at this
    cases this
  · exact absurd rfl (hnames name hname)

theorem set (h : IsFileName name) (hl : d.follow directory = .ok l) (hname : name ∈ names)
    (free : d.entry? (name :: l) ≠ some .directory) :
    Confined directory names d (d.set (name :: l) (.file content)) := by
  have grows : Grows d (d.set (name :: l) (.file content)) := by
    refine ⟨rfl, fun x hx => ?_⟩
    rw [entry?_set, if_neg, hx]
    rintro rfl
    exact free hx
  refine ⟨grows, fun proper => proper.set h l _, fun x => ?_⟩
  rw [entry?_set]
  split
  · rename_i hx
    exact .inr (.inr ⟨name, hname, l, grows.follow hl, hx⟩)
  · exact .inl rfl

theorem erase (hl : d.follow directory = .ok l) (hname : name ∈ names)
    (free : d.entry? (name :: l) ≠ some .directory) :
    Confined directory names d (d.erase (name :: l)) := by
  have grows : Grows d (d.erase (name :: l)) := by
    refine ⟨rfl, fun x hx => ?_⟩
    rw [entry?_erase, if_neg, hx]
    rintro rfl
    exact free hx
  refine ⟨grows, fun proper => proper.erase _, fun x => ?_⟩
  rw [entry?_erase]
  split
  · rename_i hx
    exact .inr (.inr ⟨name, hname, l, grows.follow hl, hx⟩)
  · exact .inl rfl

end Confined

/-! ## Operations -/

theorem write_join (h : IsFileName name) (hd' : d.write (join directory name) content = .ok d') :
    ∃ l, d.follow directory = .ok l ∧ d.entry? (name :: l) ≠ some .directory ∧
      d' = d.set (name :: l) (.file content) := by
  obtain ⟨-, l, hl, hd'⟩ := (bind_place_join_eq_ok_iff h).mp hd'
  refine ⟨l, hl, ?_⟩
  dsimp only at hd'
  split at hd'
  · cases hd'
  · rename_i hentry
    cases hd'
    exact ⟨hentry, rfl⟩

theorem rename_join (h : IsFileName name) (h' : IsFileName name') (different : name ≠ name')
    (hd' : d.rename (join directory name) (join directory name') = .ok d') :
    Usable (join directory name') ∧ ∃ l content, d.follow directory = .ok l ∧
      d.entry? (name :: l) = some (.file content) ∧ d.entry? (name' :: l) ≠ some .directory ∧
      d' = (d.erase (name :: l)).set (name' :: l) (.file content) := by
  obtain ⟨-, l, hl, hd'⟩ := (bind_place_join_eq_ok_iff h).mp hd'
  obtain ⟨usable, l', hl', hd'⟩ := (bind_place_join_eq_ok_iff h').mp hd'
  rw [hl, Except.ok.injEq] at hl'
  subst hl'
  dsimp only at hd'
  split at hd'
  · cases hd'
  · cases hd'
  · rename_i content hentry
    refine ⟨usable, l, content, hl, hentry, ?_⟩
    simp only [Bool.or_self, Bool.false_eq_true, ↓reduceIte] at hd'
    split at hd'
    · cases hd'
    · rename_i htarget
      rw [if_neg (by simp [different])] at hd'
      cases hd'
      exact ⟨htarget, rfl⟩

theorem remove_join (h : IsFileName name) (hd' : d.remove (join directory name) = .ok d') :
    ∃ l content, d.follow directory = .ok l ∧ d.entry? (name :: l) = some (.file content) ∧
      d' = d.erase (name :: l) := by
  obtain ⟨-, l, hl, hd'⟩ := (bind_place_join_eq_ok_iff h).mp hd'
  dsimp only at hd'
  split at hd'
  · cases hd'
  · cases hd'
  · rename_i content hentry
    cases hd'
    exact ⟨l, content, hl, hentry, rfl⟩

/-- A new directory takes the last name of its path. -/
theorem makeDirectory_eq_ok (hd' : d.makeDirectory p = .ok d') :
    ∃ cs name l, components p = cs ++ [name.toList] ∧ IsFileName name ∧
      cs.foldlM d.descend (d.start p) = .ok l ∧ d.entry? (name :: l) = none ∧
      d' = d.set (name :: l) .directory := by
  obtain ⟨q, hq, hd'⟩ := bind_eq_ok_iff.mp hd'
  split at hd'
  · cases hd'
  · rename_i l name slash
    obtain ⟨cs, hp, hname, hl⟩ := place_eq_child hq
    split at hd'
    · cases hd'
    · rename_i free
      cases hd'
      exact ⟨cs, name, l, hp, hname, hl, free, rfl⟩

theorem Confined.makeDirectory (hd' : d.makeDirectory p = .ok d') (leads : Leads p directory) :
    Confined directory names d d' := by
  obtain ⟨cs, name, l, hp, hname, hl, free, rfl⟩ := makeDirectory_eq_ok hd'
  have grows : Grows d (d.set (name :: l) .directory) := by
    refine ⟨rfl, fun x hx => ?_⟩
    rw [entry?_set]
    split
    · rfl
    · exact hx
  refine ⟨grows, fun proper => proper.set hname l _, fun x => ?_⟩
  by_cases hx : x = name :: l
  · subst hx
    refine .inr (.inl ⟨free, by rw [entry?_set, if_pos rfl], Passes.of_leads ?_ leads⟩)
    refine ⟨cs, name.toList, l, hp ▸ List.prefix_rfl, hname.isName, ?_, by
      rw [String.ofList_toList]⟩
    rw [grows.start]
    exact grows.foldlM hl
  · rw [entry?_set, if_neg hx]
    exact .inl rfl

theorem Confined.write (hd' : d.write (join directory name) content = .ok d')
    (h : IsFileName name) (hname : name ∈ names) : Confined directory names d d' := by
  obtain ⟨l, hl, free, rfl⟩ := write_join h hd'
  exact .set h hl hname free

theorem Confined.rename (hd' : d.rename (join directory name) (join directory name') = .ok d')
    (h : IsFileName name) (h' : IsFileName name') (different : name ≠ name')
    (hname : name ∈ names) (hname' : name' ∈ names) : Confined directory names d d' := by
  obtain ⟨-, l, content, hl, hcontent, free, rfl⟩ := rename_join h h' different hd'
  have erased : Confined directory names d (d.erase (name :: l)) :=
    .erase hl hname (by simp [hcontent])
  refine erased.trans (.set h' (erased.follow hl) hname' ?_)
  rw [entry?_erase]
  split
  · simp
  · exact free

end Disk

end SchemaClient
