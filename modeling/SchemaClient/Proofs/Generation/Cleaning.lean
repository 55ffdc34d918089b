import SchemaClient.Proofs.Generation.Writing

/-!
# Removing files of earlier runs

Which files a run removes from its output directory: those with the extension of generated code and
its notice, except the files that the run keeps. Every one of them is removed and reported, unless
the path of the directory is empty, because the empty path is no directory, or the path of the file
is too long to be followed.
-/

namespace SchemaClient

open Text DiskPath FileAccess

variable {σ : Type} {disk : σ → Disk} {fs : FileAccess (StateM σ)} {directory p : DiskPath}
  {keep names : List String} {name : String} {removed : List DiskPath} {l : Location}
  {d d' : Disk} {s s' : σ}

/-- A file of an earlier run in the directory at a location. -/
structure Stale (keep : List String) (d : Disk) (l : Location) (name : String) : Prop where
  extension : ∃ stem, stem ≠ "" ∧ name = stem ++ ".rs"
  other : name ∉ keep
  generated : ∃ content, d.entry? (name :: l) = some (.file content) ∧ isGenerated content = true

theorem Stale.congr (h : d'.entry? (name :: l) = d.entry? (name :: l)) :
    Stale keep d' l name ↔ Stale keep d l name := by
  constructor
  · rintro ⟨extension, other, content, hentry, notice⟩
    exact ⟨extension, other, content, h ▸ hentry, notice⟩
  · rintro ⟨extension, other, content, hentry, notice⟩
    exact ⟨extension, other, content, h ▸ hentry, notice⟩

theorem extension?_join_eq_rs_iff (directory : DiskPath) (h : IsFileName name) :
    extension? (join directory name) = some "rs" ↔ ∃ stem, stem ≠ "" ∧ name = stem ++ ".rs" := by
  rw [extension?_join directory h, Option.map_eq_some_iff]
  constructor
  · rintro ⟨⟨stem, ending⟩, hsplit, hending⟩
    obtain ⟨hname, nonempty, -⟩ := splitExtension?_eq_some_iff.mp hsplit
    have ending_eq : ending = ['r', 's'] := by
      simpa using congrArg String.toList hending
    refine ⟨String.ofList stem, by simpa using nonempty, ?_⟩
    rw [← String.toList_inj, hname, ending_eq]
    simp
  · rintro ⟨stem, nonempty, rfl⟩
    refine ⟨(stem.toList, ['r', 's']), ?_, rfl⟩
    rw [splitExtension?_eq_some_iff]
    exact ⟨by simp, by simpa using nonempty, by decide⟩

namespace FileAccess

theorem Reveals.isStale (laws : fs.Reveals disk) (keep : List String) (h : IsFileName name)
    (hl : (disk s).follow directory = .ok l) :
    ∃ stale, fs.isStale keep directory name s = (stale, s) ∧
      (stale = true ↔ Usable (join directory name) ∧ Stale keep (disk s) l name) := by
  have found : ∀ content, (disk s).find (join directory name) = .ok (.file content) ↔
      Usable (join directory name) ∧ Disk.entry? (disk s) (name :: l) = some (.file content) := by
    intro content
    rw [Disk.find_join_eq_ok_iff h]
    simp [hl]
  have noFile (absent : ∀ content, (disk s).find (join directory name) ≠ .ok (.file content)) :
      false = true ↔ Usable (join directory name) ∧ Stale keep (disk s) l name := by
    simp only [Bool.false_eq_true, false_iff, not_and]
    rintro usable ⟨-, -, content, hentry, -⟩
    exact absent content ((found content).mpr ⟨usable, hentry⟩)
  rw [FileAccess.isStale]
  by_cases skip : extension? (join directory name) ≠ some "rs" ∨ keep.contains name = true
  · refine ⟨false, ?_, ?_⟩
    · rw [if_pos (by simpa using skip)]
      rfl
    · simp only [Bool.false_eq_true, false_iff, not_and]
      rintro - ⟨extension, other, -⟩
      rcases skip with skip | kept
      · exact skip ((extension?_join_eq_rs_iff directory h).mpr extension)
      · exact other (by simpa using kept)
  · rw [if_neg (by simpa using skip)]
    simp only [not_or, not_not, Bool.not_eq_true] at skip
    simp only [bind, StateT.bind, laws.isFile_eq, Disk.isFile]
    cases hfind : (disk s).find (join directory name) with
    | error e => exact ⟨false, rfl, noFile (by simp [hfind])⟩
    | ok e =>
      cases e with
      | directory => exact ⟨false, rfl, noFile (by simp [hfind])⟩
      | file content =>
        obtain ⟨usable, hentry⟩ := (found content).mp hfind
        simp only [↓reduceIte, StateT.bind, laws.read_eq, Disk.read_eq_ok_iff.mpr hfind]
        refine ⟨isGenerated content, rfl, ?_⟩
        constructor
        · intro notice
          exact ⟨usable, (extension?_join_eq_rs_iff directory h).mp skip.1, by simpa using skip.2,
            content, hentry, notice⟩
        · rintro ⟨-, -, -, content', hentry', notice⟩
          rw [hentry] at hentry'
          cases hentry'
          exact notice

/-- A disk from which some of the names in a directory have been removed. -/
structure Cleaned (keep : List String) (directory : DiskPath) (names : List String) (l : Location)
    (stale : List String) (d d' : Disk) : Prop where
  sublist : stale.Sublist names
  mem_iff : ∀ name ∈ names, name ∈ stale ↔ Usable (join directory name) ∧ Stale keep d l name
  confined : Disk.Confined directory stale d d'
  gone : ∀ name ∈ stale, d'.entry? (name :: l) = none

section Cleaned

variable {stale : List String}

theorem Cleaned.pass (h : Cleaned keep directory names l stale d d') (new : name ∉ names)
    (fresh : ¬ (Usable (join directory name) ∧ Stale keep d l name)) :
    Cleaned keep directory (name :: names) l stale d d' := by
  refine ⟨h.sublist.cons name, List.forall_mem_cons.mpr ⟨?_, h.mem_iff⟩, h.confined, h.gone⟩
  exact iff_of_false (fun hmem => new (h.sublist.subset hmem)) fresh

/-- The other names are as stale as before. -/
theorem Cleaned.erase (hl : d.follow directory = .ok l) (new : name ∉ names)
    (found : Usable (join directory name) ∧ Stale keep d l name)
    (h : Cleaned keep directory names l stale (d.erase (name :: l)) d') :
    Cleaned keep directory (name :: names) l (name :: stale) d d' := by
  obtain ⟨content, hcontent, -⟩ := found.2.generated
  have erased : Disk.Confined directory [name] d (d.erase (name :: l)) :=
    .erase hl (by simp) (by simp [hcontent])
  refine ⟨h.sublist.cons_cons name, ?_, ?_, ?_⟩
  · refine List.forall_mem_cons.mpr ⟨iff_of_true List.mem_cons_self found, fun name' hname' => ?_⟩
    have other : name' ≠ name := fun same => new (same ▸ hname')
    rw [List.mem_cons, or_iff_right other, h.mem_iff name' hname', Stale.congr]
    rw [Disk.entry?_erase, if_neg (by simp [other])]
  · exact (erased.mono (by simp)).trans (h.confined.mono (by simp))
  · refine List.forall_mem_cons.mpr ⟨?_, h.gone⟩
    rw [h.confined.entry?_eq (erased.follow hl), Disk.entry?_erase, if_pos rfl]
    rintro name' hname' hx
    rw [List.cons.injEq] at hx
    exact new (hx.1 ▸ h.sublist.subset hname')

end Cleaned

theorem Reveals.removeEach_ok (laws : fs.Reveals disk) (nodup : names.Nodup)
    (h : ∀ name ∈ names, IsFileName name) (hl : (disk s).follow directory = .ok l)
    (hs : (fs.removeEach keep directory names).run s = (.ok removed, s')) :
    ∃ stale, removed = stale.map (join directory) ∧
      Cleaned keep directory names l stale (disk s) (disk s') := by
  induction names generalizing s removed with
  | nil =>
    cases hs
    exact ⟨[], rfl, List.Sublist.refl _, by simp, .refl _ _ _, by simp⟩
  | cons name names ih =>
    rw [List.nodup_cons] at nodup
    rw [List.forall_mem_cons] at h
    obtain ⟨stale, hstale, stale_iff⟩ := laws.isStale keep h.1 hl
    rw [removeEach, run_liftM_bind, hstale] at hs
    dsimp only at hs
    cases stale with
    | false =>
      obtain ⟨stale, hremoved, cleaned⟩ := ih nodup.2 h.2 hl hs
      exact ⟨stale, hremoved, cleaned.pass nodup.1 (by simp [← stale_iff])⟩
    | true =>
      simp only [↓reduceIte] at hs
      obtain ⟨_, s₁, hremove, hs⟩ := run_bind_eq_ok.mp hs
      obtain ⟨removed', s₂, htail, hs⟩ := run_bind_eq_ok.mp hs
      cases hs
      obtain ⟨l', content, hl', hcontent, hd⟩ :=
        Disk.remove_join h.1 (laws.remove (run_writing_eq_ok.mp hremove))
      rw [hl, Except.ok.injEq] at hl'
      subst hl'
      have erased : Disk.Confined directory [name] (disk s) (disk s₁) := by
        rw [hd]
        exact .erase hl (by simp) (by simp [hcontent])
      obtain ⟨stale, rfl, cleaned⟩ := ih nodup.2 h.2 (erased.follow hl) htail
      rw [hd] at cleaned
      exact ⟨name :: stale, rfl, .erase hl nodup.1 (stale_iff.mp rfl) cleaned⟩

/-- Whether the directory is one at all depends on its path only, as it has a location. -/
theorem Reveals.removeStale_ok (laws : fs.Reveals disk) (proper : (disk s).Proper)
    (hl : (disk s).follow directory = .ok l)
    (hs : (fs.removeStale keep directory).run s = (.ok removed, s')) :
    ∃ stale, removed = stale.map (join directory) ∧ stale.Nodup ∧
      (∀ name, name ∈ stale ↔ directory ≠ "" ∧ Usable (join directory name) ∧
        Stale keep (disk s) l name) ∧
      Disk.Confined directory stale (disk s) (disk s') ∧
      ∀ name ∈ stale, Disk.entry? (disk s') (name :: l) = none := by
  rw [removeStale, run_liftM_bind, laws.isDirectory_eq] at hs
  dsimp only at hs
  cases hdirectory : (disk s).isDirectory directory with
  | false =>
    rw [hdirectory] at hs
    cases hs
    refine ⟨[], rfl, List.nodup_nil, fun name => ?_, .refl _ _ _, by simp⟩
    simp only [List.not_mem_nil, false_iff]
    rintro ⟨nonempty, usable, -⟩
    rw [Disk.isDirectory_iff.mpr ⟨usable.of_join nonempty, l, hl⟩] at hdirectory
    cases hdirectory
  | true =>
    obtain ⟨usable, -⟩ := Disk.isDirectory_iff.mp hdirectory
    rw [hdirectory] at hs
    simp only [↓reduceIte] at hs
    obtain ⟨names, s₁, hnames, hs⟩ := run_bind_eq_ok.mp hs
    rw [run_writing_eq_ok, laws.names_eq, Disk.names, Disk.directoryAt_eq usable, hl] at hnames
    cases hnames
    have sorted := List.mergeSort_perm ((disk s).namesIn l) fun a b => decide (a ≤ b)
    have nodup := sorted.nodup_iff.mpr (proper.nodup_namesIn l)
    obtain ⟨stale, hremoved, cleaned⟩ := laws.removeEach_ok nodup
      (fun name hname => proper.isFileName (sorted.mem_iff.mp hname)) hl hs
    refine ⟨stale, hremoved, nodup.sublist cleaned.sublist, fun name => ?_, cleaned.confined,
      cleaned.gone⟩
    have nonempty : directory ≠ "" := by
      simpa using usable.nonempty
    constructor
    · intro hmem
      exact ⟨nonempty, (cleaned.mem_iff name (cleaned.sublist.subset hmem)).mp hmem⟩
    · rintro ⟨-, h⟩
      obtain ⟨content, hentry, -⟩ := h.2.generated
      exact (cleaned.mem_iff name (sorted.mem_iff.mpr (Disk.mem_namesIn.mpr ⟨_, hentry⟩))).mpr h

/-- Where nothing is stale, nothing is removed. -/
theorem Reveals.removeEach_of_not_stale (laws : fs.Reveals disk)
    (h : ∀ name ∈ names, IsFileName name) (hl : (disk s).follow directory = .ok l)
    (fresh : ∀ name ∈ names, Usable (join directory name) → ¬Stale keep (disk s) l name) :
    (fs.removeEach keep directory names).run s = (.ok [], s) := by
  induction names with
  | nil => rfl
  | cons name names ih =>
    rw [List.forall_mem_cons] at h fresh
    obtain ⟨stale, hstale, stale_iff⟩ := laws.isStale keep h.1 hl
    have : stale = false := by
      rw [← Bool.not_eq_true, stale_iff, not_and]
      exact fresh.1
    subst this
    rw [removeEach, run_liftM_bind, hstale]
    exact ih h.2 fresh.2

theorem Reveals.removeStale_of_not_stale (laws : fs.Reveals disk) (proper : (disk s).Proper)
    (hl : (disk s).follow directory = .ok l)
    (fresh : ∀ name, directory ≠ "" → Usable (join directory name) →
      ¬Stale keep (disk s) l name) :
    (fs.removeStale keep directory).run s = (.ok [], s) := by
  rw [removeStale, run_liftM_bind, laws.isDirectory_eq]
  cases hdirectory : (disk s).isDirectory directory with
  | false => rfl
  | true =>
    obtain ⟨usable, -⟩ := Disk.isDirectory_iff.mp hdirectory
    have nonempty : directory ≠ "" := by
      simpa using usable.nonempty
    simp only [↓reduceIte]
    refine run_bind_eq_ok.mpr ⟨(disk s).namesIn l, s, ?_, ?_⟩
    · rw [run_writing_eq_ok, laws.names_eq, Disk.names, Disk.directoryAt_eq usable, hl]
      rfl
    · have sorted := List.mergeSort_perm ((disk s).namesIn l) fun a b => decide (a ≤ b)
      exact laws.removeEach_of_not_stale
        (fun name hname => proper.isFileName (sorted.mem_iff.mp hname)) hl
        fun name _ => fresh name nonempty

/-! ### Failures -/

theorem removeEach_error {e : GenerationError}
    (hs : (fs.removeEach keep directory names).run s = (.error e, s')) :
    ∃ q cause, e = .write q cause := by
  induction names generalizing s with
  | nil => cases hs
  | cons name names ih =>
    rw [removeEach, run_liftM_bind] at hs
    split at hs
    · rcases run_bind_eq_error.mp hs with hs | ⟨_, s₁, -, hs⟩
      · obtain ⟨cause, -, rfl⟩ := run_writing_eq_error hs
        exact ⟨_, _, rfl⟩
      · rcases run_bind_eq_error.mp hs with hs | ⟨_, s₂, -, hs⟩
        · exact ih hs
        · cases hs
    · exact ih hs

theorem removeStale_error {e : GenerationError}
    (hs : (fs.removeStale keep directory).run s = (.error e, s')) :
    ∃ q cause, e = .write q cause := by
  rw [removeStale, run_liftM_bind] at hs
  split at hs
  · rcases run_bind_eq_error.mp hs with hs | ⟨_, s₁, -, hs⟩
    · obtain ⟨cause, -, rfl⟩ := run_writing_eq_error hs
      exact ⟨_, _, rfl⟩
    · exact removeEach_error hs
  · cases hs

end FileAccess

end SchemaClient
