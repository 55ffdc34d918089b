import SchemaClient.Generation.Output
import SchemaClient.Proofs.Files.Faults

/-!
# Writing files

What the writing of one file and of several files leaves on a disk, whether all of its operations
succeed or one of them fails.
-/

namespace SchemaClient

open Text DiskPath FileAccess

variable {σ α β ε : Type} {disk : σ → Disk} {fs : FileAccess (StateM σ)} {directory p : DiskPath}
  {name content : String} {names : List String} {outcome : WriteOutcome} {report : RunReport}
  {s s' : σ}

/-! ### Runs of actions -/

theorem run_bind_eq_ok {x : ExceptT ε (StateM σ) α} {f : α → ExceptT ε (StateM σ) β} {b : β} :
    (x >>= f).run s = (.ok b, s') ↔
      ∃ a s₁, x.run s = (.ok a, s₁) ∧ (f a).run s₁ = (.ok b, s') := by
  simp only [bind, ExceptT.bind, ExceptT.mk, ExceptT.run, StateT.bind]
  rcases x s with ⟨e | a, s₁⟩
  · constructor
    · intro h
      cases h
    · rintro ⟨a, s₂, eq, -⟩
      cases eq
  · constructor
    · exact fun h => ⟨a, s₁, rfl, h⟩
    · rintro ⟨a', s₂, eq, h⟩
      cases eq
      exact h

theorem run_bind_eq_error {x : ExceptT ε (StateM σ) α} {f : α → ExceptT ε (StateM σ) β} {e : ε} :
    (x >>= f).run s = (.error e, s') ↔ x.run s = (.error e, s') ∨
      ∃ a s₁, x.run s = (.ok a, s₁) ∧ (f a).run s₁ = (.error e, s') := by
  simp only [bind, ExceptT.bind, ExceptT.mk, ExceptT.run, StateT.bind]
  rcases x s with ⟨e' | a, s₁⟩
  · constructor
    · intro h
      cases h
      exact .inl rfl
    · rintro (eq | ⟨a, s₂, eq, -⟩)
      · cases eq
        rfl
      · cases eq
  · constructor
    · exact fun h => .inr ⟨a, s₁, rfl, h⟩
    · rintro (eq | ⟨a', s₂, eq, h⟩)
      · cases eq
      · cases eq
        exact h

theorem run_bind (x : ExceptT ε (StateM σ) α) (f : α → ExceptT ε (StateM σ) β) (s : σ) :
    (x >>= f).run s = match x.run s with
      | (.ok a, s₁) => (f a).run s₁
      | (.error e, s₁) => (.error e, s₁) := by
  rcases h : x.run s with ⟨e | a, s₁⟩
  · exact run_bind_eq_error.mpr (.inl h)
  · simp only [bind, ExceptT.bind, ExceptT.mk, ExceptT.run, StateT.bind] at h ⊢
    rw [h]
    rfl

/-- An action that cannot fail in front of others. -/
theorem run_liftM_bind (x : StateM σ α) (f : α → ExceptT ε (StateM σ) β) (s : σ) :
    (liftM x >>= f : ExceptT ε (StateM σ) β).run s = (f (x s).1).run (x s).2 :=
  rfl

theorem run_writing (p : DiskPath) (operation : StateM σ (Except FileError α)) (s : σ) :
    (writing p operation).run s =
      ((operation s).1.mapError fun e => .write p e.message, (operation s).2) := by
  rw [writing, run_liftM_bind]
  cases (operation s).1 with
  | error e => rfl
  | ok a => rfl

theorem run_writing_eq_ok {operation : StateM σ (Except FileError α)} {a : α} :
    (writing p operation).run s = (.ok a, s') ↔ operation s = (.ok a, s') := by
  rw [run_writing]
  rcases operation s with ⟨e | a', s₁⟩
  · constructor
    · intro h
      cases h
    · intro h
      cases h
  · constructor
    · intro h
      cases h
      rfl
    · intro h
      cases h
      rfl

theorem run_writing_eq_error {operation : StateM σ (Except FileError α)} {e : GenerationError}
    (h : (writing p operation).run s = (.error e, s')) :
    ∃ cause, operation s = (.error cause, s') ∧ e = .write p cause.message := by
  rw [run_writing] at h
  rcases hs : operation s with ⟨cause | a, s₁⟩ <;> rw [hs] at h
  · cases h
    exact ⟨cause, rfl, rfl⟩
  · cases h

namespace FileAccess

/-! ### Directories -/

/-- Whatever state it meets, an action changes no more of the disk than this. -/
def Confines (disk : σ → Disk) (directory : DiskPath) (names : List String) (x : StateM σ α) :
    Prop :=
  ∀ s, Disk.Confined directory names (disk s) (disk (x s).2)

theorem Confines.pure (a : α) : Confines disk directory names (Pure.pure a : StateM σ α) :=
  fun s => Disk.Confined.refl directory names (disk s)

theorem Confines.bind {x : StateM σ α} {f : α → StateM σ β} (hx : Confines disk directory names x)
    (hf : ∀ a, Confines disk directory names (f a)) : Confines disk directory names (x >>= f) :=
  fun s => (hx s).trans (hf (x s).1 (x s).2)

namespace Tracks

theorem confines_makeDirectory (laws : fs.Tracks disk) (leads : Leads p directory) :
    Confines disk directory names (fs.makeDirectory p) := by
  intro s
  rcases h : fs.makeDirectory p s with ⟨_ | _, s'⟩
  · rw [laws.makeDirectory_error h]
    exact Disk.Confined.refl directory names (disk s)
  · exact .makeDirectory (laws.makeDirectory h) leads

theorem confines_isDirectory (laws : fs.Tracks disk) (p : DiskPath) :
    Confines disk directory names (fs.isDirectory p) := by
  intro s
  rw [laws.isDirectory p s]
  exact Disk.Confined.refl directory names (disk s)

theorem confines_makeChain (laws : fs.Tracks disk) {ps : List DiskPath}
    (leads : ∀ q ∈ ps, Leads q directory) : Confines disk directory names (fs.makeChain ps) := by
  induction ps with
  | nil => exact Confines.pure _
  | cons p above ih =>
    rw [List.forall_mem_cons] at leads
    unfold makeChain
    extract_lets made
    have confined : ∀ r, Confines disk directory names (made r) := by
      intro r
      cases r with
      | ok _ => exact Confines.pure _
      | error e =>
        refine (laws.confines_isDirectory p).bind fun found => ?_
        split
        · exact Confines.pure _
        · exact Confines.pure _
    refine (laws.confines_makeDirectory leads.1).bind fun r => ?_
    split
    · refine (ih leads.2).bind fun r => ?_
      split
      · exact Confines.pure _
      · exact (laws.confines_makeDirectory leads.1).bind confined
    · exact confined _

/-- Only directories on the way to the file are made for it. -/
theorem confines_makeParent (laws : fs.Tracks disk) (h : IsFileName name) :
    Confines disk directory names (fs.makeParent (join directory name)).run := by
  rw [makeParent]
  split
  · exact Confines.pure _
  · rename_i above habove
    have made : Confines disk directory names (fs.makeChain (chain above)) :=
      laws.confines_makeChain fun q hq => leads_of_mem_chain_join h habove hq
    intro s
    rw [run_writing]
    exact made s

end Tracks

theorem makeParent_eq_error {e : GenerationError}
    (h : (fs.makeParent p).run s = (.error e, s')) :
    ∃ above cause, parent? p = some above ∧ e = .write above cause := by
  rw [makeParent] at h
  split at h
  · cases h
  · rename_i above habove
    obtain ⟨cause, -, rfl⟩ := run_writing_eq_error h
    exact ⟨above, cause.message, habove, rfl⟩

/-! ### One file -/

theorem draftPath_join (directory : DiskPath) (h : IsFileName name) :
    draftPath (join directory name) = join directory (draftPath name) :=
  withExtension_join directory h (by decide)

/-- The error of a file names its directory, its draft or the file itself. -/
def NamesFile (e : GenerationError) (p : DiskPath) : Prop :=
  ∃ q cause, e = .write q cause ∧ (parent? p = some q ∨ q = draftPath p ∨ q = p)

theorem Reveals.hasContent (laws : fs.Reveals disk) (p : DiskPath) (content : String) (s : σ) :
    fs.hasContent p content s =
      (decide ((disk s).read p = .ok (encodeUtf8 content.toList)), s) := by
  rw [FileAccess.hasContent]
  simp only [bind, StateT.bind, laws.read_eq]
  cases (disk s).read p with
  | error e => rfl
  | ok bytes => exact Prod.ext (decide_eq_decide.mpr ⟨congrArg Except.ok, Except.ok.inj⟩) rfl

namespace Tracks

/-- A file that cannot be read has no content, whatever is in it. -/
theorem hasContent (laws : fs.Tracks disk) {same : Bool}
    (hs : fs.hasContent p content s = (same, s')) : disk s' = disk s ∧
      (same = true → (disk s).read p = .ok (encodeUtf8 content.toList)) := by
  have kept := laws.read p s
  rw [FileAccess.hasContent] at hs
  simp only [bind, StateT.bind] at hs
  rcases hread : fs.read p s with ⟨e | bytes, s₁⟩
  · rw [hread] at hs kept
    cases hs
    exact ⟨kept, nofun⟩
  · rw [hread] at hs kept
    cases hs
    refine ⟨kept, fun same => ?_⟩
    rw [laws.read_ok hread, of_decide_eq_true same]

theorem writeAtomic_ok (laws : fs.Tracks disk) (h : IsFileName name)
    (hdraft : IsFileName (draftPath name)) (different : draftPath name ≠ name)
    (hs : (fs.writeAtomic (join directory name) content).run s = (.ok (), s')) :
    Disk.Confined directory [name, draftPath name] (disk s) (disk s') ∧
      (disk s').find (join directory name) = .ok (.file (encodeUtf8 content.toList)) ∧
      ∀ l, (disk s').follow directory = .ok l →
        Disk.entry? (disk s') (draftPath name :: l) = none := by
  rw [writeAtomic, run_bind_eq_ok] at hs
  obtain ⟨_, s₁, hparent, hs⟩ := hs
  rw [run_bind_eq_ok] at hs
  obtain ⟨_, s₂, hwrite, hs⟩ := hs
  rw [draftPath_join directory h] at hwrite hs
  have confined : Confines disk directory [name, draftPath name]
      (fs.makeParent (join directory name)).run := laws.confines_makeParent h
  have made := confined s
  rw [hparent] at made
  have hwrite := laws.write (run_writing_eq_ok.mp hwrite)
  have hrename := laws.rename (run_writing_eq_ok.mp hs)
  have drafted : Disk.Confined directory [name, draftPath name] (disk s₁) (disk s₂) :=
    .write hwrite hdraft (by simp)
  have renamed : Disk.Confined directory [name, draftPath name] (disk s₂) (disk s') :=
    .rename hrename hdraft h different (by simp) (by simp)
  obtain ⟨l, hl, -, hd₂⟩ := Disk.write_join hdraft hwrite
  obtain ⟨usable, l₂, content', hl₂, hcontent, -, hd⟩ := Disk.rename_join hdraft h different hrename
  have same : l₂ = l := by
    rw [drafted.follow hl, Except.ok.injEq] at hl₂
    exact hl₂.symm
  subst same
  rw [hd₂, Disk.entry?_set, if_pos rfl] at hcontent
  cases hcontent
  refine ⟨(made.trans drafted).trans renamed, ?_, fun l' hl' => ?_⟩
  · refine (Disk.find_join_eq_ok_iff h).mpr ⟨usable, l₂, renamed.follow hl₂, ?_⟩
    rw [hd, Disk.entry?_set, if_pos rfl]
  · rw [renamed.follow hl₂, Except.ok.injEq] at hl'
    rw [← hl', hd, Disk.entry?_set, if_neg (by simp [different]), Disk.entry?_erase, if_pos rfl]

theorem writeAtomic_error (laws : fs.Tracks disk) (h : IsFileName name)
    (hdraft : IsFileName (draftPath name)) {e : GenerationError}
    (hs : (fs.writeAtomic (join directory name) content).run s = (.error e, s')) :
    Disk.Confined directory [draftPath name] (disk s) (disk s') ∧
      NamesFile e (join directory name) := by
  have confined : Confines disk directory [draftPath name]
      (fs.makeParent (join directory name)).run := laws.confines_makeParent h
  have made := confined s
  rw [writeAtomic, run_bind_eq_error] at hs
  rcases hs with hparent | ⟨_, s₁, hparent, hs⟩
  · rw [hparent] at made
    obtain ⟨above, cause, habove, rfl⟩ := makeParent_eq_error hparent
    exact ⟨made, above, cause, rfl, .inl habove⟩
  · rw [hparent] at made
    rw [run_bind_eq_error] at hs
    rcases hs with hwrite | ⟨_, s₂, hwrite, hs⟩
    · obtain ⟨cause, hcause, rfl⟩ := run_writing_eq_error hwrite
      refine ⟨made.trans ?_, _, _, rfl, .inr (.inl rfl)⟩
      rcases laws.write_error hcause with same | ⟨remains, hremains⟩
      · rw [same]
        exact .refl directory _ _
      · rw [draftPath_join directory h] at hremains
        exact .write hremains hdraft (by simp)
    · obtain ⟨cause, hcause, rfl⟩ := run_writing_eq_error hs
      have hwrite := laws.write (run_writing_eq_ok.mp hwrite)
      rw [draftPath_join directory h] at hwrite
      refine ⟨?_, _, _, rfl, .inr (.inr rfl)⟩
      rw [laws.rename_error hcause]
      exact made.trans (.write hwrite hdraft (by simp))

end Tracks

theorem run_writeIfChanged (fs : FileAccess (StateM σ)) (p : DiskPath) (content : String) (s : σ) :
    (fs.writeIfChanged p content).run s = match fs.hasContent p content s with
      | (true, s₁) => (.ok .unchanged, s₁)
      | (false, s₁) => (fs.writeAtomic p content >>= fun _ => pure .written).run s₁ := by
  rw [writeIfChanged, run_liftM_bind]
  rcases fs.hasContent p content s with ⟨same, s₁⟩
  cases same with
  | false => rfl
  | true => rfl

/-! ### Several files -/

/-- The names that the writing of files may change. -/
def touched (files : List ClientFile) : List String :=
  files.flatMap fun f => [f.name, draftPath f.name]

@[simp] theorem touched_cons (f : ClientFile) (files : List ClientFile) :
    touched (f :: files) = f.name :: draftPath f.name :: touched files :=
  rfl

@[simp] theorem touched_append (files files' : List ClientFile) :
    touched (files ++ files') = touched files ++ touched files' :=
  List.flatMap_append

theorem touched_subset {files files' : List ClientFile} (h : files ⊆ files') :
    touched files ⊆ touched files' := by
  intro name hname
  obtain ⟨f, hf, hname⟩ := List.mem_flatMap.mp hname
  exact List.mem_flatMap.mpr ⟨f, h hf, hname⟩

/-- Files with names and drafts that do not get into each other's way. -/
structure Separate (files : List ClientFile) : Prop where
  nodup : (touched files).Nodup
  names : ∀ name ∈ touched files, IsFileName name

end FileAccess

namespace Disk

variable {d d' : Disk} {f : ClientFile}

/-- The file is found in the directory with the content it should have. -/
def Holds (d : Disk) (directory : DiskPath) (f : ClientFile) : Prop :=
  d.find (join directory f.name) = .ok (.file (encodeUtf8 f.content.toList))

theorem read_eq_ok_iff {bytes : Bytes} : d.read p = .ok bytes ↔ d.find p = .ok (.file bytes) := by
  rw [read, bind_eq_ok_iff]
  constructor
  · rintro ⟨e, he, h⟩
    cases e with
    | file content =>
      cases h
      exact he
    | directory => cases h
  · exact fun he => ⟨_, he, rfl⟩

theorem Holds.follow (h : d.Holds directory f) (hf : IsFileName f.name) :
    ∃ l, d.follow directory = .ok l ∧
      d.entry? (f.name :: l) = some (.file (encodeUtf8 f.content.toList)) :=
  ((find_join_eq_ok_iff hf).mp h).2

theorem Confined.holds (h : Confined directory names d d') (hd : d.Holds directory f)
    (hf : IsFileName f.name) (hnames : f.name ∉ names) : d'.Holds directory f := by
  obtain ⟨usable, l, hl, hentry⟩ := (find_join_eq_ok_iff hf).mp hd
  refine (find_join_eq_ok_iff hf).mpr ⟨usable, l, h.follow hl, ?_⟩
  rw [h.entry?_eq hl, hentry]
  intro name hname hx
  rw [List.cons.injEq] at hx
  exact hnames (hx.1 ▸ hname)

end Disk

namespace FileAccess

open Disk (Confined)

variable {files : List ClientFile} {f : ClientFile} {d d' : Disk}

theorem Separate.notMem (h : Separate (f :: files)) :
    f.name ∉ touched files ∧ draftPath f.name ∉ touched files := by
  have nodup := List.nodup_cons.mp (touched_cons f files ▸ h.nodup)
  exact ⟨fun hmem => nodup.1 (List.mem_cons_of_mem _ hmem), (List.nodup_cons.mp nodup.2).1⟩

theorem Separate.tail (h : Separate (f :: files)) : Separate files := by
  constructor
  · exact (List.nodup_cons.mp (List.nodup_cons.mp h.nodup).2).2
  · exact fun name hname => h.names name (by simp [hname])

theorem Separate.nodup_names (h : Separate files) : (files.map (·.name)).Nodup := by
  refine h.nodup.sublist ?_
  induction files with
  | nil => exact List.Sublist.refl _
  | cons f files ih => exact ((ih h.tail).cons (draftPath f.name)).cons_cons f.name

/-- A disk behind the writing of files, some of which were the same already. -/
structure Written (directory : DiskPath) (files written unchanged : List ClientFile)
    (d d' : Disk) : Prop where
  perm : (written ++ unchanged).Perm files
  confined : Confined directory (touched written) d d'
  holds : ∀ f ∈ files, d'.Holds directory f
  drafts : ∀ f ∈ written, ∀ l, d'.follow directory = .ok l →
    d'.entry? (draftPath f.name :: l) = none

theorem Written.subset {written unchanged : List ClientFile}
    (h : Written directory files written unchanged d d') : written ⊆ files :=
  List.Subset.trans (List.subset_append_left _ _) h.perm.subset

theorem Tracks.writeIfChanged_ok (laws : fs.Tracks disk) (h : Separate (f :: files))
    (hs : (fs.writeIfChanged (join directory f.name) f.content).run s = (.ok outcome, s')) :
    outcome = .unchanged ∧ disk s' = disk s ∧ (disk s).Holds directory f ∨
      outcome = .written ∧ Written directory [f] [f] [] (disk s) (disk s') := by
  have hf : IsFileName f.name := h.names _ (by simp)
  have hdraft : IsFileName (draftPath f.name) := h.names _ (by simp)
  have different : draftPath f.name ≠ f.name := by
    intro same
    have := (List.nodup_cons.mp h.nodup).1
    simp [same] at this
  rcases hsame : fs.hasContent (join directory f.name) f.content s with ⟨same, s₁⟩
  obtain ⟨kept, content⟩ := laws.hasContent hsame
  rw [run_writeIfChanged, hsame] at hs
  cases same with
  | true =>
    cases hs
    exact .inl ⟨rfl, kept, Disk.read_eq_ok_iff.mp (content rfl)⟩
  | false =>
    obtain ⟨_, s₂, hwrite, hs⟩ := run_bind_eq_ok.mp hs
    cases hs
    obtain ⟨confined, holds, drafts⟩ := laws.writeAtomic_ok hf hdraft different hwrite
    rw [kept] at confined
    exact .inr ⟨rfl, List.Perm.refl _, confined, List.forall_mem_singleton.mpr holds,
      List.forall_mem_singleton.mpr drafts⟩

/-- A file that stays the same while the files behind it are written. -/
theorem Written.keep {written unchanged : List ClientFile} (h : Separate (f :: files))
    (hd : d.Holds directory f) (tail : Written directory files written unchanged d d') :
    Written directory (f :: files) written (f :: unchanged) d d' where
  perm := List.perm_middle.trans (tail.perm.cons f)
  confined := tail.confined
  holds := by
    refine List.forall_mem_cons.mpr ⟨tail.confined.holds hd (h.names _ (by simp)) ?_, tail.holds⟩
    exact fun hmem => h.notMem.1 (touched_subset tail.subset hmem)
  drafts := tail.drafts

theorem Written.write {written unchanged : List ClientFile} {d₁ : Disk}
    (h : Separate (f :: files)) (head : Written directory [f] [f] [] d d₁)
    (tail : Written directory files written unchanged d₁ d') :
    Written directory (f :: files) (f :: written) unchanged d d' := by
  have hf : d₁.Holds directory f := head.holds f (by simp)
  have kept := tail.keep h hf
  refine ⟨tail.perm.cons f, ?_, kept.holds, List.forall_mem_cons.mpr ⟨?_, tail.drafts⟩⟩
  · exact (head.confined.mono (touched_subset (by simp))).trans
      (tail.confined.mono (touched_subset (by simp)))
  · intro l hl
    obtain ⟨l₁, hl₁, -⟩ := hf.follow (h.names _ (by simp))
    have same : l₁ = l := by
      rw [tail.confined.follow hl₁, Except.ok.injEq] at hl
      exact hl
    subst same
    rw [tail.confined.entry?_eq hl₁]
    · exact head.drafts f (by simp) l₁ hl₁
    · rintro name hname hx
      rw [List.cons.injEq] at hx
      exact h.notMem.2 (hx.1 ▸ touched_subset tail.subset hname)

theorem Tracks.writeFiles_ok (laws : fs.Tracks disk) (h : Separate files)
    (hs : (fs.writeFiles directory files).run s = (.ok report, s')) :
    ∃ written unchanged, Written directory files written unchanged (disk s) (disk s') ∧
      report =
        ⟨written.map (join directory ·.name), unchanged.map (join directory ·.name), []⟩ := by
  induction files generalizing s s' report with
  | nil =>
    cases hs
    exact ⟨[], [], ⟨List.Perm.refl _, .refl _ _ _, by simp, by simp⟩, rfl⟩
  | cons f files ih =>
    rw [writeFiles, run_bind_eq_ok] at hs
    obtain ⟨outcome, s₁, hhead, hs⟩ := hs
    rw [run_bind_eq_ok] at hs
    obtain ⟨report', s₂, htail, hs⟩ := hs
    cases hs
    obtain ⟨written, unchanged, tail, rfl⟩ := ih h.tail htail
    rcases laws.writeIfChanged_ok h hhead with ⟨rfl, kept, holds⟩ | ⟨rfl, head⟩
    · rw [kept] at tail
      exact ⟨written, f :: unchanged, tail.keep h holds, rfl⟩
    · exact ⟨f :: written, unchanged, head.write h tail, rfl⟩

/-- Files that are there already are not touched. -/
theorem Reveals.writeFiles_of_holds (laws : fs.Reveals disk)
    (h : ∀ f ∈ files, (disk s).Holds directory f) :
    (fs.writeFiles directory files).run s =
      (.ok { unchanged := files.map (join directory ·.name) }, s) := by
  induction files with
  | nil => rfl
  | cons f files ih =>
    rw [List.forall_mem_cons] at h
    have head := run_writeIfChanged fs (join directory f.name) f.content s
    rw [laws.hasContent, decide_eq_true (Disk.read_eq_ok_iff.mpr h.1)] at head
    rw [writeFiles, run_bind_eq_ok]
    exact ⟨_, s, head, run_bind_eq_ok.mpr ⟨_, s, ih h.2, rfl⟩⟩

theorem Tracks.writeIfChanged_error (laws : fs.Tracks disk) (h : Separate (f :: files))
    {e : GenerationError}
    (hs : (fs.writeIfChanged (join directory f.name) f.content).run s = (.error e, s')) :
    Confined directory [draftPath f.name] (disk s) (disk s') ∧
      NamesFile e (join directory f.name) := by
  rcases hsame : fs.hasContent (join directory f.name) f.content s with ⟨same, s₁⟩
  have kept := (laws.hasContent hsame).1
  rw [run_writeIfChanged, hsame] at hs
  cases same with
  | true => cases hs
  | false =>
    rcases run_bind_eq_error.mp hs with hwrite | ⟨_, s₂, -, hs⟩
    · rw [← kept]
      exact laws.writeAtomic_error (h.names _ (by simp)) (h.names _ (by simp)) hwrite
    · cases hs

/-- A failure leaves new files up to the one it is about, and no more of this one than its draft. -/
theorem Tracks.writeFiles_error (laws : fs.Tracks disk) (h : Separate files) {e : GenerationError}
    (hs : (fs.writeFiles directory files).run s = (.error e, s')) :
    ∃ before f after, files = before ++ f :: after ∧ NamesFile e (join directory f.name) ∧
      Confined directory (touched before ++ [draftPath f.name]) (disk s) (disk s') ∧
      ∀ g ∈ before, (disk s').Holds directory g := by
  induction files generalizing s with
  | nil => cases hs
  | cons f files ih =>
    rw [writeFiles, run_bind_eq_error] at hs
    rcases hs with hhead | ⟨outcome, s₁, hhead, hs⟩
    · obtain ⟨confined, named⟩ := laws.writeIfChanged_error h hhead
      exact ⟨[], f, files, rfl, named, confined, by simp⟩
    · rw [run_bind_eq_error] at hs
      rcases hs with htail | ⟨report, s₂, -, hs⟩
      · obtain ⟨before, g, after, rfl, named, tail, holds⟩ := ih h.tail htail
        refine ⟨f :: before, g, after, rfl, named, ?_⟩
        have first : Confined directory [f.name, draftPath f.name] (disk s) (disk s₁) ∧
            (disk s₁).Holds directory f := by
          rcases laws.writeIfChanged_ok h hhead with ⟨-, kept, holds⟩ | ⟨-, head⟩
          · rw [kept]
            exact ⟨.refl _ _ _, holds⟩
          · exact ⟨head.confined, head.holds f (by simp)⟩
        constructor
        · exact (first.1.mono (by simp)).trans (tail.mono (by simp))
        · refine List.forall_mem_cons.mpr ⟨tail.holds first.2 (h.names _ (by simp)) ?_, holds⟩
          have other := h.notMem.1
          rw [touched_append, touched_cons, List.mem_append, not_or] at other
          rw [List.mem_append, List.mem_singleton, not_or]
          exact ⟨other.1, fun same => other.2 (by simp [same])⟩
      · cases hs

/-! ### The files of a client -/

theorem clientFiles_names {model : SchemaModel} {style : SelectionStyle}
    (h : clientFiles model style = .ok files) :
    files.map (·.name) = ClientModule.all.map (·.fileName) := by
  rw [clientFiles] at h
  generalize ClientModule.all = modules at h ⊢
  induction modules generalizing files with
  | nil =>
    cases h
    rfl
  | cons c modules ih =>
    rw [List.mapM_cons] at h
    obtain ⟨f, hf, h⟩ := bind_eq_ok_iff.mp h
    obtain ⟨later, hlater, h⟩ := bind_eq_ok_iff.mp h
    obtain ⟨content, -, rfl⟩ := map_eq_ok_iff.mp hf
    cases h
    rw [List.map_cons, List.map_cons, ih hlater]

theorem touched_eq (files : List ClientFile) :
    touched files = (files.map (·.name)).flatMap fun name => [name, draftPath name] := by
  rw [touched, List.flatMap_map]

theorem separate_clientFiles {model : SchemaModel} {style : SelectionStyle}
    (h : clientFiles model style = .ok files) : Separate files := by
  have names := clientFiles_names h
  constructor
  · rw [touched_eq, names]
    decide
  · rw [touched_eq, names]
    decide

end FileAccess

end SchemaClient
