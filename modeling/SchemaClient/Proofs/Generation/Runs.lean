import SchemaClient.Proofs.Generation.Cleaning

/-!
# Runs of the generator

What a run that succeeds has changed on the disk, and that a second run behind it changes nothing.
Apart from its own files and the stale ones, a run changes the drafts of the files that it writes: a
file that had the name of a draft before is lost.
-/

namespace SchemaClient

open Text DiskPath FileAccess

variable {σ : Type} {disk : σ → Disk} {fs : FileAccess (StateM σ)} {directory p : DiskPath}
  {model : SchemaModel} {style : SelectionStyle} {files written unchanged : List ClientFile}
  {stale : List String} {name : String} {report : RunReport} {l : Location} {d d₁ d' : Disk}
  {s s' : σ}

/-- What a run that succeeds leaves on a disk, with its directory at the given location. -/
structure Generated (directory : DiskPath) (files : List ClientFile) (report : RunReport)
    (l : Location) (d d' : Disk) : Prop where
  follow : d'.follow directory = .ok l
  proper : d'.Proper
  holds : ∀ f ∈ files, d'.Holds directory f
  reported : (report.written ++ report.unchanged).Perm (files.map (join directory ·.name))
  mem_removed : ∀ p, p ∈ report.removed ↔ ∃ name, p = join directory name ∧ directory ≠ "" ∧
    Usable p ∧ Stale (files.map (·.name)) d l name
  nodup_removed : report.removed.Nodup
  removed : ∀ name, join directory name ∈ report.removed → d'.entry? (name :: l) = none
  drafts : ∀ f ∈ files, join directory f.name ∈ report.written →
    d'.entry? (draftPath f.name :: l) = none
  /-- All other locations stay as they are or are directories made for the output directory. -/
  elsewhere : ∀ x, (∀ f ∈ files, x ≠ f.name :: l) →
    (∀ f ∈ files, join directory f.name ∈ report.written → x ≠ draftPath f.name :: l) →
    (∀ name, join directory name ∈ report.removed → x ≠ name :: l) →
    d'.entry? x = d.entry? x ∨ Disk.Made directory d d' x

/-- No draft has the extension of generated code. -/
theorem kept_or_not_rs (h : clientFiles model style = .ok files) (hname : name ∈ touched files) :
    name ∈ files.map (·.name) ∨ ¬∃ stem, stem ≠ "" ∧ name = stem ++ ".rs" := by
  have isFileName := (separate_clientFiles h).names name hname
  rw [← extension?_join_eq_rs_iff "" isFileName]
  rw [touched_eq, clientFiles_names h] at hname
  rw [clientFiles_names h]
  revert name
  decide

theorem not_stale_draft (h : clientFiles model style = .ok files) {f : ClientFile}
    (hf : f ∈ files) : ¬Stale (files.map (·.name)) d l (draftPath f.name) := by
  intro stale
  have touched : draftPath f.name ∈ touched files := List.mem_flatMap.mpr ⟨f, hf, by simp⟩
  rcases kept_or_not_rs h touched with kept | not_rs
  · exact stale.other kept
  · exact not_rs stale.extension

/-- What counts as stale does not depend on what was written. -/
theorem stale_congr (h : clientFiles model style = .ok files) (sub : written ⊆ files)
    (confined : Disk.Confined directory (touched written) d d₁) (name : String) :
    Stale (files.map (·.name)) d₁ l name ↔ Stale (files.map (·.name)) d l name := by
  rcases confined.entries (name :: l) with same | made | ⟨name', hname', l', -, hx⟩
  · exact Stale.congr same
  · constructor
    · rintro ⟨-, -, content, hentry, -⟩
      rw [made.directory] at hentry
      cases hentry
    · rintro ⟨-, -, content, hentry, -⟩
      rw [made.free] at hentry
      cases hentry
  · rw [List.cons.injEq] at hx
    obtain ⟨rfl, -⟩ := hx
    rcases kept_or_not_rs h (touched_subset sub hname') with kept | not_rs
    · exact ⟨fun h => absurd kept h.other, fun h => absurd kept h.other⟩
    · exact ⟨fun h => absurd h.extension not_rs, fun h => absurd h.extension not_rs⟩

namespace FileAccess

theorem run_generate_eq_ok (h : clientFiles model style = .ok files) :
    (fs.generate model style directory).run s = (.ok report, s') ↔
      ∃ report₁ s₁ removed, (fs.writeFiles directory files).run s = (.ok report₁, s₁) ∧
        (fs.removeStale (files.map (·.name)) directory).run s₁ = (.ok removed, s') ∧
        report = { report₁ with removed := removed } := by
  rw [generate, h]
  dsimp only
  rw [run_bind_eq_ok]
  constructor
  · rintro ⟨report₁, s₁, hwrite, hs⟩
    obtain ⟨removed, s₂, hremove, hs⟩ := run_bind_eq_ok.mp hs
    cases hs
    exact ⟨report₁, s₁, removed, hwrite, hremove, rfl⟩
  · rintro ⟨report₁, s₁, removed, hwrite, hremove, rfl⟩
    exact ⟨report₁, s₁, hwrite, run_bind_eq_ok.mpr ⟨removed, s', hremove, rfl⟩⟩

theorem clientFiles_of_generate
    (hs : (fs.generate model style directory).run s = (.ok report, s')) :
    ∃ files, clientFiles model style = .ok files := by
  rw [generate] at hs
  split at hs
  · cases hs
  · rename_i files h
    exact ⟨files, h⟩

theorem nonempty_clientFiles (h : clientFiles model style = .ok files) :
    ∃ f rest, files = f :: rest := by
  have names := clientFiles_names h
  cases files with
  | nil => cases names
  | cons f rest => exact ⟨f, rest, rfl⟩

theorem mem_map_join (h : written ⊆ files) (separate : Separate files) {f : ClientFile}
    (hf : f ∈ files) :
    join directory f.name ∈ written.map (join directory ·.name) ↔ f ∈ written := by
  constructor
  · intro hmem
    obtain ⟨g, hg, same⟩ := List.mem_map.mp hmem
    have names : g.name = f.name := join_injective directory same
    rwa [← List.inj_on_of_nodup_map separate.nodup_names (h hg) hf names]
  · exact fun hmem => List.mem_map_of_mem hmem

/-- Apart from its own files, their drafts and the stale ones, a run leaves everything as it is or
makes directories. -/
theorem elsewhere_of_confined {x : Location}
    (h : Disk.Confined directory (touched written ++ stale) d d')
    (hl : d'.follow directory = .ok l) (files : ∀ f ∈ written, x ≠ f.name :: l)
    (drafts : ∀ f ∈ written, x ≠ draftPath f.name :: l) (others : ∀ name ∈ stale, x ≠ name :: l) :
    d'.entry? x = d.entry? x ∨ Disk.Made directory d d' x := by
  rcases h.entries x with same | made | ⟨name, hname, l', hl', rfl⟩
  · exact .inl same
  · exact .inr made
  · rw [hl, Except.ok.injEq] at hl'
    subst hl'
    rcases List.mem_append.mp hname with hname | hname
    · obtain ⟨f, hf, hname⟩ := List.mem_flatMap.mp hname
      rcases List.mem_pair.mp hname with rfl | rfl
      · exact absurd rfl (files f hf)
      · exact absurd rfl (drafts f hf)
    · exact absurd rfl (others name hname)

theorem Reveals.generated (laws : fs.Reveals disk) (proper : (disk s).Proper)
    (h : clientFiles model style = .ok files)
    (hs : (fs.generate model style directory).run s = (.ok report, s')) :
    ∃ l, Generated directory files report l (disk s) (disk s') := by
  obtain ⟨report₁, s₁, removed, hwrite, hremove, rfl⟩ := (run_generate_eq_ok h).mp hs
  have separate := separate_clientFiles h
  obtain ⟨written, unchanged, wrote, rfl⟩ := laws.writeFiles_ok separate hwrite
  have sub : written ⊆ files := wrote.subset
  obtain ⟨l, hl⟩ : ∃ l, (disk s₁).follow directory = .ok l := by
    obtain ⟨f, rest, rfl⟩ := nonempty_clientFiles h
    obtain ⟨l, hl, -⟩ := (wrote.holds f (by simp)).follow (separate.names _ (by simp))
    exact ⟨l, hl⟩
  obtain ⟨stale, rfl, nodup, mem_stale, cleaned, gone⟩ :=
    laws.removeStale_ok (wrote.confined.proper proper) hl hremove
  have hl' := cleaned.follow hl
  simp only [stale_congr h sub wrote.confined] at mem_stale
  have removed_iff : ∀ name, join directory name ∈ stale.map (join directory) ↔ name ∈ stale :=
    fun name => List.mem_map_of_injective (join_injective directory)
  have written_of {f : ClientFile} (hf : f ∈ files)
      (hmem : join directory f.name ∈ written.map (join directory ·.name)) : f ∈ written :=
    (mem_map_join sub separate hf).mp hmem
  refine ⟨l, hl', cleaned.proper (wrote.confined.proper proper), fun f hf => ?_, ?_, fun p => ?_,
    nodup.map (join_injective directory), fun name hname => gone name ((removed_iff name).mp hname),
    fun f hf hmem => ?_, fun x output draft gone => ?_⟩
  · refine cleaned.holds (wrote.holds f hf) (separate.names _ ?_) fun hstale => ?_
    · exact List.mem_flatMap.mpr ⟨f, hf, by simp⟩
    · exact ((mem_stale f.name).mp hstale).2.2.other (List.mem_map_of_mem hf)
  · exact List.map_append ▸ wrote.perm.map _
  · rw [List.mem_map]
    constructor
    · rintro ⟨name, hname, rfl⟩
      exact ⟨name, rfl, (mem_stale name).mp hname⟩
    · rintro ⟨name, rfl, hname⟩
      exact ⟨name, (mem_stale name).mpr hname, rfl⟩
  · rw [cleaned.entry?_eq hl]
    · exact wrote.drafts f (written_of hf hmem) l hl
    · intro name hname hx
      rw [List.cons.injEq] at hx
      exact not_stale_draft h hf (hx.1 ▸ ((mem_stale name).mp hname).2.2)
  · have confined : Disk.Confined directory (touched written ++ stale) (disk s) (disk s') :=
      (wrote.confined.mono (List.subset_append_left _ _)).trans
        (cleaned.mono (List.subset_append_right _ _))
    exact elsewhere_of_confined confined hl' (fun f hf => output f (sub hf))
      (fun f hf => draft f (sub hf) (List.mem_map_of_mem hf))
      fun name hname => gone name ((removed_iff name).mpr hname)

end FileAccess

namespace Generated

theorem stale_iff (h : Generated directory files report l d d') :
    join directory name ∈ report.removed ↔ directory ≠ "" ∧ Usable (join directory name) ∧
      Stale (files.map (·.name)) d l name := by
  rw [h.mem_removed]
  constructor
  · rintro ⟨name', same, hname⟩
    rwa [← join_injective directory same] at hname
  · exact fun hname => ⟨name, rfl, hname⟩

/-- Behind a run nothing is stale. -/
theorem not_stale (h : Generated directory files report l d d') (nonempty : directory ≠ "")
    (usable : Usable (join directory name)) : ¬Stale (files.map (·.name)) d' l name := by
  rintro ⟨extension, other, content, hentry, notice⟩
  have kept : join directory name ∉ report.removed := by
    intro hremoved
    rw [h.removed name hremoved] at hentry
    cases hentry
  refine kept (h.stale_iff.mpr ⟨nonempty, usable, extension, other, content, ?_, notice⟩)
  have untouched : d'.entry? (name :: l) = d.entry? (name :: l) ∨
      Disk.Made directory d d' (name :: l) := by
    refine h.elsewhere (name :: l) (fun f hf hx => ?_) (fun f hf hwritten hx => ?_)
      fun name' hremoved hx => ?_
    · rw [List.cons.injEq] at hx
      exact other (hx.1 ▸ List.mem_map_of_mem hf)
    · rw [hx, h.drafts f hf hwritten] at hentry
      cases hentry
    · rw [List.cons.injEq] at hx
      exact kept (hx.1 ▸ hremoved)
  rcases untouched with same | made
  · rw [← same, hentry]
  · rw [made.directory] at hentry
    cases hentry

end Generated

/-! ### A small disk -/

/-- A home with one directory and these files in it. -/
def homeWith (files : List ClientFile) : Disk where
  entries := [(["home"], .directory), (["out", "home"], .directory)] ++
    files.map fun f => ([f.name, "out", "home"], .file (encodeUtf8 f.content.toList))
  home := ["home"]

/-- A client without its first file, a file in the place of the draft of this file and a file of an
earlier run. -/
def untidy (b c d e f : String) : Disk :=
  homeWith [⟨"mod.tmp", "mine"⟩, ⟨"enums.rs", d⟩, ⟨"inputs.rs", c⟩, ⟨"mutations.rs", f⟩,
    ⟨"old.rs", Code.notice⟩, ⟨"queries.rs", e⟩, ⟨"types.rs", b⟩]

theorem proper_untidy (b c d e f : String) : (untidy b c d e f).Proper := by
  have locations : (untidy b c d e f).entries.map (·.1) = [["home"], ["out", "home"],
      ["mod.tmp", "out", "home"], ["enums.rs", "out", "home"], ["inputs.rs", "out", "home"],
      ["mutations.rs", "out", "home"], ["old.rs", "out", "home"], ["queries.rs", "out", "home"],
      ["types.rs", "out", "home"]] := rfl
  constructor
  · rw [locations]
    decide
  · rw [locations]
    decide

theorem generate_untidy {a b c d e f : String}
    (h : clientFiles model style = .ok [⟨"mod.rs", a⟩, ⟨"types.rs", b⟩, ⟨"inputs.rs", c⟩,
      ⟨"enums.rs", d⟩, ⟨"queries.rs", e⟩, ⟨"mutations.rs", f⟩]) :
    (Disk.access.generate model style "out").run (untidy b c d e f) =
      (.ok ⟨[join "out" "mod.rs"], ["types.rs", "inputs.rs", "enums.rs", "queries.rs",
          "mutations.rs"].map (join "out"), [join "out" "old.rs"]⟩,
        homeWith [⟨"enums.rs", d⟩, ⟨"inputs.rs", c⟩, ⟨"mutations.rs", f⟩, ⟨"queries.rs", e⟩,
          ⟨"types.rs", b⟩, ⟨"mod.rs", a⟩]) := by
  let drafted := homeWith [⟨"mod.tmp", a⟩, ⟨"enums.rs", d⟩, ⟨"inputs.rs", c⟩, ⟨"mutations.rs", f⟩,
    ⟨"old.rs", Code.notice⟩, ⟨"queries.rs", e⟩, ⟨"types.rs", b⟩]
  let written := homeWith [⟨"enums.rs", d⟩, ⟨"inputs.rs", c⟩, ⟨"mutations.rs", f⟩,
    ⟨"old.rs", Code.notice⟩, ⟨"queries.rs", e⟩, ⟨"types.rs", b⟩, ⟨"mod.rs", a⟩]
  have first : (Disk.access.writeIfChanged (join "out" "mod.rs") a).run (untidy b c d e f) =
      (.ok .written, written) := by
    rw [run_writeIfChanged, Disk.access_reveals.hasContent, decide_eq_false nofun]
    refine run_bind_eq_ok.mpr ⟨(), written, ?_, rfl⟩
    refine run_bind_eq_ok.mpr ⟨(), untidy b c d e f, ?_, ?_⟩
    · rfl
    refine run_bind_eq_ok.mpr ⟨(), drafted, ?_, ?_⟩
    · rfl
    · rfl
  have holds : ∀ g ∈ [⟨"types.rs", b⟩, ⟨"inputs.rs", c⟩, ⟨"enums.rs", d⟩, ⟨"queries.rs", e⟩,
      (⟨"mutations.rs", f⟩ : ClientFile)], written.Holds "out" g := by
    simp only [List.forall_mem_cons, Disk.Holds]
    exact ⟨rfl, rfl, rfl, rfl, rfl, by simp⟩
  have others := Disk.access_reveals.writeFiles_of_holds holds
  refine (run_generate_eq_ok h).mpr ⟨_, written, [join "out" "old.rs"],
    run_bind_eq_ok.mpr ⟨_, _, first, run_bind_eq_ok.mpr ⟨_, _, others, rfl⟩⟩, ?_, rfl⟩
  have names : ["enums.rs", "inputs.rs", "mutations.rs", "old.rs", "queries.rs", "types.rs",
      "mod.rs"].mergeSort (fun a b => decide (a ≤ b)) = ["enums.rs", "inputs.rs", "mod.rs",
        "mutations.rs", "old.rs", "queries.rs", "types.rs"] := by
    simp [List.mergeSort]
  have listed : (writing "out" (Disk.access.names "out")).run written = (.ok ["enums.rs",
      "inputs.rs", "mutations.rs", "old.rs", "queries.rs", "types.rs", "mod.rs"], written) := rfl
  have isDirectory : written.isDirectory "out" = true := rfl
  rw [removeStale, run_liftM_bind, Disk.access_reveals.isDirectory_eq, id, isDirectory]
  simp only [↓reduceIte]
  refine run_bind_eq_ok.mpr ⟨_, written, listed, ?_⟩
  rw [names]
  rfl

theorem clientFiles_empty : ∃ a b c d e f,
    clientFiles (.ofDefinitions [] [] []) .inline = .ok [⟨"mod.rs", a⟩, ⟨"types.rs", b⟩,
      ⟨"inputs.rs", c⟩, ⟨"enums.rs", d⟩, ⟨"queries.rs", e⟩, ⟨"mutations.rs", f⟩] :=
  ⟨_, _, _, _, _, _, rfl⟩

/-! ### Whole runs -/

/-- What a run changes. The only files that it takes away besides the stale ones are those in the
place of a draft; no other file is lost exactly if no written file had one there. -/
theorem generate_frame (proper : d.Proper)
    (h : (Disk.access.generate model style directory).run d = (.ok report, d')) :
    ∃ files l, clientFiles model style = .ok files ∧ Generated directory files report l d d' ∧
      ((∀ x, (∀ f ∈ files, x ≠ f.name :: l) →
          (∀ name, join directory name ∈ report.removed → x ≠ name :: l) →
          d'.entry? x = d.entry? x ∨ Disk.Made directory d d' x) ↔
        ∀ f ∈ files, join directory f.name ∈ report.written →
          d.entry? (draftPath f.name :: l) = none) := by
  obtain ⟨files, hfiles⟩ := clientFiles_of_generate h
  obtain ⟨l, generated⟩ : ∃ l, Generated directory files report l d d' :=
    Disk.access_reveals.generated proper hfiles h
  refine ⟨files, l, hfiles, generated, ?_⟩
  have apart : ∀ name ∈ files.map (·.name), draftPath name ∉ files.map (·.name) := by
    rw [clientFiles_names hfiles]
    decide
  constructor
  · intro frame f hf hwritten
    have gone := generated.drafts f hf hwritten
    have untouched : d'.entry? (draftPath f.name :: l) = d.entry? (draftPath f.name :: l) ∨
        Disk.Made directory d d' (draftPath f.name :: l) := by
      refine frame (draftPath f.name :: l) (fun g hg hx => ?_) fun name hremoved hx => ?_
      · rw [List.cons.injEq] at hx
        exact apart f.name (List.mem_map_of_mem hf) (hx.1 ▸ List.mem_map_of_mem hg)
      · rw [List.cons.injEq] at hx
        exact not_stale_draft hfiles hf (hx.1 ▸ (generated.stale_iff.mp hremoved).2.2)
    rcases untouched with same | made
    · rw [← same, gone]
    · exact made.free
  · intro free x output removed
    by_cases draft : ∃ f ∈ files, join directory f.name ∈ report.written ∧
        x = draftPath f.name :: l
    · obtain ⟨f, hf, hwritten, rfl⟩ := draft
      rw [generated.drafts f hf hwritten, free f hf hwritten]
      exact .inl rfl
    · exact generated.elsewhere x output
        (fun f hf hwritten hx => draft ⟨f, hf, hwritten, hx⟩) removed

/-- The draft of a file that was missing takes the place of another file, and both are gone. -/
theorem generate_frame_lost_draft : ∃ b c d e f report d' files l,
    (untidy b c d e f).Proper ∧ (Disk.access.generate (.ofDefinitions [] [] []) .inline "out").run
      (untidy b c d e f) = (.ok report, d') ∧
    Generated "out" files report l (untidy b c d e f) d' ∧
    ¬∀ x, (∀ f ∈ files, x ≠ f.name :: l) →
      (∀ name, join "out" name ∈ report.removed → x ≠ name :: l) →
      d'.entry? x = Disk.entry? (untidy b c d e f) x ∨
        Disk.Made "out" (untidy b c d e f) d' x := by
  obtain ⟨a, b, c, d, e, f, hfiles⟩ := clientFiles_empty
  have h := generate_untidy hfiles
  obtain ⟨files, l, hfiles', generated, frame⟩ := generate_frame (proper_untidy b c d e f) h
  refine ⟨b, c, d, e, f, _, _, files, l, proper_untidy b c d e f, h, generated, ?_⟩
  rw [hfiles, Except.ok.injEq] at hfiles'
  subst hfiles'
  rw [frame]
  intro free
  have lost := free ⟨"mod.rs", a⟩ (by simp) (by simp)
  have location : Except.ok ["out", "home"] = Except.ok l := generated.follow
  have mine : Disk.entry? (untidy b c d e f) (draftPath "mod.rs" :: ["out", "home"]) =
      some (.file (encodeUtf8 "mine".toList)) := rfl
  cases location
  rw [mine] at lost
  cases lost

/-- A run behind a run finds all files as they should be and nothing to remove. -/
theorem generate_stable (proper : d.Proper)
    (h : (Disk.access.generate model style directory).run d = (.ok report, d')) :
    (Disk.access.generate model style directory).run d' =
        (.ok { unchanged := ClientModule.all.map (join directory ·.fileName) }, d') ∧
      (report.written ++ report.unchanged).Perm
        (ClientModule.all.map (join directory ·.fileName)) ∧
      (ClientModule.all.map (join directory ·.fileName)).Nodup := by
  obtain ⟨files, hfiles⟩ := clientFiles_of_generate h
  obtain ⟨l, generated⟩ : ∃ l, Generated directory files report l d d' :=
    Disk.access_reveals.generated proper hfiles h
  have paths : files.map (join directory ·.name) =
      ClientModule.all.map (join directory ·.fileName) := by
    have := congrArg (List.map (join directory)) (clientFiles_names hfiles)
    rwa [List.map_map, List.map_map] at this
  refine ⟨?_, paths ▸ generated.reported, ?_⟩
  · rw [run_generate_eq_ok hfiles, ← paths]
    refine ⟨_, d', [], Disk.access_reveals.writeFiles_of_holds generated.holds, ?_, rfl⟩
    exact Disk.access_reveals.removeStale_of_not_stale generated.proper generated.follow
      fun name => generated.not_stale
  · rw [← paths, ← Function.comp_def (join directory), ← List.map_map]
    exact (separate_clientFiles hfiles).nodup_names.map (join_injective directory)

/-- A second run behind one that wrote a file and removed another. -/
theorem generate_stable_untidy : ∃ b c d e f report d',
    (Disk.access.generate (.ofDefinitions [] [] []) .inline "out").run (untidy b c d e f) =
        (.ok report, d') ∧
      report.written = ["out/mod.rs"] ∧ report.removed = ["out/old.rs"] ∧
      (Disk.access.generate (.ofDefinitions [] [] []) .inline "out").run d' =
        (.ok ⟨[], ["out/mod.rs", "out/types.rs", "out/inputs.rs", "out/enums.rs", "out/queries.rs",
          "out/mutations.rs"], []⟩, d') := by
  obtain ⟨a, b, c, d, e, f, hfiles⟩ := clientFiles_empty
  have h := generate_untidy hfiles
  exact ⟨b, c, d, e, f, _, _, h, by decide, by decide,
    (generate_stable (proper_untidy b c d e f) h).1⟩

end SchemaClient
