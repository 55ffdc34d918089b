import SchemaClient.Command.Run
import SchemaClient.Proofs.Generation.Runs

/-!
# How runs of the command end

A run of the command ends in one of a few ways, each of which determines what it prints. Only a run
that has assembled all files changes the disk at all. Where the writing of these files is
interrupted, the files in front of the interruption are new, the others are what they were, and none
is missing.
-/

namespace SchemaClient

open Text DiskPath FileAccess

/-- How a run ends, and what it has found out by then. -/
inductive Ending
  /-- There is no model. -/
  | refused (e : GenerationError)
  | dumped (model : SchemaModel)
  /-- There is no client for the model. -/
  | invalid (model : SchemaModel) (e : GenerationError)
  | listed (model : SchemaModel) (files : List ClientFile)
  /-- Not all files are written. -/
  | interrupted (model : SchemaModel) (files : List ClientFile) (e : GenerationError)
  /-- All files are written, but not all stale files removed. -/
  | uncleaned (model : SchemaModel) (files : List ClientFile) (e : GenerationError)
  | generated (model : SchemaModel) (files : List ClientFile) (report : RunReport)

namespace Ending

def error? : Ending → Option GenerationError
  | refused e | invalid _ e | interrupted _ _ e | uncleaned _ _ e => some e
  | dumped _ | listed _ _ | generated _ _ _ => none

/-- What a run prints that ends like this. -/
def outcome (o : Options) : Ending → Outcome
  | refused e => .failed o.introduction e
  | dumped model => ⟨0, model.json.indented ++ "\n", o.introduction⟩
  | listed model files => ⟨0, Options.listing files, o.introduction ++ o.summary model⟩
  | invalid model e | interrupted model _ e | uncleaned model _ e =>
    .failed (o.introduction ++ o.summary model) e
  | generated model _ report => ⟨0, "", o.introduction ++ o.summary model ++ o.reportText report⟩

end Ending

namespace Options

variable {m : Type → Type} [Monad m]

/-- A run of the command up to what it prints. -/
def ending (o : Options) (fs : FileAccess m) : m Ending := do
  match ← (o.model fs).run with
  | .error e => pure (.refused e)
  | .ok model =>
    if o.dumpModel then pure (.dumped model)
    else
      match clientFiles model o.style with
      | .error e => pure (.invalid model e)
      | .ok files =>
        if o.dryRun then pure (.listed model files)
        else
          match ← (fs.writeFiles o.output files).run with
          | .error e => pure (.interrupted model files e)
          | .ok report =>
            match ← (fs.removeStale (files.map (·.name)) o.output).run with
            | .error e => pure (.uncleaned model files e)
            | .ok removed => pure (.generated model files { report with removed := removed })

end Options

section

variable {σ : Type} {disk : σ → Disk} {fs : FileAccess (StateM σ)} {o : Options}
  {model : SchemaModel} {files : List ClientFile} {ending : Ending} {e : GenerationError} {s s' : σ}

theorem disk_schemaText (laws : fs.Tracks disk) (p : DiskPath) (s : σ) :
    disk ((fs.schemaText p).run s).2 = disk s := by
  rw [schemaText, run_liftM_bind]
  have asked := laws.isFile p s
  split
  · rw [run_liftM_bind]
    have tried := laws.read p (fs.isFile p s).2
    split
    · exact tried.trans asked
    · exact tried.trans asked
  · exact asked

/-- Looking for the model leaves the disk as it is, whether the schema can be read or not. -/
theorem disk_model (laws : fs.Tracks disk) (o : Options) (s : σ) :
    disk ((o.model fs).run s).2 = disk s := by
  rw [Options.model]
  split
  · rfl
  · rw [schemaModel, run_bind]
    have kept := disk_schemaText laws o.schema s
    rcases htext : (fs.schemaText o.schema).run s with ⟨e | text, s₁⟩
    · rwa [htext] at kept
    · rw [htext] at kept
      dsimp only
      split
      · exact kept
      · exact kept

theorem run_ending (fs : FileAccess (StateM σ)) (o : Options) (s : σ) :
    o.ending fs s = match (o.model fs).run s with
      | (.error e, s₁) => (.refused e, s₁)
      | (.ok model, s₁) =>
        if o.dumpModel then (.dumped model, s₁)
        else
          match clientFiles model o.style with
          | .error e => (.invalid model e, s₁)
          | .ok files =>
            if o.dryRun then (.listed model files, s₁)
            else
              match (fs.writeFiles o.output files).run s₁ with
              | (.error e, s₂) => (.interrupted model files e, s₂)
              | (.ok report, s₂) =>
                match (fs.removeStale (files.map (·.name)) o.output).run s₂ with
                | (.error e, s₃) => (.uncleaned model files e, s₃)
                | (.ok removed, s₃) => (.generated model files { report with removed }, s₃) := by
  simp only [Options.ending, bind, StateT.bind]
  rcases (o.model fs).run s with ⟨e | model, s₁⟩
  · rfl
  · dsimp only
    split
    · rfl
    · cases clientFiles model o.style with
      | error e => rfl
      | ok files =>
        dsimp only
        split
        · rfl
        · rcases hwrite : (fs.writeFiles o.output files).run s₁ with ⟨e | report, s₂⟩
          · simp only [StateT.bind, bind, hwrite]
            rfl
          · rcases h : (fs.removeStale (files.map (·.name)) o.output).run s₂ with ⟨e | removed, s₃⟩
            · simp only [StateT.bind, bind, hwrite, h]
              rfl
            · simp only [StateT.bind, bind, hwrite, h]
              rfl

/-- What a run has come to when it ends. -/
inductive Ends (fs : FileAccess (StateM σ)) (o : Options) (s : σ) : Ending → σ → Prop
  | refused {e : GenerationError} {s' : σ} (hmodel : (o.model fs).run s = (.error e, s')) :
    Ends fs o s (.refused e) s'
  | dumped {model : SchemaModel} {s' : σ} (hmodel : (o.model fs).run s = (.ok model, s'))
      (dump : o.dumpModel = true) : Ends fs o s (.dumped model) s'
  | invalid {model : SchemaModel} {e : GenerationError} {s' : σ}
      (hmodel : (o.model fs).run s = (.ok model, s'))
      (hfiles : clientFiles model o.style = .error e) : Ends fs o s (.invalid model e) s'
  | listed {model : SchemaModel} {files : List ClientFile} {s' : σ}
      (hmodel : (o.model fs).run s = (.ok model, s'))
      (hfiles : clientFiles model o.style = .ok files) (dry : o.dryRun = true) :
    Ends fs o s (.listed model files) s'
  | interrupted {model : SchemaModel} {files : List ClientFile} {e : GenerationError} {s₁ s' : σ}
      (hmodel : (o.model fs).run s = (.ok model, s₁))
      (hfiles : clientFiles model o.style = .ok files)
      (hwrite : (fs.writeFiles o.output files).run s₁ = (.error e, s')) :
    Ends fs o s (.interrupted model files e) s'
  | uncleaned {model : SchemaModel} {files : List ClientFile} {report : RunReport}
      {e : GenerationError} {s₁ s₂ s' : σ} (hmodel : (o.model fs).run s = (.ok model, s₁))
      (hfiles : clientFiles model o.style = .ok files)
      (hwrite : (fs.writeFiles o.output files).run s₁ = (.ok report, s₂))
      (hremove : (fs.removeStale (files.map (·.name)) o.output).run s₂ = (.error e, s')) :
    Ends fs o s (.uncleaned model files e) s'
  | generated {model : SchemaModel} {files : List ClientFile} {report : RunReport}
      {removed : List DiskPath} {s₁ s₂ s' : σ} (hmodel : (o.model fs).run s = (.ok model, s₁))
      (hfiles : clientFiles model o.style = .ok files) (dump : o.dumpModel = false)
      (dry : o.dryRun = false) (hwrite : (fs.writeFiles o.output files).run s₁ = (.ok report, s₂))
      (hremove : (fs.removeStale (files.map (·.name)) o.output).run s₂ = (.ok removed, s')) :
    Ends fs o s (.generated model files { report with removed }) s'

theorem ends_ending (fs : FileAccess (StateM σ)) (o : Options) (s : σ) :
    Ends fs o s (o.ending fs s).1 (o.ending fs s).2 := by
  rw [run_ending]
  split
  · rename_i e s₁ hmodel
    exact .refused hmodel
  · rename_i model s₁ hmodel
    split
    · rename_i dump
      exact .dumped hmodel dump
    · rename_i dump
      split
      · rename_i e hfiles
        exact .invalid hmodel hfiles
      · rename_i files hfiles
        split
        · rename_i dry
          exact .listed hmodel hfiles dry
        · rename_i dry
          split
          · rename_i e s₂ hwrite
            exact .interrupted hmodel hfiles hwrite
          · rename_i report s₂ hwrite
            split
            · rename_i e s₃ hremove
              exact .uncleaned hmodel hfiles hwrite hremove
            · rename_i removed s₃ hremove
              exact .generated hmodel hfiles (Bool.eq_false_iff.mpr dump)
                (Bool.eq_false_iff.mpr dry) hwrite hremove

theorem run_eq_ending (fs : FileAccess (StateM σ)) (o : Options) (s : σ) :
    o.run fs s = ((o.ending fs s).1.outcome o, (o.ending fs s).2) := by
  simp only [Options.run, Options.ending, bind, StateT.bind]
  rcases (o.model fs).run s with ⟨e | model, s₁⟩
  · rfl
  · dsimp only
    split
    · rfl
    · cases hfiles : clientFiles model o.style with
      | error e =>
        split
        · rfl
        · rw [generate, hfiles]
          rfl
      | ok files =>
        split
        · rfl
        · rw [generate, hfiles]
          simp only [StateT.bind]
          rw [run_bind]
          rcases (fs.writeFiles o.output files).run s₁ with ⟨e | report, s₂⟩
          · rfl
          · dsimp only
            rw [run_bind]
            rcases h : (fs.removeStale (files.map (·.name)) o.output).run s₂ with ⟨e | removed, s₃⟩
            · simp only [bind, StateT.bind, h]
              rfl
            · simp only [bind, StateT.bind, h]
              rfl

/-- What an interruption of the writing leaves: new files up to one, which the error is about, and
old ones from this one on. -/
def Interrupted (directory : DiskPath) (files : List ClientFile) (e : GenerationError)
    (d d' : Disk) : Prop :=
  ∃ before f after, files = before ++ f :: after ∧ NamesFile e (join directory f.name) ∧
    (∀ g ∈ before, d'.Holds directory g) ∧
    (∀ g ∈ f :: after, ∀ l, d'.entry? (g.name :: l) = d.entry? (g.name :: l) ∨
      Disk.Made directory d d' (g.name :: l)) ∧
    ∀ x content, d.entry? x = some (.file content) → (∀ name ∈ touched files, x.head? ≠ some name) →
      d'.entry? x = some (.file content)

/-- No name of a later file is among those that have changed. -/
theorem notMem_touched {before after : List ClientFile} {f g : ClientFile}
    (h : Separate (before ++ f :: after)) (hg : g ∈ f :: after) :
    g.name ∉ touched before ++ [draftPath f.name] := by
  have nodup := h.nodup
  rw [touched_append, List.nodup_append] at nodup
  obtain ⟨-, later, disjoint⟩ := nodup
  have later : Separate (f :: after) :=
    ⟨later, fun name hname =>
      h.names name (touched_append before _ ▸ List.mem_append_right _ hname)⟩
  have hname : g.name ∈ touched (f :: after) := List.mem_flatMap.mpr ⟨g, hg, by simp⟩
  rw [List.mem_append, List.mem_singleton, not_or]
  refine ⟨fun hbefore => disjoint _ hbefore _ hname rfl, fun hdraft => ?_⟩
  rcases List.mem_cons.mp hg with rfl | hg
  · have := (List.nodup_cons.mp (touched_cons g after ▸ later.nodup)).1
    exact this (hdraft ▸ List.mem_cons_self)
  · exact later.notMem.2 (hdraft ▸ List.mem_flatMap.mpr ⟨g, hg, by simp⟩)

theorem interrupted_of_error (laws : fs.Tracks disk) (separate : Separate files)
    {directory : DiskPath} (hs : (fs.writeFiles directory files).run s = (.error e, s')) :
    Interrupted directory files e (disk s) (disk s') := by
  obtain ⟨before, f, after, rfl, named, confined, holds⟩ := laws.writeFiles_error separate hs
  refine ⟨before, f, after, rfl, named, holds, fun g hg l => ?_, fun x content hx others => ?_⟩
  · rcases confined.entries (g.name :: l) with same | made | ⟨name, hname, l', -, hx⟩
    · exact .inl same
    · exact .inr made
    · rw [List.cons.injEq] at hx
      exact absurd (hx.1 ▸ hname) (notMem_touched separate hg)
  · refine confined.file hx fun name hname => others name ?_
    rw [touched_append, touched_cons]
    rcases List.mem_append.mp hname with hname | hname
    · exact List.mem_append_left _ hname
    · exact List.mem_append_right _ (by simp [List.mem_singleton.mp hname])

end

example : Options.ending ⟨"s.graphql", "out", .inline, false, false, 0⟩ Disk.unreliable
    ([none, some ⟨.other "Permission denied (os error 13)", none⟩],
      ⟨[(["home"], .directory), (["s.graphql", "home"], .file [])], ["home"]⟩) =
    (.refused (.schemaRead "s.graphql" "Permission denied (os error 13)"), [],
      ⟨[(["home"], .directory), (["s.graphql", "home"], .file [])], ["home"]⟩) := by
  rfl

/-- A home with a schema and with a directory in the place of a draft. -/
def obstructed : Disk where
  entries := [(["home"], .directory),
    (["s.graphql", "home"], .file (encodeUtf8 "type A{id:ID}".toList)),
    (["mod.tmp", "home"], .directory)]
  home := ["home"]

/-- The way to the output directory leads through the name of an output file. -/
def roundabout : Options where
  schema := "s.graphql"
  output := "types.rs/.."
  style := .inline
  dryRun := false
  dumpModel := false
  verbosity := 0

theorem writeIfChanged_roundabout (content : String) :
    (Disk.unreliable.writeIfChanged (join "types.rs/.." "mod.rs") content).run ([], obstructed) =
      (.error (.write "types.rs/../mod.tmp" FileError.isDirectory.message), [],
        obstructed.set ["types.rs", "home"] .directory) := by
  have same : Disk.unreliable.hasContent (join "types.rs/.." "mod.rs") content ([], obstructed) =
      (false, [], obstructed) := rfl
  rw [run_writeIfChanged, same]
  refine run_bind_eq_error.mpr (.inl ?_)
  have parent : (Disk.unreliable.makeParent (join "types.rs/.." "mod.rs")).run ([], obstructed) =
      (.ok (), [], obstructed.set ["types.rs", "home"] .directory) := rfl
  exact run_bind_eq_error.mpr (.inr ⟨(), _, parent, rfl⟩)

end SchemaClient
