import Mathlib.Data.List.Forall2
import SchemaClient.Exchange.Upload
import SchemaClient.Proofs.Exchange.MapPaths
import SchemaClient.Proofs.Outcomes

/-!
# The parts of an upload form

A form numbers its files, and its map gives each number one path. The value at this path in the
request body is to be `null`, which is so for plain paths. Without variables the body has nothing
but objects with names, so that every other path leads to an object or to nothing.
-/

namespace SchemaClient.UploadForm

open Variables

variable {paths : List String} {uploads : List (String × Upload)} {document : String}

/-! ## The body -/

theorem emptied_eq_foldl (vs : Dictionary Json) (paths : List String) :
    emptied vs paths = (paths.map rooted).foldl nullAt vs :=
  List.foldl_map.symm

theorem skeleton_emptied (paths : List String) : Skeleton (.obj (emptied [] paths)) := by
  suffices ∀ vs, Skeleton (.obj vs) → Skeleton (.obj (emptied vs paths)) from this [] .empty
  induction paths with
  | nil => exact fun _ h => h
  | cons p paths ih => exact fun _ h => ih _ h.nullAt

theorem settled_of_plain (plain : ∀ p ∈ paths, Plain p)
    (apart : paths.Pairwise fun p q => Apart (dotted (rooted p)) (dotted (rooted q)))
    (vs : Dictionary Json) :
    ∀ p ∈ paths, Settled (dotted (rooted p)) (requestBody document (emptied vs paths)) := by
  have below : (paths.map rooted).Pairwise fun p q => Apart (segments p) (segments q) := by
    rw [List.pairwise_map]
    exact apart.imp_of_mem fun hp hq h => (plain _ hp).apart (plain _ hq) h
  intro p hp
  have settled := settled_foldl_nullAt below (List.mem_map_of_mem hp)
    (plain p hp).dotted_rooted.2 vs
  rwa [(plain p hp).dotted_rooted.1, settled_requestBody, emptied_eq_foldl]

/-- Without variables the value at a path that is not plain is another one, or there is none. -/
theorem plain_of_settled {p : String}
    (h : Settled (dotted (rooted p)) (requestBody document (emptied [] paths))) : Plain p := by
  by_cases hroot : p = rootName
  · subst hroot
    have bare : dotted (rooted rootName) = [rootName] := by decide +kernel
    rw [bare, settled_requestBody] at h
    rcases h with h | h <;> cases h
  · refine ⟨hroot, fun hempty => ?_⟩
    obtain ⟨names, hdotted, -, -⟩ := dotted_rooted hroot
    rw [hdotted] at hempty h
    have below : "" ∈ names := (List.mem_cons.mp hempty).resolve_left (by decide)
    rw [settled_requestBody, Settled, (skeleton_emptied paths).walk below] at h
    rcases h with h | h <;> cases h

/-! ## The map and the files -/

theorem toString_injective {i j : Nat} (h : toString i = toString j) : i = j := by
  have hvalue := congrArg (fun s => Nat.ofDigitChars 10 s.toList 0) h
  simpa using hvalue

theorem uploadMap_perm (paths : List String) : (uploadMap paths).Perm
    (paths.mapIdx fun i path => (toString i, .ofStrings [rooted path])) := by
  refine Dictionary.ofList_perm ?_
  rw [List.mapIdx_eq_zipIdx_map, List.map_map]
  have keys :
      paths.zipIdx.map (Prod.fst ∘ fun (path, i) => (toString i, Json.ofStrings [rooted path])) =
        (List.range' 0 paths.length).map toString := by
    rw [← List.zipIdx_map_snd 0 paths, List.map_map]
    rfl
  rw [keys]
  exact List.Nodup.map (fun i j => toString_injective) List.nodup_range'

/-- A part has the number of an upload as its name, and the file itself. -/
structure Carries (d : Disk) (number : Nat) (u : Upload) (part : FilePart) : Prop where
  name : part.name = toString number
  fileName : part.fileName = u.fileName
  mediaType : part.mediaType = u.mediaType
  valid : MediaType.isValid u.mediaType = true
  content : d.read u.path = .ok part.content

section Files

variable {d d' : Disk} {n : Nat} {u : Upload} {us : List Upload} {part : FilePart}
  {parts : List FilePart}

theorem part_run (d : Disk) (u : Upload) (name : String) : u.part Disk.access name d =
    ((d.read u.path).mapError (fun e => .upload u.path e.message) >>= fun content =>
      if MediaType.isValid u.mediaType then .ok ⟨name, u.fileName, u.mediaType, content⟩
      else .error (.transport .invalidMediaType), d) := by
  simp only [Upload.part, bind, StateT.bind, Disk.access]
  cases d.read u.path with
  | error e => rfl
  | ok content =>
    simp only [Except.mapError, Except.bind]
    split
    · rfl
    · rfl

theorem part_eq_ok_iff :
    u.part Disk.access (toString n) d = (.ok part, d') ↔ Carries d n u part ∧ d' = d := by
  rw [part_run, Prod.mk.injEq, eq_comm (a := d)]
  refine and_congr_left fun _ => ?_
  constructor
  · intro h
    obtain ⟨content, hread, h⟩ := bind_eq_ok_iff.mp h
    rw [mapError_eq_ok_iff] at hread
    split at h
    · rename_i hvalid
      cases h
      exact ⟨rfl, rfl, rfl, hvalid, hread⟩
    · cases h
  · rintro ⟨hname, hfile, htype, hvalid, hcontent⟩
    simp only [hcontent, Except.mapError, bind, Except.bind, if_pos hvalid]
    rw [← hname, ← hfile, ← htype]

theorem parts_cons_run (d : Disk) : Upload.parts Disk.access n (u :: us) d =
    match u.part Disk.access (toString n) d with
    | (.error e, d') => (.error e, d')
    | (.ok p, d') =>
      let (r, d'') := Upload.parts Disk.access (n + 1) us d'
      (r.map (p :: ·), d'') := by
  rw [Upload.parts]
  simp only [bind, StateT.bind]
  rcases u.part Disk.access (toString n) d with ⟨_ | p, d'⟩
  · rfl
  · rfl

theorem parts_eq_ok_iff : Upload.parts Disk.access n us d = (.ok parts, d') ↔
    List.Forall₂ (fun (u, i) part => Carries d i u part) (us.zipIdx n) parts ∧ d' = d := by
  induction us generalizing n parts with
  | nil =>
    rw [List.zipIdx_nil, List.forall₂_nil_left_iff]
    constructor
    · intro h
      cases h
      exact ⟨rfl, rfl⟩
    · rintro ⟨rfl, rfl⟩
      rfl
  | cons u us ih =>
    rw [parts_cons_run, List.zipIdx_cons]
    constructor
    · intro h
      rcases hpart : u.part Disk.access (toString n) d with ⟨_ | p, d₁⟩
      · rw [hpart] at h
        cases h
      · obtain ⟨hp, rfl⟩ := part_eq_ok_iff.mp hpart
        rw [hpart] at h
        rcases hrest : Upload.parts Disk.access (n + 1) us d₁ with ⟨_ | ps, d₂⟩
        · simp only [hrest] at h
          cases h
        · simp only [hrest] at h
          cases h
          have rest := ih.mp hrest
          exact ⟨.cons hp rest.1, rest.2⟩
    · rintro ⟨h, rfl⟩
      cases h with
      | cons hp hrest =>
        rw [part_eq_ok_iff.mpr ⟨hp, rfl⟩]
        simp only [ih.mpr ⟨hrest, rfl⟩]
        rfl

theorem build_eq_ok_iff {vs : Dictionary Json} {form : UploadForm} :
    build Disk.access document vs uploads d = (.ok form, d') ↔
      form = of document vs (uploads.map (·.1)) form.files ∧
      List.Forall₂ (fun (u, i) part => Carries d i u part) (uploads.map (·.2)).zipIdx form.files ∧
      d' = d := by
  have run : build Disk.access document vs uploads d =
      let (r, d') := Upload.parts Disk.access 0 (uploads.map (·.2)) d
      (r.map (of document vs (uploads.map (·.1))), d') := rfl
  rw [run]
  rcases hparts : Upload.parts Disk.access 0 (uploads.map (·.2)) d with ⟨_ | files, d₁⟩
  · rw [hparts]
    constructor
    · intro h
      cases h
    · rintro ⟨-, h⟩
      have := hparts.symm.trans (parts_eq_ok_iff.mpr h)
      cases this
  · rw [hparts]
    constructor
    · intro h
      cases h
      exact ⟨rfl, parts_eq_ok_iff.mp hparts⟩
    · rintro ⟨hform, h⟩
      have same := hparts.symm.trans (parts_eq_ok_iff.mpr h)
      cases same
      rw [hform]
      rfl

end Files

/-! ## Agreement -/

/-- The body has `null` at each path as the map gives it, or a list that the path does not run
into. -/
def Agrees (form : UploadForm) (paths : List String) : Prop :=
  ∀ p ∈ paths, Settled (dotted (rooted p)) form.operations

/-- A form numbers the files and the entries of its map alike. If none of the paths in the map runs
through the place of another, the map agrees with the body, whatever the variables are, exactly if
all paths are plain. -/
theorem agrees_iff_plain
    (apart : uploads.Pairwise fun a b => Apart (dotted (rooted a.1)) (dotted (rooted b.1)))
    (document : String) :
    (∀ vs d form d', build Disk.access document vs uploads d = (.ok form, d') →
      form = of document vs (uploads.map (·.1)) form.files ∧
      List.Forall₂ (fun (u, i) part => Carries d i u part) (uploads.map (·.2)).zipIdx form.files) ∧
    (uploadMap (uploads.map (·.1))).Perm
      ((uploads.map (·.1)).mapIdx fun i path => (toString i, .ofStrings [rooted path])) ∧
    ((∀ vs files, (of document vs (uploads.map (·.1)) files).Agrees (uploads.map (·.1))) ↔
      ∀ u ∈ uploads, Plain u.1) := by
  refine ⟨?_, uploadMap_perm _, ?_⟩
  · intro vs d form d' h
    obtain ⟨hform, hfiles, -⟩ := build_eq_ok_iff.mp h
    exact ⟨hform, hfiles⟩
  · constructor
    · intro agrees u hu
      exact plain_of_settled (agrees [] [] u.1 (List.mem_map_of_mem hu))
    · intro plain vs files
      exact settled_of_plain (List.forall_mem_map.mpr plain) (List.pairwise_map.mpr apart) vs

/-- A file for the bare root: the map gives the variables as a whole, which are never `null`. -/
theorem agrees_iff_plain_root :
    ¬ ∀ vs files, (of "" vs ["variables"] files).Agrees ["variables"] := by
  intro agrees
  have plain := (@agrees_iff_plain [("variables", ⟨"a.txt", "a.txt", "text/plain"⟩)]
    (List.pairwise_singleton _ _) "").2.2.mp agrees
  exact (plain _ List.mem_cons_self).1 rfl

-- Paths with two spellings of one index are not apart, and one of them may undo the other.
example : walk (dotted (rooted "a.1"))
    (of "" [("a", .arr [.null, .null])] ["a.1", "a.01.b"] []).operations =
      .value (.obj [("b", .null)]) := by
  rfl

end SchemaClient.UploadForm
