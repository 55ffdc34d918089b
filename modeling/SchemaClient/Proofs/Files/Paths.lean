import Mathlib.Data.List.TakeDrop
import Mathlib.Data.List.TakeWhile
import SchemaClient.Files.Disk

/-!
# The text of paths

The path of a name in a directory is followed like the path of the directory and ends in the name.
Its parents are paths that the path of the directory begins with, and its extension is that of the
name.
-/

namespace SchemaClient

namespace DiskPath

/-- A name that a file can have in a directory. -/
structure IsFileName (name : String) : Prop where
  nonempty : name.toList ≠ []
  slash : '/' ∉ name.toList
  nul : '\x00' ∉ name.toList
  isName : isName name.toList = true
  short : name.utf8ByteSize ≤ Disk.maxName

instance (name : String) : Decidable (IsFileName name) :=
  decidable_of_iff
    (name.toList ≠ [] ∧ '/' ∉ name.toList ∧ '\x00' ∉ name.toList ∧
      DiskPath.isName name.toList = true ∧ name.utf8ByteSize ≤ Disk.maxName)
    ⟨fun ⟨nonempty, slash, nul, isName, short⟩ => ⟨nonempty, slash, nul, isName, short⟩,
      fun h => ⟨h.nonempty, h.slash, h.nul, h.isName, h.short⟩⟩

/-- A path that can be followed at all. -/
structure Usable (p : DiskPath) : Prop where
  nonempty : p.toList ≠ []
  nul : '\x00' ∉ p.toList
  short : p.utf8ByteSize < Disk.pathLimit

/-- The names and dots that a path is followed by. -/
def components (p : DiskPath) : List (List Char) :=
  (p.toList.splitOn '/').filter (!·.isEmpty)

/-- What a joined path has in front of the name. -/
def front (directory : DiskPath) : List Char :=
  match directory.toList.getLast? with
  | none => []
  | some c => if c = '/' then directory.toList else directory.toList ++ ['/']

/-- The pieces that a joined path has in front of the name. -/
def piecesAbove (directory : DiskPath) : List (List Char) :=
  ((front directory).splitOn '/').dropLast

variable {directory p : DiskPath} {name name' : String}

theorem toList_join (directory : DiskPath) (name : String) :
    (join directory name).toList = front directory ++ name.toList := by
  rw [join, front]
  cases directory.toList.getLast? with
  | none => rfl
  | some c =>
    simp only
    split
    · rw [String.toList_append]
    · simp

theorem front_cases (directory : DiskPath) :
    (directory.toList = [] ∧ front directory = []) ∨
      ∃ cs, front directory = cs ++ ['/'] ∧
        (directory.toList = cs ∧ cs ≠ [] ∨ directory.toList = cs ++ ['/']) := by
  rw [front]
  split
  · rename_i h
    exact .inl ⟨List.getLast?_eq_none_iff.mp h, rfl⟩
  · rename_i c h
    obtain ⟨cs, hcs⟩ := List.getLast?_eq_some_iff.mp h
    right
    split
    · rename_i hc
      exact ⟨cs, by rw [hcs, hc], .inr (by rw [hcs, hc])⟩
    · exact ⟨directory.toList, rfl, .inl ⟨rfl, by simp [hcs]⟩⟩

theorem splitOn_front (directory : DiskPath) {cs : List Char} (h : '/' ∉ cs) :
    (front directory ++ cs).splitOn '/' = piecesAbove directory ++ [cs] := by
  rw [piecesAbove]
  rcases front_cases directory with ⟨-, hfront⟩ | ⟨above, hfront, -⟩
  · rw [hfront, List.nil_append, List.splitOn_eq_singleton h]
    rfl
  · rw [hfront, List.append_assoc, List.singleton_append, List.splitOn_append_cons_self,
      List.splitOn_append_cons_self, List.splitOn_eq_singleton h]
    simp

theorem splitOn_join (directory : DiskPath) (h : '/' ∉ name.toList) :
    (join directory name).toList.splitOn '/' = piecesAbove directory ++ [name.toList] := by
  rw [toList_join, splitOn_front directory h]

theorem components_eq (directory : DiskPath) :
    components directory = (piecesAbove directory).filter (!·.isEmpty) := by
  rw [components, piecesAbove]
  rcases front_cases directory with ⟨hd, hfront⟩ | ⟨cs, hfront, ⟨hd, -⟩ | hd⟩
  · rw [hd, hfront]
    rfl
  · rw [hd, hfront, List.splitOn_append_cons_self]
    simp
  · rw [hd, hfront, List.splitOn_append_cons_self]
    simp

theorem components_join (directory : DiskPath) (h : IsFileName name) :
    components (join directory name) = components directory ++ [name.toList] := by
  rw [components, splitOn_join directory h.slash, List.filter_append, components_eq]
  congr 1
  exact List.filter_eq_self.mpr (by simp [h.nonempty])

theorem isAbsolute_join (directory : DiskPath) (h : IsFileName name) :
    isAbsolute (join directory name) = isAbsolute directory := by
  obtain ⟨c, cs, hname⟩ := List.exists_cons_of_ne_nil h.nonempty
  have hc : c ≠ '/' := by
    rintro rfl
    exact h.slash (hname ▸ List.mem_cons_self)
  rw [isAbsolute, isAbsolute, toList_join]
  rcases front_cases directory with ⟨hd, hfront⟩ | ⟨front, hfront, ⟨hd, hne⟩ | hd⟩
  · simp [hd, hfront, hname, hc]
  · obtain ⟨d, ds, rfl⟩ := List.exists_cons_of_ne_nil hne
    simp [hd, hfront]
  · simp [hd, hfront, List.head?_append]

theorem getLast?_join (directory : DiskPath) (h : IsFileName name) :
    (join directory name).toList.getLast? ≠ some '/' := by
  rw [toList_join, List.getLast?_append, List.getLast?_eq_some_getLast h.nonempty,
    Option.some_or, ← List.getLast?_eq_some_getLast h.nonempty]
  intro hlast
  exact h.slash (List.mem_of_getLast? hlast)

theorem join_injective (directory : DiskPath) : Function.Injective (join directory) := by
  intro name name' h
  rw [← String.toList_inj, toList_join, toList_join] at h
  exact String.toList_inj.mp (List.append_cancel_left h)

/-! ### Parents -/

/-- A path that a path begins with. -/
structure Leads (q p : DiskPath) : Prop where
  components : components q <+: components p
  isAbsolute : isAbsolute q = isAbsolute p

theorem Leads.trans {q r : DiskPath} (h : Leads r q) (h' : Leads q p) : Leads r p :=
  ⟨h.components.trans h'.components, h.isAbsolute.trans h'.isAbsolute⟩

/-- The pieces have no slashes, and no other characters than the whole. -/
theorem of_mem_splitOn (cs : List Char) :
    ∀ piece ∈ cs.splitOn '/', '/' ∉ piece ∧ ∀ c ∈ piece, c ∈ cs := by
  induction cs with
  | nil => simp
  | cons c cs ih =>
    have later : ∀ piece ∈ cs.splitOn '/', '/' ∉ piece ∧ ∀ c' ∈ piece, c' ∈ c :: cs :=
      fun piece hpiece => ⟨(ih piece hpiece).1,
        fun c' hc' => List.mem_cons_of_mem c ((ih piece hpiece).2 c' hc')⟩
    rw [List.splitOn_cons_eq_if_modifyHead]
    split
    · exact List.forall_mem_cons.mpr ⟨by simp, later⟩
    · rename_i hc
      obtain ⟨piece, pieces, hpieces⟩ := List.exists_cons_of_ne_nil (List.splitOn_ne_nil '/' cs)
      rw [hpieces, List.forall_mem_cons] at later
      rw [hpieces, List.modifyHead_cons, List.forall_mem_cons, List.mem_cons, not_or,
        List.forall_mem_cons]
      exact ⟨⟨⟨fun h => hc (by simp [← h]), later.1.1⟩, List.mem_cons_self, later.1.2⟩, later.2⟩

theorem isFileName_ofList {c : List Char} (h : Usable p) (hc : c ∈ components p)
    (hname : isName c = true) (short : (String.ofList c).utf8ByteSize ≤ Disk.maxName) :
    IsFileName (String.ofList c) := by
  obtain ⟨hpiece, nonempty⟩ := List.mem_filter.mp hc
  obtain ⟨slash, chars⟩ := of_mem_splitOn p.toList c hpiece
  refine ⟨?_, ?_, ?_, ?_, short⟩ <;> rw [String.toList_ofList]
  · simpa using nonempty
  · exact slash
  · exact fun hnul => h.nul (chars _ hnul)
  · exact hname

/-- The first piece of an absolute path is empty, and there are more. -/
theorem isAbsolute_iff : isAbsolute p = true ↔
    ∃ piece pieces, p.toList.splitOn '/' = [] :: piece :: pieces := by
  rw [isAbsolute, decide_eq_true_eq]
  cases p.toList with
  | nil => simp
  | cons c cs =>
    obtain ⟨piece, pieces, hpieces⟩ := List.exists_cons_of_ne_nil (List.splitOn_ne_nil '/' cs)
    rw [List.splitOn_cons_eq_if_modifyHead, hpieces]
    by_cases hc : c = '/'
    · simp [hc]
    · simp [hc]

theorem withoutTrailing_prefix (pieces : List (List Char)) : withoutTrailing pieces <+: pieces := by
  cases pieces with
  | nil => exact List.prefix_rfl
  | cons first rest =>
    rw [withoutTrailing, List.cons_prefix_cons]
    refine ⟨rfl, ?_⟩
    rw [← List.reverse_suffix, List.reverse_reverse]
    exact List.dropWhile_suffix _

theorem splitLast?_eq_some {above : List (List Char)} {last : List Char}
    (h : splitLast? p = some (above, last)) :
    last ≠ [] ∧ above ++ [last] <+: p.toList.splitOn '/' := by
  rw [splitLast?] at h
  split at h
  · cases h
  · rename_i above' hpieces
    split at h
    · cases h
    · rename_i nonempty
      cases h
      refine ⟨by simpa using nonempty, ?_⟩
      have pieces : withoutTrailing (p.toList.splitOn '/') = above'.reverse ++ [last] := by
        rw [← List.reverse_reverse (withoutTrailing _), hpieces, List.reverse_cons]
      rw [← pieces]
      exact withoutTrailing_prefix _

theorem splitOn_ofList_intercalate {pieces : List (List Char)} (hne : pieces ≠ [])
    (h : ∀ piece ∈ pieces, '/' ∉ piece) :
    (String.ofList (['/'].intercalate pieces)).toList.splitOn '/' = pieces := by
  rw [String.toList_ofList, List.splitOn_intercalate '/' h hne]

/-- The empty piece in front of a root is above the last component. -/
theorem isAbsolute_iff_above {above : List (List Char)} {last : List Char}
    (hlast : splitLast? p = some (above, last)) :
    isAbsolute p = true ↔ ∃ pieces, above = [] :: pieces := by
  obtain ⟨nonempty, trailing, htrailing⟩ := splitLast?_eq_some hlast
  rw [isAbsolute_iff, ← htrailing]
  cases above with
  | nil => simp [nonempty]
  | cons first rest => cases rest <;> simp

/-- A parent keeps the beginning of the pieces above the last component. -/
theorem parent_leads {q : DiskPath} {above : List (List Char)} {last : List Char}
    (hlast : splitLast? p = some (above, last)) (h : parent? p = some q) :
    components q <+: above.filter (!·.isEmpty) ∧ isAbsolute q = isAbsolute p := by
  obtain ⟨-, hinit⟩ := splitLast?_eq_some hlast
  have slashes : ∀ piece ∈ above, '/' ∉ piece := fun piece hpiece =>
    (of_mem_splitOn p.toList piece (hinit.subset (List.mem_append_left _ hpiece))).1
  rw [parent?, hlast, Option.map_some, Option.some.injEq] at h
  dsimp only at h
  have absolute := isAbsolute_iff_above hlast
  have beginning := withoutTrailing_prefix above
  split at h
  · rename_i root
    subst h
    refine ⟨List.nil_prefix, ?_⟩
    obtain ⟨pieces, hpieces⟩ := beginning
    rw [root] at hpieces
    exact (absolute.mpr ⟨pieces, hpieces.symm⟩).symm
  · rename_i notRoot
    subst h
    by_cases hempty : withoutTrailing above = []
    · have : above = [] := by
        cases above with
        | nil => rfl
        | cons first rest => cases hempty
      rw [hempty, this]
      refine ⟨List.prefix_rfl, ?_⟩
      rw [Bool.eq_iff_iff, absolute, this]
      simp [isAbsolute]
    · have hsplit := splitOn_ofList_intercalate hempty fun piece hpiece =>
        slashes piece (beginning.subset hpiece)
      constructor
      · rw [components, hsplit]
        exact beginning.filter _
      · rw [Bool.eq_iff_iff, absolute, isAbsolute_iff, hsplit]
        obtain ⟨first, rest, hpieces⟩ := List.exists_cons_of_ne_nil hempty
        obtain ⟨behind, hbehind⟩ := beginning
        rw [hpieces] at notRoot hbehind ⊢
        rw [← hbehind]
        cases rest with
        | nil =>
          have : first ≠ [] := fun h => notRoot (h ▸ rfl)
          simp [this]
        | cons second rest => simp

theorem leads_of_mem_chainWithin {q : DiskPath} {steps : Nat} (h : q ∈ chainWithin steps p) :
    Leads q p := by
  induction steps generalizing p with
  | zero => cases h
  | succ steps ih =>
    rw [chainWithin] at h
    split at h
    · cases h
    · rename_i above habove
      rcases List.mem_cons.mp h with rfl | h
      · exact ⟨List.prefix_rfl, rfl⟩
      · refine (ih h).trans ?_
        have hlast := habove
        rw [parent?, Option.map_eq_some_iff] at hlast
        obtain ⟨⟨pieces, last⟩, hlast, -⟩ := hlast
        obtain ⟨components, isAbsolute⟩ := parent_leads hlast habove
        refine ⟨components.trans ?_, isAbsolute⟩
        have := (splitLast?_eq_some hlast).2
        rw [DiskPath.components]
        exact ((List.prefix_append pieces [last]).trans this).filter _

theorem splitLast?_join (directory : DiskPath) (h : IsFileName name) :
    splitLast? (join directory name) = some (piecesAbove directory, name.toList) := by
  have solid : isEmptyOrDot name.toList = false := by
    have dot := h.isName
    simp only [DiskPath.isName, Bool.and_eq_true, decide_eq_true_eq] at dot
    simp [isEmptyOrDot, h.nonempty, dot.1]
  have whole : withoutTrailing (piecesAbove directory ++ [name.toList]) =
      piecesAbove directory ++ [name.toList] := by
    cases piecesAbove directory with
    | nil => rfl
    | cons first rest => simp [withoutTrailing, solid]
  rw [splitLast?, splitOn_join directory h.slash, whole, List.reverse_append]
  simp [h.nonempty]

/-- The directories made for a file lie on the way to its directory. -/
theorem leads_of_mem_chain_join {q above : DiskPath} (h : IsFileName name)
    (habove : parent? (join directory name) = some above) (hq : q ∈ chain above) :
    Leads q directory := by
  obtain ⟨components, isAbsolute⟩ := parent_leads (splitLast?_join directory h) habove
  rw [← components_eq] at components
  exact (leads_of_mem_chainWithin hq).trans
    ⟨components, isAbsolute.trans (isAbsolute_join directory h)⟩

/-! ### Extensions -/

theorem splitExtension?_eq_some_iff {cs stem extension : List Char} :
    splitExtension? cs = some (stem, extension) ↔
      cs = stem ++ '.' :: extension ∧ stem ≠ [] ∧ '.' ∉ extension := by
  rw [splitExtension?, List.span_eq_takeWhile_dropWhile]
  constructor
  · intro h
    have split := List.takeWhile_append_dropWhile (p := fun c => decide (c ≠ '.'))
      (l := cs.reverse)
    have undotted : '.' ∉ cs.reverse.takeWhile (· ≠ '.') := fun hdot => by
      simpa using List.mem_takeWhile_imp hdot
    cases hrest : cs.reverse.dropWhile (· ≠ '.') with
    | nil =>
      rw [hrest] at h
      cases h
    | cons dot rest =>
      have hdot : dot = '.' := by
        have := List.head?_dropWhile_not (fun c => decide (c ≠ '.')) cs.reverse
        rw [hrest] at this
        simpa using this
      rw [hrest] at h split
      simp only at h
      split at h
      · cases h
      · rename_i nonempty
        cases h
        refine ⟨?_, by simpa using nonempty, by simpa using undotted⟩
        have whole := congrArg List.reverse split
        simpa [hdot] using whole.symm
  · rintro ⟨rfl, nonempty, undotted⟩
    have run : ∀ c ∈ extension.reverse, decide (c ≠ '.') = true := fun c hc => by
      rw [decide_eq_true_eq]
      rintro rfl
      exact undotted (List.mem_reverse.mp hc)
    rw [List.reverse_append, List.reverse_cons, List.append_assoc,
      List.takeWhile_append_of_pos run, List.dropWhile_append_of_pos run]
    simp [nonempty]

/-- The name with another extension, which is that of the whole path. -/
theorem withExtension_join (directory : DiskPath) (h : IsFileName name) {extension : String}
    (slash : '/' ∉ extension.toList) :
    withExtension (join directory name) extension =
      join directory (withExtension name extension) := by
  have stem_slash : ∀ stem ending, splitExtension? name.toList = some (stem, ending) →
      '/' ∉ stem := by
    intro stem ending hstem hslash
    rw [splitExtension?_eq_some_iff] at hstem
    exact h.slash (hstem.1 ▸ List.mem_append_left _ hslash)
  obtain ⟨cs, hcs, eq⟩ : ∃ cs, '/' ∉ cs ∧
      ∀ directory, withExtension (join directory name) extension =
        String.ofList (['/'].intercalate (piecesAbove directory ++ [cs])) := by
    simp only [withExtension, splitName?, splitLast?_join _ h, h.isName]
    refine ⟨_, ?_, fun _ => rfl⟩
    split
    · rename_i stem ending hstem
      simp [slash, stem_slash stem ending hstem]
    · simp [slash, h.slash]
  have alone : withExtension name extension = String.ofList cs := by
    have := eq ""
    simpa [join, piecesAbove, front] using this
  rw [eq, alone, ← String.toList_inj, toList_join, String.toList_ofList, String.toList_ofList,
    ← splitOn_front directory hcs, List.intercalate_splitOn]

theorem extension?_join (directory : DiskPath) (h : IsFileName name) :
    extension? (join directory name) =
      (splitExtension? name.toList).map fun (_, extension) => String.ofList extension := by
  rw [extension?, splitName?, splitLast?_join directory h]
  simp [h.isName]

/-! ### Directories of joined paths -/

theorem mem_of_mem_directory {c : Char} (h : c ∈ directory.toList) :
    c ∈ (join directory name).toList := by
  rw [toList_join]
  rcases front_cases directory with ⟨hd, -⟩ | ⟨front, hfront, ⟨hd, -⟩ | hd⟩
  · rw [hd] at h
    cases h
  · rw [hfront]
    exact List.mem_append_left _ (List.mem_append_left _ (hd ▸ h))
  · rw [hfront]
    exact List.mem_append_left _ (hd ▸ h)

theorem utf8ByteSize_le_join (directory : DiskPath) (name : String) :
    directory.utf8ByteSize ≤ (join directory name).utf8ByteSize := by
  rw [join]
  split
  · rename_i h
    rw [List.getLast?_eq_none_iff] at h
    rw [String.toList_eq_nil_iff.mp h]
    exact Nat.zero_le _
  · split
    · rw [String.utf8ByteSize_append]
      exact Nat.le_add_right _ _
    · rw [String.utf8ByteSize_append, String.utf8ByteSize_append, Nat.add_assoc]
      exact Nat.le_add_right _ _

theorem Usable.of_join (h : Usable (join directory name)) (nonempty : directory ≠ "") :
    Usable directory where
  nonempty := by simpa using nonempty
  nul hnul := h.nul (mem_of_mem_directory hnul)
  short := Nat.lt_of_le_of_lt (utf8ByteSize_le_join directory name) h.short

end DiskPath

end SchemaClient
