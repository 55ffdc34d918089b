import SchemaClient.Proofs.Files.Paths
import SchemaClient.Proofs.Outcomes

/-!
# Where paths lead

A path is followed name by name from the root or from the working directory. The path of a name in
a directory leads to this name in the place that the path of the directory leads to.
-/

namespace SchemaClient

open DiskPath

namespace Disk

variable {d d' : Disk} {p directory : DiskPath} {name name' : String} {l l' x : Location}
  {c : List Char} {e : Entry}

/-- Where a path starts. -/
def start (d : Disk) (p : DiskPath) : Location :=
  if isAbsolute p then [] else d.home

/-- The location of the directory that a path leads to. -/
def follow (d : Disk) (p : DiskPath) : Except FileError Location :=
  (components p).foldlM d.descend (d.start p)

theorem start_join (d : Disk) (directory : DiskPath) (h : IsFileName name) :
    d.start (join directory name) = d.start directory := by
  rw [start, start, isAbsolute_join directory h]

theorem usable_of_place {q : Place} (h : d.place p = .ok q) : Usable p := by
  simp only [place, bind, Except.bind, pure, Except.pure, throw, throwThe,
    MonadExceptOf.throw] at h
  split at h
  · cases h
  · split at h
    · cases h
    · split at h
      · cases h
      · rename_i nul nonempty short
        exact ⟨by simpa using nonempty, by simpa using nul, Nat.lt_of_not_le short⟩

theorem place_nil (h : Usable p) (hp : components p = []) :
    d.place p = .ok (.directory (d.start p)) := by
  rw [components] at hp
  simp only [place, bind, Except.bind, pure, Except.pure, hp]
  rw [if_neg (by simpa using h.nul), if_neg (by simpa using h.nonempty),
    if_neg (Nat.not_le_of_lt h.short)]
  rfl

/-- The last component decides whether a path leads to a directory or to a name in one. -/
theorem place_concat (h : Usable p) {cs : List (List Char)} (hp : components p = cs ++ [c]) :
    d.place p = (do
      let l ← cs.foldlM d.descend (d.start p)
      if isName c then pure (.child l (← named c) (p.toList.getLast? = some '/'))
      else (d.descend l c).map .directory) := by
  rw [components] at hp
  simp only [place, bind, Except.bind, pure, Except.pure, hp]
  rw [if_neg (by simpa using h.nul), if_neg (by simpa using h.nonempty),
    if_neg (Nat.not_le_of_lt h.short)]
  simp only [List.reverse_append, List.reverse_singleton, List.singleton_append,
    List.reverse_reverse, start]

theorem named_name (h : IsFileName name) : named name.toList = .ok name := by
  rw [named, String.ofList_toList]
  exact if_pos h.short

theorem named_eq_ok (h : named c = .ok name) :
    c = name.toList ∧ name.utf8ByteSize ≤ maxName := by
  rw [named] at h
  split at h
  · rename_i short
    cases h
    exact ⟨String.toList_ofList.symm, short⟩
  · cases h

/-- A path that leads to a name in a directory ends in this name. -/
theorem place_eq_child {slash : Bool} (h : d.place p = .ok (.child l name slash)) :
    ∃ cs, components p = cs ++ [name.toList] ∧ IsFileName name ∧
      cs.foldlM d.descend (d.start p) = .ok l := by
  have usable := usable_of_place h
  cases hlast : (components p).getLast? with
  | none =>
    rw [place_nil usable (List.getLast?_eq_none_iff.mp hlast)] at h
    cases h
  | some c =>
    obtain ⟨cs, hp⟩ := List.getLast?_eq_some_iff.mp hlast
    rw [place_concat usable hp] at h
    obtain ⟨l₁, hl, h⟩ := bind_eq_ok_iff.mp h
    split at h
    · rename_i hname
      obtain ⟨name₁, hnamed, h⟩ := bind_eq_ok_iff.mp h
      cases h
      obtain ⟨rfl, short⟩ := named_eq_ok hnamed
      refine ⟨cs, hp, ?_, hl⟩
      have hc : name.toList ∈ components p :=
        hp ▸ List.mem_append_right cs List.mem_cons_self
      have isFileName := isFileName_ofList usable hc hname
      rw [String.ofList_toList] at isFileName
      exact isFileName short
    · obtain ⟨_, -, ⟨⟩⟩ := map_eq_ok_iff.mp h

theorem place_join_eq_ok_iff (h : IsFileName name) {q : Place} :
    d.place (join directory name) = .ok q ↔
      Usable (join directory name) ∧ ∃ l, d.follow directory = .ok l ∧ q = .child l name false := by
  have eq (usable : Usable (join directory name)) : d.place (join directory name) =
      (d.follow directory).map (.child · name false) := by
    rw [place_concat usable (components_join directory h), start_join d directory h, follow]
    simp only [if_pos h.isName, named_name h, getLast?_join directory h, decide_false]
    cases (components directory).foldlM d.descend (d.start directory) with
    | error e => rfl
    | ok l => rfl
  constructor
  · intro hq
    have usable := usable_of_place hq
    refine ⟨usable, ?_⟩
    rw [eq usable] at hq
    obtain ⟨l, hl, rfl⟩ := map_eq_ok_iff.mp hq
    exact ⟨l, hl, rfl⟩
  · rintro ⟨usable, l, hl, rfl⟩
    rw [eq usable, hl]
    rfl

/-- An operation on a name in a directory finds the directory before it does anything else. -/
theorem bind_place_join_eq_ok_iff {α : Type} {a : α} (h : IsFileName name)
    {f : Place → Except FileError α} : (d.place (join directory name) >>= f) = .ok a ↔
      Usable (join directory name) ∧
        ∃ l, d.follow directory = .ok l ∧ f (.child l name false) = .ok a := by
  rw [bind_eq_ok_iff]
  constructor
  · rintro ⟨q, hq, ha⟩
    obtain ⟨usable, l, hl, rfl⟩ := (place_join_eq_ok_iff h).mp hq
    exact ⟨usable, l, hl, ha⟩
  · rintro ⟨usable, l, hl, ha⟩
    exact ⟨_, (place_join_eq_ok_iff h).mpr ⟨usable, l, hl, rfl⟩, ha⟩

theorem find_join_eq_ok_iff (h : IsFileName name) :
    d.find (join directory name) = .ok e ↔ Usable (join directory name) ∧
      ∃ l, d.follow directory = .ok l ∧ d.entry? (name :: l) = some e := by
  rw [find, bind_place_join_eq_ok_iff h]
  refine and_congr_right fun _ => exists_congr fun l => and_congr_right fun _ => ?_
  dsimp only
  cases d.entry? (name :: l) with
  | none => simp [throw, throwThe, MonadExceptOf.throw]
  | some found =>
    cases found with
    | file content => simp [pure, Except.pure]
    | directory => simp [pure, Except.pure]

theorem descend_of_named (h : named c = .ok name) (l : Location) :
    d.descend l c = d.descend l name.toList := by
  rw [(named_eq_ok h).1]

theorem descend_of_not_named {e : FileError} (hname : isName c = true) (h : named c = .error e)
    (l : Location) : d.descend l c = .error e := by
  simp only [isName, Bool.and_eq_true, decide_eq_true_eq] at hname
  rw [descend, if_neg hname.1, if_neg hname.2, h]
  rfl

/-- A directory is listed at the place that its path leads to. -/
theorem directoryAt_eq (h : Usable directory) : d.directoryAt directory = d.follow directory := by
  rw [directoryAt, follow]
  cases hlast : (components directory).getLast? with
  | none =>
    have hp := List.getLast?_eq_none_iff.mp hlast
    rw [place_nil h hp, hp]
    rfl
  | some c =>
    obtain ⟨cs, hp⟩ := List.getLast?_eq_some_iff.mp hlast
    rw [place_concat h hp, hp, List.foldlM_append]
    cases cs.foldlM d.descend (d.start directory) with
    | error e => rfl
    | ok l =>
      simp only [bind, Except.bind, List.foldlM_cons, List.foldlM_nil, pure, Except.pure]
      by_cases hname : isName c = true
      · rw [if_pos hname]
        cases hnamed : named c with
        | error e => rw [descend_of_not_named hname hnamed]
        | ok name =>
          simp only [descend_of_named hnamed]
          cases d.descend l name.toList with
          | error e => rfl
          | ok l => rfl
      · rw [if_neg hname]
        cases d.descend l c with
        | error e => rfl
        | ok l => rfl

end Disk

end SchemaClient
