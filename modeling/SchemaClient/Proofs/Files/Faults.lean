import SchemaClient.Files.Access
import SchemaClient.Proofs.Files.Changes

/-!
# Operations that fail

An operation may fail although the disk would allow it. It then leaves the disk as it is, except
that a write may have got so far that it leaves some content in its file. Queries fail like the
others: nothing is read or listed then, and whether something is there is answered with no. A
program that works through an access to files meets the disk and such faults.
-/

namespace SchemaClient

open Text DiskPath

/-- A failure that the disk is no reason for. -/
structure Fault where
  error : FileError
  /-- What a write leaves in its file, if it gets so far. -/
  remains : Option Bytes := none

namespace Disk

/-- Answers a query, or fails with the next fault of the list if there is one in this place. -/
def ask {α : Type} (query : Disk → α) (failed : FileError → α) :
    StateM (List (Option Fault) × Disk) α :=
  fun (faults, d) =>
    match faults.head?.join with
    | some fault => (failed fault.error, faults.tail, d)
    | none => (query d, faults.tail, d)

/-- Runs an operation that changes the disk, or fails with the next fault of the list if there is
one in this place. -/
def attempt (operation : Disk → Except FileError Disk) (broken : Fault → Disk → Disk) :
    StateM (List (Option Fault) × Disk) (Except FileError Unit) :=
  fun (faults, d) =>
    match faults.head?.join with
    | some fault => (.error fault.error, faults.tail, broken fault d)
    | none =>
      match operation d with
      | .ok d' => (.ok (), faults.tail, d')
      | .error e => (.error e, faults.tail, d)

/-- A disk on which each operation may fail: the operations take an entry of the list each, and
none fails without reason behind the end of the list. -/
def unreliable : FileAccess (StateM (List (Option Fault) × Disk)) where
  isFile p := ask (·.isFile p) fun _ => false
  isDirectory p := ask (·.isDirectory p) fun _ => false
  read p := ask (·.read p) .error
  write p content := attempt (·.write p content) fun fault d =>
    (fault.remains.bind fun remains => (d.write p remains).toOption).getD d
  makeDirectory p := attempt (·.makeDirectory p) fun _ d => d
  rename source target := attempt (·.rename source target) fun _ d => d
  remove p := attempt (·.remove p) fun _ d => d
  names p := ask (·.names p) .error

end Disk

/-- Access to the disk in a state. A query leaves it as it is, and what is read from a file is
there. Another operation changes it as the disk has it or fails, and then leaves it as it is but for
the remains of a write. -/
structure FileAccess.Tracks {σ : Type} (fs : FileAccess (StateM σ)) (disk : σ → Disk) : Prop where
  isFile : ∀ p s, disk (fs.isFile p s).2 = disk s
  isDirectory : ∀ p s, disk (fs.isDirectory p s).2 = disk s
  read : ∀ p s, disk (fs.read p s).2 = disk s
  names : ∀ p s, disk (fs.names p s).2 = disk s
  read_ok : ∀ {p content s s'}, fs.read p s = (.ok content, s') → (disk s).read p = .ok content
  write : ∀ {p content s s'}, fs.write p content s = (.ok (), s') →
    (disk s).write p content = .ok (disk s')
  makeDirectory : ∀ {p s s'}, fs.makeDirectory p s = (.ok (), s') →
    (disk s).makeDirectory p = .ok (disk s')
  rename : ∀ {p q s s'}, fs.rename p q s = (.ok (), s') →
    (disk s).rename p q = .ok (disk s')
  remove : ∀ {p s s'}, fs.remove p s = (.ok (), s') → (disk s).remove p = .ok (disk s')
  write_error : ∀ {p content e s s'}, fs.write p content s = (.error e, s') →
    disk s' = disk s ∨ ∃ remains, (disk s).write p remains = .ok (disk s')
  makeDirectory_error : ∀ {p e s s'}, fs.makeDirectory p s = (.error e, s') → disk s' = disk s
  rename_error : ∀ {p q e s s'}, fs.rename p q s = (.error e, s') → disk s' = disk s
  remove_error : ∀ {p e s s'}, fs.remove p s = (.error e, s') → disk s' = disk s

/-- Access whose queries never fail and see the disk as it is. -/
structure FileAccess.Reveals {σ : Type} (fs : FileAccess (StateM σ)) (disk : σ → Disk) : Prop
    extends FileAccess.Tracks fs disk where
  isFile_eq : ∀ p s, fs.isFile p s = ((disk s).isFile p, s)
  isDirectory_eq : ∀ p s, fs.isDirectory p s = ((disk s).isDirectory p, s)
  read_eq : ∀ p s, fs.read p s = ((disk s).read p, s)
  names_eq : ∀ p s, fs.names p s = ((disk s).names p, s)

namespace Disk

theorem change_eq_ok (operation : Disk → Except FileError Disk) {d d' : Disk}
    (h : change operation d = (.ok (), d')) : operation d = .ok d' := by
  rw [change] at h
  split at h
  · rename_i eq
    cases h
    exact eq
  · cases h

theorem change_eq_error (operation : Disk → Except FileError Disk) {d d' : Disk} {e : FileError}
    (h : change operation d = (.error e, d')) : d' = d := by
  rw [change] at h
  split at h
  · cases h
  · cases h
    rfl

theorem access_reveals : access.Reveals id where
  isFile _ _ := rfl
  isDirectory _ _ := rfl
  read _ _ := rfl
  names _ _ := rfl
  read_ok h := congrArg Prod.fst h
  write h := change_eq_ok (·.write _ _) h
  makeDirectory h := change_eq_ok (·.makeDirectory _) h
  rename h := change_eq_ok (·.rename _ _) h
  remove h := change_eq_ok (·.remove _) h
  write_error h := .inl (change_eq_error (·.write _ _) h)
  makeDirectory_error h := change_eq_error (·.makeDirectory _) h
  rename_error h := change_eq_error (·.rename _ _) h
  remove_error h := change_eq_error (·.remove _) h
  isFile_eq _ _ := rfl
  isDirectory_eq _ _ := rfl
  read_eq _ _ := rfl
  names_eq _ _ := rfl

theorem ask_disk {α : Type} (query : Disk → α) (failed : FileError → α)
    (s : List (Option Fault) × Disk) : (ask query failed s).2.2 = s.2 := by
  rw [ask]
  split
  · rfl
  · rfl

theorem ask_eq_ok {α : Type} (query : Disk → Except FileError α) {a : α}
    {s s' : List (Option Fault) × Disk} (h : ask query .error s = (.ok a, s')) :
    query s.2 = .ok a := by
  rw [ask] at h
  split at h
  · cases h
  · exact congrArg Prod.fst h

theorem attempt_eq_ok (operation : Disk → Except FileError Disk) (broken : Fault → Disk → Disk)
    {s s' : List (Option Fault) × Disk} (h : attempt operation broken s = (.ok (), s')) :
    operation s.2 = .ok s'.2 := by
  obtain ⟨faults, d⟩ := s
  simp only [attempt] at h
  split at h
  · cases h
  · split at h
    · rename_i eq
      cases h
      exact eq
    · cases h

theorem attempt_eq_error (operation : Disk → Except FileError Disk) {broken : Fault → Disk → Disk}
    {e : FileError} {s s' : List (Option Fault) × Disk}
    (h : attempt operation broken s = (.error e, s')) :
    s'.2 = s.2 ∨ ∃ fault, s'.2 = broken fault s.2 := by
  obtain ⟨faults, d⟩ := s
  simp only [attempt] at h
  split at h
  · rename_i fault _
    cases h
    exact .inr ⟨fault, rfl⟩
  · split at h
    · cases h
    · cases h
      exact .inl rfl

theorem attempt_eq_error_unbroken (operation : Disk → Except FileError Disk)
    {e : FileError} {s s' : List (Option Fault) × Disk}
    (h : attempt operation (fun _ d => d) s = (.error e, s')) : s'.2 = s.2 := by
  rcases attempt_eq_error operation h with same | ⟨_, same⟩
  · exact same
  · exact same

theorem unreliable_tracks : unreliable.Tracks Prod.snd where
  isFile p := ask_disk (·.isFile p) fun _ => false
  isDirectory p := ask_disk (·.isDirectory p) fun _ => false
  read p := ask_disk (·.read p) .error
  names p := ask_disk (·.names p) .error
  read_ok h := ask_eq_ok (·.read _) h
  write h := attempt_eq_ok (·.write _ _) _ h
  makeDirectory h := attempt_eq_ok (·.makeDirectory _) (fun _ d => d) h
  rename h := attempt_eq_ok (·.rename _ _) (fun _ d => d) h
  remove h := attempt_eq_ok (·.remove _) (fun _ d => d) h
  write_error := by
    intro p content e s s' h
    rcases attempt_eq_error (·.write p content) h with same | ⟨fault, broken⟩
    · exact .inl same
    · cases hremains : fault.remains with
      | none =>
        rw [hremains] at broken
        exact .inl broken
      | some remains =>
        rw [hremains, Option.bind_some] at broken
        cases hwrite : s.2.write p remains with
        | error e =>
          rw [hwrite] at broken
          exact .inl broken
        | ok d =>
          rw [hwrite] at broken
          exact .inr ⟨remains, hwrite.trans (congrArg _ broken.symm)⟩
  makeDirectory_error h := attempt_eq_error_unbroken (·.makeDirectory _) h
  rename_error h := attempt_eq_error_unbroken (·.rename _ _) h
  remove_error h := attempt_eq_error_unbroken (·.remove _) h

end Disk

end SchemaClient
