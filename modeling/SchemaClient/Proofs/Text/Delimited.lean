import SchemaClient.Proofs.Text.Scanning

/-!
# Erasing across a seam

A pattern that reaches from an opening mark to the next closing one is erased from a text that is
put together from two parts. The parts are erased on their own unless the first one ends inside a
match and the second one closes it. A text put in between leaves no trace in the other two when it
closes nothing that is open there and opens nothing itself.
-/

namespace SchemaClient.Text

/-- Whether a scan leaves a match unfinished. The first `passed` characters belong to a match before
them. -/
def openFrom (opens : List Char → Bool) (p : List Char → Option Nat) (passed : Nat) :
    List Char → Bool
  | [] => false
  | c :: cs =>
    match passed with
    | passed + 1 => openFrom opens p passed cs
    | 0 =>
      match p (c :: cs) with
      | some length => openFrom opens p (length - 1) cs
      | none => opens (c :: cs) || openFrom opens p 0 cs

/-- The marks between which a pattern matches. -/
structure Delimited (p : List Char → Option Nat) where
  /-- The length of the opening mark at the head of a text, and the text behind it. -/
  opening : List Char → Option (Nat × List Char)
  /-- The length of a text up to the end of its first closing mark. -/
  closes : List Char → Option Nat
  /-- A character that may belong to a mark begun in front of it. -/
  joins : Char → Bool
  pattern_eq : ∀ cs, p cs = (opening cs).bind fun (k, inner) => (closes inner).map (k + ·)
  opening_length : ∀ {cs k inner}, opening cs = some (k, inner) → cs.length = k + inner.length
  opening_append : ∀ {c cs r}, Stops joins r →
    opening (c :: cs ++ r) = (opening (c :: cs)).map fun (k, inner) => (k, inner ++ r)
  closes_le : ∀ {cs n}, closes cs = some n → n ≤ cs.length
  closes_kept : ∀ {t r n}, closes t = some n → Stops joins r → closes (t ++ r) = some n
  closes_append : ∀ {t r}, closes t = none → Stops joins r →
    closes (t ++ r) = (closes r).map (t.length + ·)

theorem eraseFrom_eq_erase_drop (p : List Char → Option Nat) (n : Nat) (cs : List Char) :
    eraseFrom p n cs = erase p (cs.drop n) := by
  induction n generalizing cs with
  | zero => rfl
  | succ n ih =>
    cases cs with
    | nil => rfl
    | cons c cs => exact ih cs

theorem eraseFrom_length_add (p : List Char → Option Nat) (u : List Char) (n : Nat)
    (r : List Char) : eraseFrom p (u.length + n) (u ++ r) = erase p (r.drop n) := by
  rw [eraseFrom_eq_erase_drop, List.drop_append, List.drop_eq_nil_of_le (by omega),
    List.nil_append, Nat.add_sub_cancel_left]

namespace Delimited

variable {p : List Char → Option Nat} {d : Delimited p} {u t r : List Char} {k : Nat}

def opens (d : Delimited p) (cs : List Char) : Bool :=
  (d.opening cs).isSome

/-- The text ends inside a match that it began. -/
def endsOpen (d : Delimited p) (cs : List Char) : Bool :=
  openFrom d.opens p 0 cs

theorem match_le {cs : List Char} {n : Nat} (d : Delimited p) (h : p cs = some n) :
    n ≤ cs.length := by
  rw [d.pattern_eq, Option.bind_eq_some_iff] at h
  obtain ⟨⟨k, inner⟩, hopening, hcloses⟩ := h
  obtain ⟨m, hm, rfl⟩ := Option.map_eq_some_iff.mp hcloses
  have := d.closes_le hm
  rw [d.opening_length hopening]
  omega

theorem match_kept {c : Char} {n : Nat} (d : Delimited p) (h : p (c :: u) = some n)
    (seam : Stops d.joins r) : p (c :: u ++ r) = some n := by
  rw [d.pattern_eq, Option.bind_eq_some_iff] at h
  obtain ⟨⟨k, inner⟩, hopening, hcloses⟩ := h
  obtain ⟨m, hm, rfl⟩ := Option.map_eq_some_iff.mp hcloses
  rw [d.pattern_eq, d.opening_append seam, hopening, Option.map_some, Option.bind_some]
  simp only [d.closes_kept hm seam, Option.map_some]

theorem unopened {c : Char} (h : d.opens (c :: u) = false) (seam : Stops d.joins r) :
    p (c :: u ++ r) = none := by
  have hopening : d.opening (c :: u) = none := by simpa [opens] using h
  rw [d.pattern_eq, d.opening_append seam, hopening, Option.map_none, Option.bind_none]

theorem opened {c : Char} (h : p (c :: u) = none) (isOpen : d.opens (c :: u) = true)
    (seam : Stops d.joins r) : p (c :: u ++ r) = (d.closes r).map ((c :: u).length + ·) := by
  obtain ⟨⟨k, inner⟩, hopening⟩ := Option.isSome_iff_exists.mp isOpen
  rw [d.pattern_eq, hopening, Option.bind_some, Option.map_eq_none_iff] at h
  rw [d.pattern_eq, d.opening_append seam, hopening, Option.map_some, Option.bind_some]
  simp only [d.closes_append h seam, Option.map_map, d.opening_length hopening,
    Function.comp_def, Nat.add_assoc]

theorem endsOpen_cons {c : Char} {cs : List Char} (h : p (c :: cs) = none)
    (shut : d.opens (c :: cs) = false) : d.endsOpen (c :: cs) = d.endsOpen cs := by
  simp only [endsOpen, openFrom, h, shut, Bool.false_or]

theorem endsOpen_eq_false (h : ∀ cs, p cs = none → d.opens cs = false) (cs : List Char) :
    d.endsOpen cs = false := by
  suffices ∀ k, openFrom d.opens p k cs = false from this 0
  induction cs with
  | nil => exact fun _ => rfl
  | cons c cs ih =>
    intro k
    cases k with
    | succ k => exact ih k
    | zero =>
      cases hp : p (c :: cs) with
      | some n =>
        simp only [openFrom, hp]
        exact ih (n - 1)
      | none => simp only [openFrom, hp, h _ hp, ih, Bool.or_false]

theorem eraseFrom_append (unclosed : openFrom d.opens p k u = true → d.closes r = none)
    (seam : Stops d.joins r) (room : k ≤ u.length) :
    eraseFrom p k (u ++ r) = eraseFrom p k u ++ erase p r := by
  induction u generalizing k with
  | nil =>
    obtain rfl : k = 0 := by simpa using room
    rfl
  | cons c u ih =>
    rw [List.length_cons] at room
    cases k with
    | succ k => exact ih unclosed (by omega)
    | zero =>
      cases hp : p (c :: u) with
      | some n =>
        have hbound := d.match_le hp
        have hkept := d.match_kept hp seam
        rw [List.length_cons] at hbound
        rw [List.cons_append] at hkept ⊢
        simp only [openFrom, hp] at unclosed
        simp only [eraseFrom, hp, hkept]
        exact ih unclosed (by omega)
      | none =>
        simp only [openFrom, hp, Bool.or_eq_true] at unclosed
        have still : p (c :: u ++ r) = none := by
          cases hopen : d.opens (c :: u) with
          | false => exact unopened hopen seam
          | true => rw [opened hp hopen seam, unclosed (.inl hopen), Option.map_none]
        rw [List.cons_append] at still ⊢
        simp only [eraseFrom, hp, still, List.cons_append]
        rw [ih (fun h => unclosed (.inr h)) (Nat.zero_le _)]

/-- Both parts of a text are erased on their own. -/
theorem erase_append (unclosed : d.endsOpen u = true → d.closes r = none)
    (seam : Stops d.joins r) : erase p (u ++ r) = erase p u ++ erase p r :=
  eraseFrom_append unclosed seam (Nat.zero_le _)

theorem erase_append_of_shut (shut : d.endsOpen u = false) (seam : Stops d.joins r) :
    erase p (u ++ r) = erase p u ++ erase p r := by
  refine erase_append (fun isOpen => ?_) seam
  rw [shut] at isOpen
  cases isOpen

theorem eraseFrom_open (isOpen : openFrom d.opens p k u = true) (room : k ≤ u.length) :
    ∃ e, e.length ≤ u.length ∧ ∀ r n, Stops d.joins r → d.closes r = some n →
      eraseFrom p k (u ++ r) = e ++ erase p (r.drop n) := by
  induction u generalizing k with
  | nil => cases isOpen
  | cons c u ih =>
    rw [List.length_cons] at room
    cases k with
    | succ k =>
      obtain ⟨e, he, h⟩ := ih isOpen (by omega)
      exact ⟨e, by rw [List.length_cons]; omega, h⟩
    | zero =>
      cases hp : p (c :: u) with
      | some n =>
        have hbound := d.match_le hp
        rw [List.length_cons] at hbound
        simp only [openFrom, hp] at isOpen
        obtain ⟨e, he, h⟩ := ih isOpen (by omega)
        refine ⟨e, by rw [List.length_cons]; omega, fun r m seam closed => ?_⟩
        have hkept := d.match_kept hp seam
        rw [List.cons_append] at hkept ⊢
        simp only [eraseFrom, hkept]
        exact h r m seam closed
      | none =>
        cases hopen : d.opens (c :: u) with
        | true =>
          -- The match began here, so it ends with the closing mark behind the seam.
          refine ⟨[], Nat.zero_le _, fun r n seam closed => ?_⟩
          have matched := opened hp hopen seam
          rw [closed, Option.map_some, List.length_cons, Nat.add_right_comm] at matched
          rw [List.cons_append] at matched ⊢
          simp only [eraseFrom, matched, Nat.add_sub_cancel]
          exact eraseFrom_length_add p u n r
        | false =>
          simp only [openFrom, hp, hopen, Bool.false_or] at isOpen
          obtain ⟨e, he, h⟩ := ih isOpen (Nat.zero_le _)
          refine ⟨c :: e, by simpa using he, fun r n seam closed => ?_⟩
          have still := unopened hopen seam
          rw [List.cons_append] at still ⊢
          simp only [eraseFrom, still, List.cons_append]
          rw [h r n seam closed]

/-- Behind a text that ends inside a match, everything is erased up to the closing mark. -/
theorem erase_open (isOpen : d.endsOpen u = true) :
    ∃ e, e.length ≤ u.length ∧ ∀ r n, Stops d.joins r → d.closes r = some n →
      erase p (u ++ r) = e ++ erase p (r.drop n) :=
  eraseFrom_open isOpen (Nat.zero_le _)

/-- Behind a text that closes what is open and opens nothing, the next one is erased on its own. -/
theorem erase_closed {n : Nat} (isOpen : d.endsOpen u = true) (closed : d.closes t = some n)
    (shut : d.endsOpen (t.drop n) = false) (start : Stops d.joins t) (seam : Stops d.joins r) :
    ∃ e, erase p (u ++ (t ++ r)) = e ++ erase p r := by
  obtain ⟨e, -, h⟩ := erase_open isOpen
  refine ⟨e ++ erase p (t.drop n), ?_⟩
  rw [h _ _ (start.append seam) (d.closes_kept closed seam),
    List.drop_append_of_le_length (d.closes_le closed), erase_append_of_shut shut seam,
    List.append_assoc]

/-- What a text opens and the next one closes at its end is gone. -/
theorem length_erase_open_le (shut : d.endsOpen u = false) (isOpen : d.endsOpen t = true)
    (start : Stops d.joins t) (seam : Stops d.joins r) (closed : d.closes r = some r.length) :
    (erase p (u ++ (t ++ r))).length ≤ u.length + t.length := by
  obtain ⟨e, he, h⟩ := erase_open isOpen
  have hu : (erase p u).length ≤ u.length := (eraseFrom_sublist p 0 u).length_le
  rw [erase_append_of_shut shut (start.append seam), h r _ seam closed,
    List.drop_length]
  simp only [List.length_append, erase, eraseFrom, List.length_nil]
  exact Nat.add_le_add hu he

/-- Behind `u`, the text neither closes what is open nor leaves anything open. -/
def Contains (d : Delimited p) (u t : List Char) : Prop :=
  if d.endsOpen u = true then d.closes t = none else d.endsOpen t = false

instance (d : Delimited p) (u t : List Char) : Decidable (d.Contains u t) :=
  inferInstanceAs
    (Decidable (if d.endsOpen u = true then d.closes t = none else d.endsOpen t = false))

/-- Behind `u`, the text closes what is open and leaves something open again. -/
def Reopens (d : Delimited p) (u t : List Char) : Prop :=
  d.endsOpen u = true ∧ ∃ n, d.closes t = some n ∧ d.endsOpen (t.drop n) = true

/-- A contained text is erased with what surrounds it, or erased on its own. -/
theorem erase_insert (contained : d.Contains u t) (start : Stops d.joins t)
    (seam : Stops d.joins r) :
    erase p (u ++ (t ++ r)) = erase p (u ++ r) ∨
      erase p (u ++ (t ++ r)) = erase p u ++ (erase p t ++ erase p r) ∧
        erase p (u ++ r) = erase p u ++ erase p r := by
  have start' : Stops d.joins (t ++ r) := start.append seam
  unfold Contains at contained
  split at contained
  · rename_i isOpen
    have through := d.closes_append contained seam
    cases closed : d.closes r with
    | none =>
      rw [closed, Option.map_none] at through
      rw [erase_append (fun _ => through) start', erase_append (fun _ => closed) seam,
        erase_append (fun _ => closed) seam]
      exact .inr ⟨rfl, rfl⟩
    | some n =>
      rw [closed, Option.map_some] at through
      obtain ⟨e, -, h⟩ := erase_open isOpen
      rw [h _ _ start' through, h _ _ seam closed, List.drop_length_add_append]
      exact .inl rfl
  · rename_i shut
    rw [Bool.not_eq_true] at shut
    rw [erase_append_of_shut shut start', erase_append_of_shut shut seam,
      erase_append_of_shut contained seam]
    exact .inr ⟨rfl, rfl⟩

end Delimited

end SchemaClient.Text
