import SchemaClient.Text.Scan

/-!
# Runs, prefixes and scans

How the readers of text behave on a text that is put together from known pieces: a run is read up
to the character that ends it, a scan passes over what no match starts in, and behind a match it
goes on as if the text began there.
-/

namespace SchemaClient.Text

/-- What holds of the characters of a text is decided along the text, not for all characters. -/
instance (priority := high) decidableForallChars (p : Char → Prop) [DecidablePred p]
    (cs : List Char) : Decidable (∀ c ∈ cs, p c) :=
  List.decidableBAll p cs

/-- The text is empty or begins with a character that `p` rejects. -/
def Stops (p : Char → Bool) (cs : List Char) : Prop :=
  ∀ c ∈ cs.head?, p c = false

section Runs

variable {p : Char → Bool} {w cs : List Char} {c : Char}

theorem Stops.nil : Stops p [] := by
  simp [Stops]

theorem Stops.cons (h : p c = false) : Stops p (c :: cs) := by
  simp [Stops, h]

theorem Stops.head (h : Stops p (c :: cs)) : p c = false :=
  h c rfl

theorem Stops.takeWhile (h : Stops p cs) : cs.takeWhile p = [] := by
  cases cs with
  | nil => rfl
  | cons c cs => simp [h.head]

theorem Stops.dropWhile (h : Stops p cs) : cs.dropWhile p = cs := by
  cases cs with
  | nil => rfl
  | cons c cs => simp [h.head]

theorem Stops.of_append (h : Stops p (w ++ cs)) : Stops p w := by
  cases w with
  | nil => exact Stops.nil
  | cons c w => exact Stops.cons h.head

theorem Stops.append (hw : Stops p w) (h : Stops p cs) : Stops p (w ++ cs) := by
  cases w with
  | nil => exact h
  | cons c w => exact Stops.cons hw.head

theorem Stops.mono {q : Char → Bool} (h : Stops q cs) (hpq : ∀ c, p c = true → q c = true) :
    Stops p cs := by
  intro c hc
  cases hp : p c with
  | false => rfl
  | true =>
    have := h c hc
    rw [hpq c hp] at this
    cases this

theorem stops_dropWhile (p : Char → Bool) (cs : List Char) : Stops p (cs.dropWhile p) := by
  induction cs with
  | nil => exact Stops.nil
  | cons c cs ih =>
    by_cases h : p c = true
    · rw [List.dropWhile_cons_of_pos h]
      exact ih
    · rw [List.dropWhile_cons_of_neg h]
      exact Stops.cons (by simpa using h)

theorem takeWhile_run (all : ∀ c ∈ w, p c = true) (stops : Stops p cs) :
    (w ++ cs).takeWhile p = w := by
  rw [List.takeWhile_append_of_pos all, stops.takeWhile, List.append_nil]

theorem dropWhile_run (all : ∀ c ∈ w, p c = true) (stops : Stops p cs) :
    (w ++ cs).dropWhile p = cs := by
  rw [List.dropWhile_append_of_pos all, stops.dropWhile]

theorem dropWhile_all (all : ∀ c ∈ cs, p c = true) : cs.dropWhile p = [] := by
  have h := dropWhile_run all (Stops.nil (p := p))
  rwa [List.append_nil] at h

theorem run?_run (nonempty : w ≠ []) (all : ∀ c ∈ w, p c = true) (stops : Stops p cs) :
    run? p (w ++ cs) = some (w, cs) := by
  obtain ⟨c, w', rfl⟩ := List.exists_cons_of_ne_nil nonempty
  rw [run?, takeWhile_run all stops, dropWhile_run all stops]

theorem Stops.run? (h : Stops p cs) : run? p cs = none := by
  rw [Text.run?, h.takeWhile]

theorem stops_of_run? (h : Text.run? p cs = none) : Stops p cs := by
  cases cs with
  | nil => exact Stops.nil
  | cons c cs =>
    cases hc : p c with
    | false => exact Stops.cons hc
    | true =>
      unfold Text.run? at h
      rw [List.takeWhile_cons_of_pos hc] at h
      cases h

/-- What a run is read from, and where it ends. -/
theorem run?_eq_some {r : List Char} (h : run? p cs = some (w, r)) :
    cs = w ++ r ∧ w ≠ [] ∧ (∀ c ∈ w, p c = true) ∧ Stops p r := by
  have hw : cs.takeWhile p = w ∧ cs.dropWhile p = r ∧ w ≠ [] := by
    unfold Text.run? at h
    split at h
    · cases h
    · rename_i word hword
      obtain ⟨rfl, rfl⟩ := Prod.mk.inj (Option.some.inj h)
      exact ⟨rfl, rfl, fun h => hword h⟩
  obtain ⟨htake, hdrop, hne⟩ := hw
  refine ⟨?_, hne, ?_, ?_⟩
  · rw [← htake, ← hdrop, List.takeWhile_append_dropWhile]
  · intro c hc
    rw [← htake] at hc
    exact List.all_eq_true.mp (List.all_takeWhile) c hc
  · rw [← hdrop]
    exact stops_dropWhile p cs

/-- A run is not continued by a text that starts with none of its characters. -/
theorem run?_append_of_stops (seam : Stops p cs) (u : List Char) :
    run? p (u ++ cs) = (run? p u).map fun (w, r) => (w, r ++ cs) := by
  cases h : Text.run? p u with
  | some found =>
    obtain ⟨w, r⟩ := found
    obtain ⟨rfl, nonempty, all, stops⟩ := run?_eq_some h
    rw [List.append_assoc, run?_run nonempty all (stops.append seam), Option.map_some]
  | none => rw [((stops_of_run? h).append seam).run?, Option.map_none]

theorem after?_append (w cs : List Char) : after? w (w ++ cs) = some cs := by
  induction w with
  | nil => rfl
  | cons c w ih => simp [after?, ih]

theorem after?_eq_some {r : List Char} (h : after? w cs = some r) : cs = w ++ r := by
  induction w generalizing cs with
  | nil => simpa [after?] using h
  | cons x w ih =>
    cases cs with
    | nil => cases h
    | cons c cs =>
      rw [after?] at h
      split at h
      · rename_i hxc
        rw [hxc, ih h, List.cons_append]
      · cases h

theorem isSome_after?_iff : (after? w cs).isSome = true ↔ w <+: cs := by
  rw [Option.isSome_iff_exists]
  constructor
  · rintro ⟨rest, h⟩
    exact ⟨rest, (after?_eq_some h).symm⟩
  · rintro ⟨rest, rfl⟩
    exact ⟨rest, after?_append w rest⟩

/-- A beginning is not completed by a text that starts with none of its characters. -/
theorem after?_append_of_stops (seam : Stops w.contains cs) (u : List Char) :
    after? w (u ++ cs) = (after? w u).map (· ++ cs) := by
  induction w generalizing u with
  | nil => rfl
  | cons x w ih =>
    have seam' : Stops w.contains cs := fun c hc => by
      have := seam c hc
      rw [List.contains_cons, Bool.or_eq_false_iff] at this
      exact this.2
    cases u with
    | nil =>
      cases cs with
      | nil => rfl
      | cons c cs =>
        have hxc : x ≠ c := by
          rintro rfl
          have := seam.head
          rw [List.contains_cons, beq_self_eq_true, Bool.true_or] at this
          cases this
        simp [after?, hxc]
    | cons c u =>
      rw [List.cons_append, after?, after?]
      split
      · exact ih seam' u
      · rfl

end Runs

section Scans

variable {α : Type}

theorem collectFrom_passed (p : Pattern α) (passed cs : List Char) :
    collectFrom p passed.length (passed ++ cs) = collect p cs := by
  induction passed with
  | nil => rfl
  | cons c passed ih => exact ih

/-- A match is found and the scan goes on behind it. -/
theorem collect_match {p : Pattern α} {found cs : List Char} {x : α} (nonempty : found ≠ [])
    (h : p (found ++ cs) = some (x, found.length)) :
    collect p (found ++ cs) = x :: collect p cs := by
  obtain ⟨c, found, rfl⟩ := List.exists_cons_of_ne_nil nonempty
  rw [List.cons_append] at h ⊢
  simp only [collect, collectFrom, h]
  exact congrArg (x :: ·) (collectFrom_passed p found cs)

/-- No match starts at a character of `passed`, whatever follows it. -/
theorem collect_pass {p : Pattern α} {passed : List Char}
    (h : ∀ c ∈ passed, ∀ cs, p (c :: cs) = none) (cs : List Char) :
    collect p (passed ++ cs) = collect p cs := by
  induction passed with
  | nil => rfl
  | cons c passed ih =>
    rw [List.cons_append, collect, collectFrom, h c List.mem_cons_self]
    exact ih fun c hc => h c (List.mem_cons_of_mem _ hc)

/-- Two scans go on at the same places if their patterns match the same text at each place. -/
theorem collect_eq_map {β : Type} {p : Pattern α} {q : Pattern β} {cs : List Char} (f : β → α)
    (same : ∀ t, t <:+ cs → p t = (q t).map fun (x, length) => (f x, length)) :
    collect p cs = (collect q cs).map f := by
  suffices ∀ passed, collectFrom p passed cs = (collectFrom q passed cs).map f from this 0
  induction cs with
  | nil => exact fun _ => rfl
  | cons c cs ih =>
    have later := ih fun t ht => same t (ht.trans (List.suffix_cons c cs))
    intro passed
    cases passed with
    | succ passed => exact later passed
    | zero =>
      have here := same (c :: cs) (List.suffix_refl _)
      cases hq : q (c :: cs) with
      | none =>
        rw [hq, Option.map_none] at here
        simp only [collectFrom, here, hq]
        exact later 0
      | some found =>
        rw [hq, Option.map_some] at here
        simp only [collectFrom, here, hq, List.map_cons, later]

variable {p : List Char → Option Nat}

theorem eraseFrom_passed (p : List Char → Option Nat) (passed cs : List Char) :
    eraseFrom p passed.length (passed ++ cs) = erase p cs := by
  induction passed with
  | nil => rfl
  | cons c passed ih => exact ih

theorem erase_match {found cs : List Char} (nonempty : found ≠ [])
    (h : p (found ++ cs) = some found.length) : erase p (found ++ cs) = erase p cs := by
  obtain ⟨c, found, rfl⟩ := List.exists_cons_of_ne_nil nonempty
  rw [List.cons_append] at h ⊢
  simp only [erase, eraseFrom, h]
  exact eraseFrom_passed p found cs

theorem erase_cons_of_none {c : Char} {cs : List Char} (h : p (c :: cs) = none) :
    erase p (c :: cs) = c :: erase p cs := by
  simp only [erase, eraseFrom, h]

theorem erase_pass {passed : List Char} (h : ∀ c ∈ passed, ∀ cs, p (c :: cs) = none)
    (cs : List Char) : erase p (passed ++ cs) = passed ++ erase p cs := by
  induction passed with
  | nil => rfl
  | cons c passed ih =>
    rw [List.cons_append, erase_cons_of_none (h c List.mem_cons_self _),
      ih fun c hc => h c (List.mem_cons_of_mem _ hc), List.cons_append]

theorem eraseFrom_sublist (p : List Char → Option Nat) (passed : Nat) (cs : List Char) :
    (eraseFrom p passed cs).Sublist cs := by
  induction cs generalizing passed with
  | nil => exact List.nil_sublist _
  | cons c cs ih =>
    rw [eraseFrom.eq_def]
    simp only
    split
    · exact (ih _).cons c
    · split
      · exact (ih _).cons_cons c
      · exact (ih _).cons c

end Scans

end SchemaClient.Text
