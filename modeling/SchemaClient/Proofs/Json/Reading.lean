import Mathlib.Data.List.Forall2
import Mathlib.Data.List.Nodup
import SchemaClient.Proofs.Json.Grammar
import SchemaClient.Proofs.Outcomes

/-!
# What readers make of JSON

What is JSON to its end can always be passed over. It is read as a free value exactly if its numbers
are in range, its texts are whole and it is not nested too deep, and as a record exactly if each
field is given once at most and can be read.
-/

namespace SchemaClient.Json

namespace Outline

abbrev Members := List (Except ReadError String × Outline)

mutual

/-- There is no fault in the text. -/
def Closed : Outline → Prop
  | .broken _ _ => False
  | .items xs close => close = none ∧ ClosedItems xs
  | .members ms close => close = none ∧ ClosedMembers ms
  | .null | .bool _ | .number _ | .text _ => True

def ClosedItems : List Outline → Prop
  | [] => True
  | x :: xs => x.Closed ∧ ClosedItems xs

def ClosedMembers : Members → Prop
  | [] => True
  | (_, x) :: ms => x.Closed ∧ ClosedMembers ms

end

mutual

/-- The value of a closed outline, unless a number is out of range or half a character stands in a
text. Of two members with one name the later stays. -/
def value? : Outline → Option Json
  | .broken _ _ => none
  | .null => some .null
  | .bool b => some (.bool b)
  | .number none => none
  | .number (some (.int n)) => some (.int n)
  | .number (some (.double x)) => some (.double x)
  | .text (.ok s) => some (.str s)
  | .text (.error _) => none
  | .items xs _ => (values? xs).map .arr
  | .members ms _ => (memberValues? [] ms).map .obj

def values? : List Outline → Option (List Json)
  | [] => some []
  | x :: xs => x.value?.bind fun v => (values? xs).map (v :: ·)

def memberValues? (found : Dictionary Json) : Members → Option (Dictionary Json)
  | [] => some found
  | (.ok k, x) :: ms => x.value?.bind fun v => memberValues? (found.insert k v) ms
  | (.error _, _) :: _ => none

end

mutual

/-- Levels of nesting. -/
def levels : Outline → Nat
  | .items xs _ => levelsOfItems xs + 1
  | .members ms _ => levelsOfMembers ms + 1
  | _ => 0

def levelsOfItems : List Outline → Nat
  | [] => 0
  | x :: xs => max x.levels (levelsOfItems xs)

def levelsOfMembers : Members → Nat
  | [] => 0
  | (_, x) :: ms => max x.levels (levelsOfMembers ms)

end

section Closed

mutual

theorem closed_of_spells : ∀ {cs : List Char} {x : Outline}, Spells cs x → x.Closed
  | _, _, .null | _, _, .true | _, _, .false => trivial
  | _, _, .natural _ | _, _, .negative _ | _, _, .string _ => trivial
  | _, _, .emptyArray _ | _, _, .emptyObject _ => ⟨rfl, trivial⟩
  | _, _, .array h => ⟨rfl, closedItems_of_spells h⟩
  | _, _, .object h => ⟨rfl, closedMembers_of_spells h⟩

theorem closedItems_of_spells : ∀ {cs : List Char} {xs : List Outline}, SpellsItems cs xs →
    ClosedItems xs
  | _, _, .last _ h _ => ⟨closed_of_spells h, trivial⟩
  | _, _, .cons _ h _ later => ⟨closed_of_spells h, closedItems_of_spells later⟩

theorem closedMembers_of_spells : ∀ {cs : List Char}
    {ms : Members}, SpellsMembers cs ms → ClosedMembers ms
  | _, _, .last _ _ _ _ h _ => ⟨closed_of_spells h, trivial⟩
  | _, _, .cons _ _ _ _ h _ later => ⟨closed_of_spells h, closedMembers_of_spells later⟩

end

mutual

theorem skip_closed : ∀ {x : Outline}, x.Closed → skip x = .ok ()
  | .null, _ | .bool _, _ | .number _, _ | .text _, _ => rfl
  | .items xs _, h => by
    obtain ⟨rfl, h⟩ := h
    rw [skip, skipItems_closed h]
    rfl
  | .members ms _, h => by
    obtain ⟨rfl, h⟩ := h
    rw [skip, skipMembers_closed h]
    rfl

theorem skipItems_closed : ∀ {xs : List Outline}, ClosedItems xs → skipItems xs = .ok ()
  | [], _ => rfl
  | x :: xs, h => by
    rw [skipItems, skip_closed h.1]
    exact skipItems_closed h.2

theorem skipMembers_closed : ∀ {ms : Members}, ClosedMembers ms →
    skipMembers ms = .ok ()
  | [], _ => rfl
  | (_, x) :: ms, h => by
    rw [skipMembers, skip_closed h.1]
    exact skipMembers_closed h.2

end

theorem ClosedItems.of_mem {xs : List Outline} (h : ClosedItems xs) : ∀ x ∈ xs, x.Closed := by
  induction xs with
  | nil => exact List.forall_mem_nil _
  | cons x xs ih => exact List.forall_mem_cons.mpr ⟨h.1, ih h.2⟩

end Closed

/-! ## Free values -/

/-- What stands in brackets is read with one level less, of which one is left at least. -/
theorem bind_enter_eq_ok_iff {α : Type} {f : Nat → Except ReadError α} {depth : Nat} {a : α} :
    (enter depth >>= f) = .ok a ↔ 1 < depth ∧ f (depth - 1) = .ok a := by
  rw [enter]
  split
  · constructor
    · rintro ⟨⟩
    · rintro ⟨deep, -⟩
      omega
  · rename_i deep
    exact (and_iff_right (Nat.lt_of_not_le deep)).symm

mutual

theorem readJson_eq_ok_iff : ∀ {x : Outline} {depth : Nat} {v : Json}, x.Closed → 0 < depth →
    (readJson depth x = .ok v ↔ x.value? = some v ∧ x.levels < depth)
  | .null, _, _, _, positive | .bool _, _, _, _, positive => by
    simp [readJson, value?, levels, positive]
  | .number none, _, _, _, _ => by simp [readJson, value?]
  | .number (some (.int _)), _, _, _, positive
  | .number (some (.double _)), _, _, _, positive => by
    simp [readJson, value?, levels, positive]
  | .text (.ok _), _, _, _, positive => by
    simp [readJson, value?, levels, positive, Except.map]
  | .text (.error _), _, _, _, _ => by simp [readJson, value?, Except.map]
  | .items xs _, depth, v, h, _ => by
    obtain ⟨rfl, h⟩ := h
    rw [readJson, bind_enter_eq_ok_iff, bind_eq_ok_iff, value?, Option.map_eq_some_iff, levels]
    constructor
    · rintro ⟨deep, vs, read, h'⟩
      obtain ⟨values, shallow⟩ := (readItems_eq_ok_iff h (by omega)).mp read
      exact ⟨⟨vs, values, Except.ok.inj h'⟩, by omega⟩
    · rintro ⟨⟨vs, values, rfl⟩, shallow⟩
      have read : readItems (depth - 1) xs = .ok vs :=
        (readItems_eq_ok_iff h (by omega)).mpr ⟨values, by omega⟩
      exact ⟨by omega, vs, read, rfl⟩
  | .members ms _, depth, v, h, _ => by
    obtain ⟨rfl, h⟩ := h
    rw [readJson, bind_enter_eq_ok_iff, bind_eq_ok_iff, value?, Option.map_eq_some_iff, levels]
    constructor
    · rintro ⟨deep, d, read, h'⟩
      obtain ⟨values, shallow⟩ := (readMembers_eq_ok_iff h (by omega)).mp read
      exact ⟨⟨d, values, Except.ok.inj h'⟩, by omega⟩
    · rintro ⟨⟨d, values, rfl⟩, shallow⟩
      have read : readMembers (depth - 1) [] ms = .ok d :=
        (readMembers_eq_ok_iff h (by omega)).mpr ⟨values, by omega⟩
      exact ⟨by omega, d, read, rfl⟩

theorem readItems_eq_ok_iff : ∀ {xs : List Outline} {depth : Nat} {vs : List Json},
    ClosedItems xs → 0 < depth →
    (readItems depth xs = .ok vs ↔ values? xs = some vs ∧ levelsOfItems xs < depth)
  | [], _, _, _, positive => by simp [readItems, values?, levelsOfItems, positive]
  | x :: xs, depth, vs, h, positive => by
    rw [readItems, bind_eq_ok_iff, values?, Option.bind_eq_some_iff, levelsOfItems, Nat.max_lt]
    constructor
    · rintro ⟨v, first, h'⟩
      obtain ⟨later, rest, h'⟩ := bind_eq_ok_iff.mp h'
      obtain ⟨value, shallow⟩ := (readJson_eq_ok_iff h.1 positive).mp first
      obtain ⟨values, shallow'⟩ := (readItems_eq_ok_iff h.2 positive).mp rest
      exact ⟨⟨v, value, by rw [values]; exact congrArg some (Except.ok.inj h')⟩, shallow, shallow'⟩
    · rintro ⟨⟨v, value, values⟩, shallow, shallow'⟩
      obtain ⟨later, rest, rfl⟩ := Option.map_eq_some_iff.mp values
      exact ⟨v, (readJson_eq_ok_iff h.1 positive).mpr ⟨value, shallow⟩, bind_eq_ok_iff.mpr
        ⟨later, (readItems_eq_ok_iff h.2 positive).mpr ⟨rest, shallow'⟩, rfl⟩⟩

theorem readMembers_eq_ok_iff : ∀ {ms : Members} {depth : Nat}
    {found d : Dictionary Json}, ClosedMembers ms → 0 < depth →
    (readMembers depth found ms = .ok d ↔
      memberValues? found ms = some d ∧ levelsOfMembers ms < depth)
  | [], _, _, _, _, positive => by simp [readMembers, memberValues?, levelsOfMembers, positive]
  | (.error e, x) :: ms, depth, found, d, _, _ => by
    rw [readMembers, bind_eq_ok_iff, memberValues?]
    constructor
    · rintro ⟨_, ⟨⟩, _⟩
    · rintro ⟨⟨⟩, _⟩
  | (.ok k, x) :: ms, depth, found, d, h, positive => by
    rw [readMembers, bind_eq_ok_iff, memberValues?, Option.bind_eq_some_iff, levelsOfMembers,
      Nat.max_lt]
    constructor
    · rintro ⟨_, ⟨⟩, h'⟩
      obtain ⟨v, first, rest⟩ := bind_eq_ok_iff.mp h'
      obtain ⟨value, shallow⟩ := (readJson_eq_ok_iff h.1 positive).mp first
      obtain ⟨values, shallow'⟩ := (readMembers_eq_ok_iff h.2 positive).mp rest
      exact ⟨⟨v, value, values⟩, shallow, shallow'⟩
    · rintro ⟨⟨v, value, values⟩, shallow, shallow'⟩
      exact ⟨k, rfl, bind_eq_ok_iff.mpr ⟨v, (readJson_eq_ok_iff h.1 positive).mpr ⟨value, shallow⟩,
        (readMembers_eq_ok_iff h.2 positive).mpr ⟨values, shallow'⟩⟩⟩

end

theorem value?_eq_null {x : Outline} (h : x.value? = some .null) : x = .null := by
  fun_cases value? x <;> simp_all [value?]

/-! ## Members -/

/-- All names of members are texts. -/
def KeysWhole (ms : Members) : Prop :=
  ∀ m ∈ ms, ∃ k, m.1 = .ok k

/-- The values of the members with a name. -/
def valuesOf (name : String) (ms : Members) : List Outline :=
  ms.filterMap fun
    | (.ok k, x) => if k = name then some x else none
    | (.error _, _) => none

/-- Some member has the name, and the values of all that have it are as required. -/
structure Given (name : String) (P : Outline → Prop) (ms : Members) : Prop where
  some : valuesOf name ms ≠ []
  all : ∀ x ∈ valuesOf name ms, P x

/-- No two members have the name, and the value of one that has it is as required. -/
structure AtMostOnce (name : String) (P : Outline → Prop) (ms : Members) : Prop where
  once : (valuesOf name ms).length ≤ 1
  all : ∀ x ∈ valuesOf name ms, P x

def ObjectOf (P : Members → Prop) (x : Outline) : Prop :=
  ∃ ms, x = .members ms none ∧ P ms

def ListOf (P : Outline → Prop) (x : Outline) : Prop :=
  ∃ xs, x = .items xs none ∧ ∀ y ∈ xs, P y

/-- A value that can be read as free JSON, with a bound on its levels of nesting. -/
def IsFree (bound : Nat) (x : Outline) : Prop :=
  x.value?.isSome ∧ x.levels ≤ bound

section Members

variable {name : String} {ms : Members}

@[simp] theorem valuesOf_nil : valuesOf name [] = [] :=
  rfl

@[simp] theorem valuesOf_cons_self (x : Outline) :
    valuesOf name ((.ok name, x) :: ms) = x :: valuesOf name ms := by
  simp [valuesOf]

theorem valuesOf_cons_of_ne {k : String} (h : k ≠ name) (x : Outline) :
    valuesOf name ((.ok k, x) :: ms) = valuesOf name ms := by
  simp [valuesOf, h]

theorem keysWhole_cons {k : String} {x : Outline} :
    KeysWhole ((.ok k, x) :: ms) ↔ KeysWhole ms := by
  simp [KeysWhole]

theorem mem_valuesOf {x : Outline} : x ∈ valuesOf name ms ↔ (.ok name, x) ∈ ms := by
  rw [valuesOf, List.mem_filterMap]
  constructor
  · rintro ⟨⟨_ | k, y⟩, hmem, h⟩
    · cases h
    · obtain ⟨rfl, rfl⟩ := by simpa using h
      exact hmem
  · intro hmem
    exact ⟨_, hmem, if_pos rfl⟩

theorem AtMostOnce.congr {P Q : Outline → Prop} (h : ∀ x ∈ valuesOf name ms, P x ↔ Q x) :
    AtMostOnce name P ms ↔ AtMostOnce name Q ms := by
  constructor
  · rintro ⟨once, all⟩
    exact ⟨once, fun x hx => (h x hx).mp (all x hx)⟩
  · rintro ⟨once, all⟩
    exact ⟨once, fun x hx => (h x hx).mpr (all x hx)⟩

theorem ListOf.congr {P Q : Outline → Prop} {x : Outline} (closed : x.Closed)
    (h : ∀ xs, x = .items xs none → ∀ y ∈ xs, y.Closed → (P y ↔ Q y)) :
    ListOf P x ↔ ListOf Q x := by
  constructor
  · rintro ⟨xs, rfl, all⟩
    exact ⟨xs, rfl, fun y hy => (h xs rfl y hy (closed.2.of_mem y hy)).mp (all y hy)⟩
  · rintro ⟨xs, rfl, all⟩
    exact ⟨xs, rfl, fun y hy => (h xs rfl y hy (closed.2.of_mem y hy)).mpr (all y hy)⟩

theorem ClosedMembers.of_mem (h : ClosedMembers ms) : ∀ m ∈ ms, m.2.Closed := by
  induction ms with
  | nil => exact List.forall_mem_nil _
  | cons m ms ih => exact List.forall_mem_cons.mpr ⟨h.1, ih h.2⟩

theorem ClosedMembers.of_mem_valuesOf (h : ClosedMembers ms) {x : Outline}
    (hx : x ∈ valuesOf name ms) : x.Closed :=
  h.of_mem _ (mem_valuesOf.mp hx)

end Members

end Outline

/-! ## Records -/

namespace Reader

open Outline

/-- A field of a record together with the place in the draft that it is kept in. -/
structure Slot (σ : Type) where
  content : Type
  name : String
  read : Reader content
  get : σ → Option content
  set : content → σ → σ

def Slot.field {σ : Type} (t : Slot σ) : Field σ :=
  Reader.field t.name t.read t.get t.set

/-- The slots have names of their own, and each is filled without another one. -/
structure Independent {σ : Type} (slots : List (Slot σ)) : Prop where
  names : (slots.map Slot.name).Nodup
  get_set : ∀ t ∈ slots, ∀ v s, t.get (t.set v s) = some v
  get_set_ne : ∀ t ∈ slots, ∀ u ∈ slots, u.name ≠ t.name → ∀ v s, u.get (t.set v s) = u.get s

/-- The members have one value for the slot at most, and it can be read. -/
def Slot.Readable {σ : Type} (t : Slot σ) (depth : Nat) (ms : Members) : Prop :=
  AtMostOnce t.name (fun x => ∃ v, t.read depth x = .ok v) ms

/-- The draft has what the members have for the slot. -/
def Slot.Holds {σ : Type} (t : Slot σ) (depth : Nat) (ms : Members) (draft : σ) : Prop :=
  (valuesOf t.name ms = [] ∧ t.get draft = none) ∨
    ∃ x v, valuesOf t.name ms = [x] ∧ t.read depth x = .ok v ∧ t.get draft = some v

section Records

variable {σ α : Type} {slots : List (Slot σ)} {depth : Nat} {draft draft' start : σ}
  {ms : Members} {t : Slot σ} {k : String} {x : Outline}
  {finish : Form → σ → Option α} {r : α}

theorem eq_of_name (ind : Independent slots) {u : Slot σ} (ht : t ∈ slots) (hu : u ∈ slots)
    (h : u.name = t.name) : u = t :=
  List.inj_on_of_nodup_map ind.names hu ht h

theorem find?_slot (ind : Independent slots) (ht : t ∈ slots) :
    (slots.map Slot.field).find? (·.name = t.name) = some t.field := by
  have found : ((slots.map Slot.field).find? (·.name = t.name)).isSome := by
    rw [List.find?_isSome]
    exact ⟨t.field, List.mem_map_of_mem ht, by simp [Slot.field, field]⟩
  obtain ⟨f, hf⟩ := Option.isSome_iff_exists.mp found
  obtain ⟨u, hu, rfl⟩ := List.mem_map.mp (List.mem_of_find?_eq_some hf)
  have name : u.field.name = t.name := by simpa using List.find?_some hf
  rw [hf, eq_of_name ind ht hu name]

theorem fillMembers_unknown (other : ∀ t ∈ slots, t.name ≠ k) (closed : x.Closed) :
    fillMembers (slots.map Slot.field) depth draft ((.ok k, x) :: ms) =
      fillMembers (slots.map Slot.field) depth draft ms := by
  have none : (slots.map Slot.field).find? (·.name = k) = none := by
    rw [List.find?_eq_none]
    simpa [Slot.field, field] using other
  rw [fillMembers]
  simp [bind, Except.bind, none, skip_closed closed]

theorem fillMembers_known (ind : Independent slots) (ht : t ∈ slots) :
    fillMembers (slots.map Slot.field) depth draft ((.ok t.name, x) :: ms) =
      if (t.get draft).isSome then .error .data
      else (t.read depth x).bind fun v =>
        fillMembers (slots.map Slot.field) depth (t.set v draft) ms := by
  rw [fillMembers]
  simp only [bind, Except.bind, find?_slot ind ht, Slot.field, field]
  split
  · rfl
  · cases t.read depth x <;> rfl

theorem Slot.Holds.readable (h : t.Holds depth ms draft) : t.Readable depth ms := by
  obtain ⟨no, -⟩ | ⟨x, v, one, read, -⟩ := h
  · constructor
    · simp [no]
    · simp [no]
  · constructor
    · simp [one]
    · simpa [one] using ⟨v, read⟩

theorem Slot.Holds.given {P : Outline → Prop} (h : t.Holds depth ms draft)
    (given : Given t.name P ms) :
    ∃ x v, valuesOf t.name ms = [x] ∧ t.read depth x = .ok v ∧ t.get draft = some v :=
  h.resolve_left fun no => given.some no.1

/-- What is filled from a draft in which a slot may be taken already. -/
theorem fillMembers_spec (ind : Independent slots) (closed : ClosedMembers ms)
    (h : fillMembers (slots.map Slot.field) depth draft ms = .ok draft') :
    KeysWhole ms ∧ ∀ t ∈ slots,
      (valuesOf t.name ms = [] ∧ t.get draft' = t.get draft) ∨
      (t.get draft = none ∧ ∃ x v, valuesOf t.name ms = [x] ∧ t.read depth x = .ok v ∧
        t.get draft' = some v) := by
  induction ms generalizing draft with
  | nil =>
    cases h
    exact ⟨List.forall_mem_nil _, fun _ _ => .inl ⟨rfl, rfl⟩⟩
  | cons m ms ih =>
    obtain ⟨_ | k, x⟩ := m
    · cases h
    · by_cases known : ∃ t ∈ slots, t.name = k
      · obtain ⟨t, ht, rfl⟩ := known
        rw [fillMembers_known ind ht] at h
        split at h
        · cases h
        · rename_i empty
          have empty : t.get draft = none := by simpa using empty
          obtain ⟨v, read, h⟩ := bind_eq_ok_iff.mp h
          obtain ⟨keys, rest⟩ := ih closed.2 h
          refine ⟨keysWhole_cons.mpr keys, fun u hu => ?_⟩
          by_cases same : t.name = u.name
          · obtain rfl := eq_of_name ind hu ht same
            refine .inr ⟨empty, x, v, ?_⟩
            -- A later member of the name would have found the slot taken.
            rcases rest t ht with ⟨no, kept⟩ | ⟨taken, -⟩
            · rw [valuesOf_cons_self, no, kept, ind.get_set t ht]
              exact ⟨rfl, read, rfl⟩
            · rw [ind.get_set t ht] at taken
              cases taken
          · have other := ind.get_set_ne t ht u hu (Ne.symm same) v draft
            rw [valuesOf_cons_of_ne same, ← other]
            exact rest u hu
      · have other : ∀ t ∈ slots, t.name ≠ k := fun t ht name => known ⟨t, ht, name⟩
        rw [fillMembers_unknown other closed.1] at h
        obtain ⟨keys, rest⟩ := ih closed.2 h
        refine ⟨keysWhole_cons.mpr keys, fun t ht => ?_⟩
        rw [valuesOf_cons_of_ne (other t ht).symm]
        exact rest t ht

theorem exists_fillMembers (ind : Independent slots) (closed : ClosedMembers ms)
    (keys : KeysWhole ms)
    (h : ∀ t ∈ slots, t.Readable depth ms ∧ (valuesOf t.name ms ≠ [] → t.get draft = none)) :
    ∃ draft', fillMembers (slots.map Slot.field) depth draft ms = .ok draft' := by
  induction ms generalizing draft with
  | nil => exact ⟨draft, rfl⟩
  | cons m ms ih =>
    obtain ⟨_ | k, x⟩ := m
    · obtain ⟨_, ⟨⟩⟩ := keys _ List.mem_cons_self
    · rw [keysWhole_cons] at keys
      by_cases known : ∃ t ∈ slots, t.name = k
      · obtain ⟨t, ht, rfl⟩ := known
        obtain ⟨⟨once, read⟩, empty⟩ := h t ht
        rw [valuesOf_cons_self] at once read empty
        have none : valuesOf t.name ms = [] := by simpa using once
        obtain ⟨v, read⟩ := read x List.mem_cons_self
        rw [fillMembers_known ind ht, empty (List.cons_ne_nil _ _), if_neg (by simp), read]
        refine ih closed.2 keys fun u hu => ?_
        by_cases same : t.name = u.name
        · obtain rfl := eq_of_name ind hu ht same
          exact ⟨⟨by simp [none], by simp [none]⟩, fun some => (some none).elim⟩
        · obtain ⟨⟨once, read⟩, empty⟩ := h u hu
          rw [valuesOf_cons_of_ne same] at once read empty
          rw [ind.get_set_ne t ht u hu (Ne.symm same)]
          exact ⟨⟨once, read⟩, empty⟩
      · have other : ∀ t ∈ slots, t.name ≠ k := fun t ht name => known ⟨t, ht, name⟩
        rw [fillMembers_unknown other closed.1]
        refine ih closed.2 keys fun t ht => ?_
        obtain ⟨⟨once, read⟩, empty⟩ := h t ht
        rw [valuesOf_cons_of_ne (other t ht).symm] at once read empty
        exact ⟨⟨once, read⟩, empty⟩

theorem holds_of_fillMembers (ind : Independent slots) (empty : ∀ t ∈ slots, t.get start = none)
    (closed : ClosedMembers ms)
    (h : fillMembers (slots.map Slot.field) depth start ms = .ok draft) :
    ∀ t ∈ slots, t.Holds depth ms draft := by
  intro t ht
  rcases (fillMembers_spec ind closed h).2 t ht with ⟨no, kept⟩ | ⟨-, one⟩
  · exact .inl ⟨no, kept.trans (empty t ht)⟩
  · exact .inr one

theorem record_spec (ind : Independent slots) (empty : ∀ t ∈ slots, t.get start = none)
    (closed : ClosedMembers ms)
    (h : record (slots.map Slot.field) start finish depth (.members ms none) = .ok r) :
    KeysWhole ms ∧ ∃ draft, (∀ t ∈ slots, t.Holds (depth - 1) ms draft) ∧
      finish .named draft = some r := by
  rw [record, bind_enter_eq_ok_iff, bind_eq_ok_iff] at h
  obtain ⟨-, draft, filled, h⟩ := h
  refine ⟨(fillMembers_spec ind closed filled).1, draft,
    holds_of_fillMembers ind empty closed filled, ?_⟩
  cases finished : finish .named draft with
  | none =>
    rw [finished] at h
    cases h
  | some r' =>
    rw [finished] at h
    cases h
    rfl

theorem exists_record_iff (ind : Independent slots) (empty : ∀ t ∈ slots, t.get start = none)
    (closed : ClosedMembers ms) (deep : 1 < depth)
    (complete : ∀ draft, (∀ t ∈ slots, t.Holds (depth - 1) ms draft) →
      ∃ r, finish .named draft = some r) :
    (∃ r, record (slots.map Slot.field) start finish depth (.members ms none) = .ok r) ↔
      KeysWhole ms ∧ ∀ t ∈ slots, t.Readable (depth - 1) ms := by
  constructor
  · rintro ⟨r, h⟩
    obtain ⟨keys, draft, holds, -⟩ := record_spec ind empty closed h
    exact ⟨keys, fun t ht => (holds t ht).readable⟩
  · rintro ⟨keys, readable⟩
    obtain ⟨draft, filled⟩ := exists_fillMembers ind closed keys
      fun t ht => ⟨readable t ht, fun _ => empty t ht⟩
    obtain ⟨r, finished⟩ := complete draft (holds_of_fillMembers ind empty closed filled)
    refine ⟨r, ?_⟩
    rw [record, bind_enter_eq_ok_iff, bind_eq_ok_iff]
    refine ⟨deep, draft, filled, ?_⟩
    rw [finished]
    rfl

end Records

/-! ## Other values -/

section Values

variable {α : Type} {read : Reader α} {depth : Nat} {x : Outline} {xs : List Outline}

theorem string_eq_ok_iff {s : String} : string depth x = .ok s ↔ x = .text (.ok s) := by
  constructor
  · intro h
    unfold string at h
    split at h
    · cases h
      rfl
    · cases h
  · rintro rfl
    rfl

theorem integer_eq_ok_iff {low high n : Int} : integer low high depth x = .ok n ↔
    x = .number (some (.int n)) ∧ low ≤ n ∧ n ≤ high := by
  constructor
  · intro h
    unfold integer at h
    split at h
    · split at h
      · cases h
        rename_i bounded
        exact ⟨rfl, by simpa using bounded⟩
      · cases h
    · cases h
  · rintro ⟨rfl, bounded⟩
    rw [integer, if_pos (by simpa using bounded)]

theorem option_eq_ok_iff {v : Option α} : option read depth x = .ok v ↔
    (x = .null ∧ v = none) ∨ (x ≠ .null ∧ ∃ a, read depth x = .ok a ∧ v = some a) := by
  unfold option
  split
  · simp [eq_comm]
  · rename_i present
    replace present : x ≠ .null := present
    cases read depth x with
    | error e => simp [Except.map, present]
    | ok a => simp [Except.map, present, eq_comm]

theorem exists_option_iff : (∃ v, option read depth x = .ok v) ↔
    x = .null ∨ ∃ a, read depth x = .ok a := by
  simp only [option_eq_ok_iff]
  constructor
  · rintro ⟨_, ⟨rfl, -⟩ | ⟨-, a, h, -⟩⟩
    · exact .inl rfl
    · exact .inr ⟨a, h⟩
  · intro h
    by_cases present : x = .null
    · exact ⟨none, .inl ⟨present, rfl⟩⟩
    · obtain ⟨a, h⟩ := h.resolve_left present
      exact ⟨some a, .inr ⟨present, a, h, rfl⟩⟩

theorem exists_json_iff (closed : x.Closed) (positive : 0 < depth) :
    (∃ v, json depth x = .ok v) ↔ IsFree (depth - 1) x := by
  have read : ∀ v, json depth x = .ok v ↔ x.value? = some v ∧ x.levels < depth :=
    fun v => readJson_eq_ok_iff closed positive
  simp only [read, exists_and_right, IsFree, Option.isSome_iff_exists]
  rw [Nat.lt_iff_le_pred positive]

theorem exists_option_json_iff (closed : x.Closed) (positive : 0 < depth) :
    (∃ v, option json depth x = .ok v) ↔ IsFree (depth - 1) x := by
  rw [exists_option_iff, exists_json_iff closed positive]
  constructor
  · rintro (rfl | h)
    · exact ⟨rfl, Nat.zero_le _⟩
    · exact h
  · exact .inr

theorem listFrom_eq_ok_iff {vs : List α} : listFrom read depth xs = .ok vs ↔
    List.Forall₂ (fun x v => read depth x = .ok v) xs vs := by
  induction xs generalizing vs with
  | nil => simp [listFrom, eq_comm]
  | cons x xs ih =>
    rw [listFrom, bind_eq_ok_iff, List.forall₂_cons_left_iff]
    constructor
    · rintro ⟨v, first, h⟩
      obtain ⟨later, rest, h⟩ := bind_eq_ok_iff.mp h
      cases h
      exact ⟨v, later, first, ih.mp rest, rfl⟩
    · rintro ⟨v, later, first, rest, rfl⟩
      exact ⟨v, first, bind_eq_ok_iff.mpr ⟨later, ih.mpr rest, rfl⟩⟩

theorem list_eq_ok_iff {vs : List α} : list read depth (.items xs none) = .ok vs ↔
    1 < depth ∧ List.Forall₂ (fun x v => read (depth - 1) x = .ok v) xs vs := by
  rw [list, bind_enter_eq_ok_iff, bind_eq_ok_iff]
  refine and_congr_right fun _ => ?_
  constructor
  · rintro ⟨vs', read, h⟩
    cases h
    exact listFrom_eq_ok_iff.mp read
  · exact fun h => ⟨vs, listFrom_eq_ok_iff.mpr h, rfl⟩

theorem exists_listFrom_iff : (∃ vs, listFrom read depth xs = .ok vs) ↔
    ∀ x ∈ xs, ∃ v, read depth x = .ok v := by
  simp only [listFrom_eq_ok_iff]
  induction xs with
  | nil => simp
  | cons x xs ih =>
    rw [List.forall_mem_cons, ← ih]
    constructor
    · rintro ⟨_, h⟩
      cases h with
      | cons first rest => exact ⟨⟨_, first⟩, _, rest⟩
    · rintro ⟨⟨v, first⟩, vs, rest⟩
      exact ⟨v :: vs, .cons first rest⟩

theorem exists_list_iff (closed : x.Closed) (deep : 1 < depth) :
    (∃ vs, list read depth x = .ok vs) ↔ ListOf (fun y => ∃ v, read (depth - 1) y = .ok v) x := by
  cases x with
  | items xs close =>
    obtain ⟨rfl, -⟩ := closed
    simp only [list_eq_ok_iff, deep, true_and, ← listFrom_eq_ok_iff, exists_listFrom_iff]
    constructor
    · intro h
      exact ⟨xs, rfl, h⟩
    · rintro ⟨_, ⟨⟩, h⟩
      exact h
  | _ =>
    constructor
    · rintro ⟨_, ⟨⟩⟩
    · rintro ⟨_, ⟨⟩, _⟩

/-- A list of objects, each of which is read exactly if it has a property. -/
theorem exists_objects_iff {P Q : Members → Prop} (closed : x.Closed) (deep : 1 < depth)
    (h : x = .null ∨ ListOf (ObjectOf P) x)
    (each : ∀ ms, P ms → ClosedMembers ms →
      ((∃ v, read (depth - 1) (.members ms none) = .ok v) ↔ Q ms)) :
    (∃ vs, list read depth x = .ok vs) ↔ ListOf (ObjectOf Q) x := by
  rw [exists_list_iff closed deep]
  refine ListOf.congr closed ?_
  rintro xs rfl y hy closed
  obtain ⟨_, ⟨⟩, objects⟩ := h.resolve_left Outline.noConfusion
  obtain ⟨ms, rfl, hms⟩ := objects y hy
  rw [each ms hms closed.2]
  simp [ObjectOf]

/-- What is read as an optional value: `null` is none. -/
theorem option_json_eq {v : Option Json} (closed : x.Closed) (positive : 0 < depth)
    (h : option json depth x = .ok v) : v = x.value?.filter (!·.isNull) := by
  obtain ⟨rfl, rfl⟩ | ⟨present, j, read, rfl⟩ := option_eq_ok_iff.mp h
  · rfl
  · have value := ((readJson_eq_ok_iff closed positive).mp read).1
    rw [value, Option.filter_some, if_pos]
    cases j with
    | null => exact absurd (value?_eq_null value) present
    | _ => rfl

theorem text_of_spelt {s : String} (h : Spelt s x) : text read s = read budget x := by
  rw [text, ofText_of_spelt h]
  show (read budget x >>= fun v => pure v) = read budget x
  exact bind_pure _

end Values

end Reader

end SchemaClient.Json
