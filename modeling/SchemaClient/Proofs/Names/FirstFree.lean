import SchemaClient.Proofs.Names.Claims

/-!
# Claims one after the other

The search for a free number as it runs without a bound, and what each of many claims gives out
given the names that are taken before it. Of these only the set counts, not their order and not how
often a name is among them. The bounded search comes to the same end.
-/

namespace SchemaClient.Names

/-- From the number `n` on, a search without a bound ends at `x` after some tries. -/
inductive Search (taken : Scope) (name : String) : (n tries : Nat) → (x : String) → Prop
  | free {n} (free : numbered name n ∉ taken) : Search taken name n 1 (numbered name n)
  | next {n tries x} (used : numbered name n ∈ taken) (rest : Search taken name (n + 1) tries x) :
      Search taken name n (tries + 1) x

/-- A claim ends at `x` after some tries, of which the first is that of the name itself. -/
inductive GivesOut (taken : Scope) (name : String) : (tries : Nat) → (x : String) → Prop
  | own (free : name ∉ taken) : GivesOut taken name 1 name
  | search {tries x} (used : name ∈ taken) (rest : Search taken name 2 tries x) :
      GivesOut taken name (tries + 1) x

/-- `x` is the name where that is free, and else the name with the least number from 2 on that
makes a free one. -/
structure FirstFree (taken : Scope) (name x : String) : Prop where
  own : name ∉ taken → x = name
  least : name ∈ taken → ∃ n, 2 ≤ n ∧ x = name ++ "_" ++ toString n ∧ x ∉ taken ∧
    ∀ k, 2 ≤ k → k < n → name ++ "_" ++ toString k ∈ taken

variable {taken taken' names : List String} {name x : String} {n tries : Nat}

/-! ## One search -/

theorem search_of_used {k : Nat} (used : ∀ i < k, numbered name (n + i) ∈ taken)
    (free : numbered name (n + k) ∉ taken) :
    Search taken name n (k + 1) (numbered name (n + k)) := by
  induction k generalizing n with
  | zero => exact .free free
  | succ k ih =>
    have first : numbered name n ∈ taken := used 0 (by omega)
    have shift (i : Nat) : n + (i + 1) = n + 1 + i := by omega
    rw [shift] at free ⊢
    refine .next first (ih (fun i hi => ?_) free)
    rw [← shift]
    exact used (i + 1) (by omega)

theorem exists_of_search (h : Search taken name n tries x) :
    ∃ k, tries = k + 1 ∧ x = numbered name (n + k) ∧ x ∉ taken ∧
      ∀ i < k, numbered name (n + i) ∈ taken := by
  induction h with
  | free free => exact ⟨0, rfl, rfl, free, fun i hi => absurd hi (Nat.not_lt_zero i)⟩
  | @next n tries x used _ ih =>
    obtain ⟨k, rfl, rfl, free, before⟩ := ih
    have shift (i : Nat) : n + 1 + i = n + (i + 1) := by omega
    refine ⟨k + 1, rfl, by rw [shift], free, fun i hi => ?_⟩
    cases i with
    | zero => exact used
    | succ i =>
      rw [← shift]
      exact before i (by omega)

theorem Search.congr (same : ∀ y, y ∈ taken ↔ y ∈ taken') (h : Search taken name n tries x) :
    Search taken' name n tries x := by
  induction h with
  | free free => exact .free fun used => free ((same _).mpr used)
  | next used _ ih => exact .next ((same _).mp used) ih

theorem Search.unique {tries' : Nat} {y : String} (h : Search taken name n tries x)
    (h' : Search taken name n tries' y) : tries = tries' ∧ x = y := by
  induction h generalizing tries' with
  | free free =>
    cases h' with
    | free => exact ⟨rfl, rfl⟩
    | next used => exact absurd used free
  | next used _ ih =>
    cases h' with
    | free free => exact absurd used free
    | next _ rest =>
      obtain ⟨rfl, rfl⟩ := ih rest
      exact ⟨rfl, rfl⟩

/-- The bounded search stops at a free number, with no more tries than there are names. -/
theorem search_firstFree (taken : Scope) (name : String) (n : Nat) :
    ∃ tries ≤ taken.length + 1,
      Search taken name n tries (firstFree taken name taken.length n) := by
  obtain ⟨k, hk, found, before, -⟩ := firstFree_spec taken name taken.length n
  have free := firstFree_not_mem taken name n
  rw [found] at free ⊢
  exact ⟨k + 1, by omega, search_of_used before free⟩

/-! ## One claim -/

theorem GivesOut.congr (same : ∀ y, y ∈ taken ↔ y ∈ taken') (h : GivesOut taken name tries x) :
    GivesOut taken' name tries x := by
  cases h with
  | own free => exact .own fun used => free ((same _).mpr used)
  | search used rest => exact .search ((same _).mp used) (rest.congr same)

theorem GivesOut.unique {tries' : Nat} {y : String} (h : GivesOut taken name tries x)
    (h' : GivesOut taken name tries' y) : x = y := by
  cases h with
  | own free =>
    cases h' with
    | own => rfl
    | search used => exact absurd used free
  | search used rest =>
    cases h' with
    | own free => exact absurd used free
    | search _ rest' => exact (rest.unique rest').2

theorem GivesOut.firstFree (h : GivesOut taken name tries x) : FirstFree taken name x := by
  cases h with
  | own free => exact ⟨fun _ => rfl, fun used => absurd used free⟩
  | search used rest =>
    refine ⟨fun free => absurd used free, fun _ => ?_⟩
    obtain ⟨k, -, rfl, free, before⟩ := exists_of_search rest
    refine ⟨2 + k, by omega, rfl, free, fun j low high => ?_⟩
    have := before (j - 2) (by omega)
    rwa [show 2 + (j - 2) = j by omega] at this

/-- Every claim comes to an end. -/
theorem givesOut_claim (taken : Scope) (name : String) :
    ∃ tries ≤ taken.length + 2, GivesOut taken name tries (claim taken name) := by
  by_cases used : name ∈ taken
  · obtain ⟨tries, bound, rest⟩ := search_firstFree taken name 2
    rw [claim, if_pos (by simpa using used)]
    exact ⟨tries + 1, by omega, .search used rest⟩
  · rw [claim_of_not_mem used]
    exact ⟨1, by omega, .own used⟩

theorem claim_congr (same : ∀ y, y ∈ taken ↔ y ∈ taken') (name : String) :
    claim taken name = claim taken' name := by
  obtain ⟨_, -, h⟩ := givesOut_claim taken name
  obtain ⟨_, -, h'⟩ := givesOut_claim taken' name
  exact (h.congr same).unique h'

/-! ## Many claims -/

theorem claimAll_congr (same : ∀ y, y ∈ taken ↔ y ∈ taken') (names : List String) :
    claimAll taken names = claimAll taken' names := by
  induction names generalizing taken taken' with
  | nil => rfl
  | cons name names ih =>
    rw [claimAll, claimAll, claim_congr same]
    refine congrArg _ (ih fun y => ?_)
    rw [List.mem_cons, List.mem_cons, same]

/-- Each claim is made in the scope of what is taken at first and of what was given out. -/
theorem getElem?_claimAll {i : Nat} (h : names[i]? = some name) :
    (claimAll taken names)[i]? = some (claim (taken ++ (claimAll taken names).take i) name) := by
  induction names generalizing taken i with
  | nil => cases h
  | cons first names ih =>
    cases i with
    | zero =>
      obtain rfl : first = name := by simpa using h
      simp [claimAll]
    | succ i =>
      rw [List.getElem?_cons_succ] at h
      rw [claimAll, List.getElem?_cons_succ, List.take_succ_cons, ih h]
      refine congrArg _ (claim_congr (fun y => ?_) name)
      simp only [List.mem_append, List.mem_cons, or_left_comm, or_assoc]

/-- Names are claimed one after the other. Each claim ends, with the first name that is free at that
moment; none of them is reserved and none is given out twice. The order of the reserved names makes
no difference, nor does a repetition. -/
theorem claimAll_firstFree (reserved names : List String) :
    (claimAll reserved names).length = names.length ∧ (claimAll reserved names).Nodup ∧
    (∀ x ∈ claimAll reserved names, x ∉ reserved) ∧
    (∀ reserved' : List String, (∀ x, x ∈ reserved' ↔ x ∈ reserved) →
      claimAll reserved' names = claimAll reserved names) ∧
    ∀ i name, names[i]? = some name →
      let before := reserved ++ (claimAll reserved names).take i
      ∃ x, (claimAll reserved names)[i]? = some x ∧ FirstFree before name x ∧
        (∃ tries ≤ before.length + 2, GivesOut before name tries x) ∧
        ∀ tries y, GivesOut before name tries y → y = x := by
  refine ⟨claimAll_length _ _, claimAll_nodup _ _, fun x => claimAll_not_mem,
    fun reserved' same => claimAll_congr same names, ?_⟩
  intro i name h before
  obtain ⟨tries, bound, given⟩ := givesOut_claim before name
  exact ⟨claim before name, getElem?_claimAll h, given.firstFree, ⟨tries, bound, given⟩,
    fun _ y other => other.unique given⟩

/-- The numbers 2 and 3 are passed over, since one is given out and one reserved. -/
theorem claimAll_firstFree_fourth :
    (claimAll ["x_3"] ["x", "x", "x_2", "x"])[3]? = some "x_4" ∧
      FirstFree ["x_3", "x", "x_2", "x_2_2"] "x" "x_4" := by
  have value : (claimAll ["x_3"] ["x", "x", "x_2", "x"])[3]? = some "x_4" := by decide +kernel
  have before : ["x_3"] ++ (claimAll ["x_3"] ["x", "x", "x_2", "x"]).take 3 =
      ["x_3", "x", "x_2", "x_2_2"] := by decide +kernel
  obtain ⟨-, -, -, -, each⟩ := claimAll_firstFree ["x_3"] ["x", "x", "x_2", "x"]
  obtain ⟨x, hx, first, -⟩ := each 3 "x" rfl
  obtain rfl : "x_4" = x := Option.some.inj (value.symm.trans hx)
  rw [before] at first
  exact ⟨value, first⟩

end SchemaClient.Names
