import Mathlib.Data.List.Nodup
import Mathlib.Data.List.Perm.Subperm
import SchemaClient.Names.Identifier

/-!
# Claimed names

A scope gives every name out once. The search for a free number ends in time, since the numbers it
passes over stand for names of the scope, and these are no more than the scope is long.
-/

namespace SchemaClient.Names

variable {taken names : List String} {name x : String}

theorem numbered_toList (name : String) (n : Nat) :
    (numbered name n).toList = name.toList ++ '_' :: Nat.toDigits 10 n := by
  simp [numbered]

theorem numbered_injective {i j : Nat} (h : numbered name i = numbered name j) : i = j := by
  have hdigits := congrArg String.toList h
  rw [numbered_toList, numbered_toList, List.append_cancel_left_eq, List.cons.injEq] at hdigits
  have hvalue := congrArg (fun ds => Nat.ofDigitChars 10 ds 0) hdigits.2
  simpa using hvalue

/-- The numbers that a scope leaves no room for are no more than the names in it. -/
theorem length_le_of_numbered {n k : Nat} (h : ∀ i < k, numbered name (n + i) ∈ taken) :
    k ≤ taken.length := by
  have distinct : ((List.range k).map fun i => numbered name (n + i)).Nodup := by
    refine List.Nodup.map_on ?_ List.nodup_range
    intro i _ j _ hij
    have := numbered_injective hij
    omega
  have inside : ((List.range k).map fun i => numbered name (n + i)) ⊆ taken := by
    intro x hx
    obtain ⟨i, hi, rfl⟩ := List.mem_map.mp hx
    exact h i (List.mem_range.mp hi)
  have bound := (List.subperm_of_subset distinct inside).length_le
  rwa [List.length_map, List.length_range] at bound

/-- The search stops at the first free number, or when its tries are used up. -/
theorem firstFree_spec (taken : Scope) (name : String) (tries n : Nat) :
    ∃ k ≤ tries, firstFree taken name tries n = numbered name (n + k) ∧
      (∀ i < k, numbered name (n + i) ∈ taken) ∧
      (k < tries → numbered name (n + k) ∉ taken) := by
  induction tries generalizing n with
  | zero => exact ⟨0, Nat.le_refl _, rfl, by simp, by simp⟩
  | succ tries ih =>
    rw [firstFree]
    split
    · rename_i hn
      obtain ⟨k, hk, hfound, hbefore, hfree⟩ := ih (n + 1)
      refine ⟨k + 1, by omega, by rw [hfound, Nat.add_right_comm, Nat.add_assoc], ?_, ?_⟩
      · intro i hi
        cases i with
        | zero => simpa using hn
        | succ i =>
          have := hbefore i (by omega)
          rwa [Nat.add_right_comm] at this
      · intro h
        have := hfree (by omega)
        rwa [Nat.add_right_comm] at this
    · rename_i hn
      exact ⟨0, Nat.zero_le _, rfl, by simp, fun _ => by simpa using hn⟩

theorem firstFree_not_mem (taken : Scope) (name : String) (n : Nat) :
    firstFree taken name taken.length n ∉ taken := by
  obtain ⟨k, hk, hfound, hbefore, hfree⟩ := firstFree_spec taken name taken.length n
  rw [hfound]
  rcases Nat.lt_or_ge k taken.length with hlt | hge
  · exact hfree hlt
  · intro hmem
    -- All tries were used up, so that the scope would hold one name more than it is long.
    have all : ∀ i < k + 1, numbered name (n + i) ∈ taken := by
      intro i hi
      rcases Nat.lt_or_ge i k with hik | hik
      · exact hbefore i hik
      · obtain rfl : i = k := by omega
        exact hmem
    have := length_le_of_numbered all
    omega

theorem claim_of_not_mem (h : name ∉ taken) : claim taken name = name := by
  rw [claim, if_neg (by simpa using h)]

theorem claim_not_mem (taken : Scope) (name : String) : claim taken name ∉ taken := by
  rw [claim]
  split
  · exact firstFree_not_mem taken name 2
  · rename_i h
    simpa using h

/-- A claimed name is the name itself or the name with a number. -/
theorem claim_eq (taken : Scope) (name : String) :
    claim taken name = name ∨ ∃ n, claim taken name = numbered name n := by
  rw [claim]
  split
  · obtain ⟨k, -, hfound, -⟩ := firstFree_spec taken name taken.length 2
    exact .inr ⟨2 + k, hfound⟩
  · exact .inl rfl

theorem claimAll_length (taken : Scope) (names : List String) :
    (claimAll taken names).length = names.length := by
  induction names generalizing taken with
  | nil => rfl
  | cons name names ih => rw [claimAll, List.length_cons, List.length_cons, ih]

theorem claimAll_not_mem (h : x ∈ claimAll taken names) : x ∉ taken := by
  induction names generalizing taken with
  | nil => cases h
  | cons name names ih =>
    rcases List.mem_cons.mp h with rfl | h
    · exact claim_not_mem taken name
    · exact fun hx => ih h (List.mem_cons_of_mem _ hx)

theorem claimAll_nodup (taken : Scope) (names : List String) : (claimAll taken names).Nodup := by
  induction names generalizing taken with
  | nil => exact List.nodup_nil
  | cons name names ih =>
    exact List.nodup_cons.mpr ⟨fun h => claimAll_not_mem h List.mem_cons_self, ih _⟩

theorem eq_of_mem_claimAll (h : x ∈ claimAll taken names) :
    ∃ name ∈ names, x = name ∨ ∃ n, x = numbered name n := by
  induction names generalizing taken with
  | nil => cases h
  | cons name names ih =>
    rcases List.mem_cons.mp h with rfl | h
    · exact ⟨name, List.mem_cons_self, claim_eq taken name⟩
    · obtain ⟨other, hother, heq⟩ := ih h
      exact ⟨other, List.mem_cons_of_mem _ hother, heq⟩

/-- A name that is free at first is given out to the first who claims it. -/
theorem mem_claimAll (h : x ∈ names) (free : x ∉ taken) : x ∈ claimAll taken names := by
  induction names generalizing taken with
  | nil => cases h
  | cons name names ih =>
    rw [claimAll]
    by_cases hx : x = claim taken name
    · rw [← hx]
      exact List.mem_cons_self
    · rcases List.mem_cons.mp h with rfl | h
      · exact absurd (claim_of_not_mem free).symm hx
      · refine List.mem_cons_of_mem _ (ih h ?_)
        rw [List.mem_cons, not_or]
        exact ⟨hx, free⟩

end SchemaClient.Names
