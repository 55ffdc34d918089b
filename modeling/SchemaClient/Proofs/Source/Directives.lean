import SchemaClient.Proofs.Source.HeaderScan
import SchemaClient.Proofs.Source.Marks
import SchemaClient.Proofs.Source.Noise

/-!
# Texts with directives

A text may hold directives besides what it says. They are dropped with their arguments, block
strings in these included, and everything else stays.
-/

namespace SchemaClient.Source

open Text

/-- The first text says what the second one says, and has directives besides. What stands in their
parentheses satisfies `inner`. -/
inductive Bare (inner : List Char → Prop) : List Char → List Char → Prop
  | nil : Bare inner [] []
  | char {c : Char} {cs bare : List Char} :
      c ≠ '"' ∧ c ≠ '@' ∧ c ≠ '#' → Bare inner cs bare → Bare inner (c :: cs) (c :: bare)
  | named {name cs bare : List Char} :
      IsWord name → Stops joinsDirective cs → Stops joinsDirective bare → Bare inner cs bare →
      Bare inner ('@' :: (name ++ cs)) bare
  | arguments {name args cs bare : List Char} :
      IsWord name → inner args → Bare inner cs bare →
      Bare inner ('@' :: (name ++ '(' :: (args ++ ')' :: cs))) bare

/-- Arguments that end with the first parenthesis outside of block strings. -/
def Enclosed (args : List Char) : Prop :=
  strings.endsOpen args = false ∧ ')' ∉ erase blockString args

instance (args : List Char) : Decidable (Enclosed args) :=
  inferInstanceAs (Decidable (_ ∧ _))

namespace Bare

variable {inner : List Char → Prop} {p : Char → Bool} {cs bare u r name args : List Char} {c : Char}

theorem head_ne_quote (h : Bare inner (c :: cs) bare) : c ≠ '"' := by
  cases h with
  | char hc _ => exact hc.1
  | named _ _ _ _ => decide
  | arguments _ _ _ => decide

theorem quiet_append (hu : Quiet u) (h : Bare inner cs bare) :
    Bare inner (u ++ cs) (u ++ bare) := by
  induction u with
  | nil => exact h
  | cons c u ih =>
    exact .char (hu c List.mem_cons_self) (ih fun d hd => hu d (List.mem_cons_of_mem c hd))

theorem of_quiet (hu : Quiet u) : Bare inner u u := by
  have h : Bare inner (u ++ []) (u ++ []) := quiet_append hu .nil
  rwa [List.append_nil] at h

theorem append (h : Bare inner cs bare) (hr : Quiet r) (seam : Stops joinsDirective r) :
    Bare inner (cs ++ r) (bare ++ r) := by
  induction h with
  | nil => exact of_quiet hr
  | char hc _ ih => exact .char hc ih
  | named hn hcs hbare _ ih =>
    rw [List.cons_append, List.append_assoc]
    exact .named hn (hcs.append seam) (hbare.append seam) ih
  | arguments hn ha _ ih =>
    simp only [List.cons_append, List.append_assoc]
    exact .arguments hn ha ih

theorem name_ne (hn : IsWord name) {d : Char} (hd : isNameChar d = false) : ∀ c ∈ name, c ≠ d :=
  fun c hc => ne_of_apply (hn.2 c hc) hd

theorem stops_erase_blockString (h : Bare inner cs bare) (hcs : Stops p cs) :
    Stops p (erase blockString cs) := by
  cases cs with
  | nil => exact Stops.nil
  | cons c cs =>
    rw [erase_cons_of_none (blockString_cons h.head_ne_quote cs)]
    exact Stops.cons hcs.head

/-- Without block strings, the arguments end with the first parenthesis. -/
theorem erase_blockString (h : Bare Enclosed cs bare) :
    Bare (fun args => ')' ∉ args) (erase blockString cs) bare := by
  induction h with
  | nil => exact .nil
  | @char c cs bare hc _ ih =>
    rw [erase_cons_of_none (blockString_cons hc.1 cs)]
    exact .char hc ih
  | @named name cs bare hn hcs hbare h ih =>
    rw [erase_cons_of_none (blockString_cons (by decide) _),
      erase_pass (fun c hc => blockString_cons (name_ne hn (by decide) c hc))]
    exact .named hn (h.stops_erase_blockString hcs) hbare ih
  | @arguments name args cs bare hn ha h ih =>
    have close : Stops strings.joins (')' :: cs) := Stops.cons rfl
    rw [erase_cons_of_none (blockString_cons (by decide) _),
      erase_pass (fun c hc => blockString_cons (name_ne hn (by decide) c hc)),
      erase_cons_of_none (blockString_cons (by decide) _),
      Delimited.erase_append_of_shut ha.1 close,
      erase_cons_of_none (blockString_cons (by decide) _)]
    exact .arguments hn ha.2 ih

theorem directiveWithArguments_named (hn : IsWord name) (hcs : Stops joinsDirective cs) :
    directiveWithArguments ('@' :: (name ++ cs)) = none := by
  have hname : Stops isNameChar cs := hcs.mono fun c hc => by simp [joinsDirective, hc]
  have hopen : Stops (· = '(') cs := hcs.mono fun c hc => by simp_all [joinsDirective]
  simp only [directiveWithArguments, run?_run hn.1 hn.2 hname, Option.bind_eq_bind,
    Option.bind_some]
  cases cs with
  | nil => rfl
  | cons c cs =>
    have hc : '(' ≠ c := by
      rintro rfl
      cases hopen.head
    simp [parenthesised?_eq, after?, hc]

theorem directiveWithArguments_arguments (hn : IsWord name) (ha : ')' ∉ args) (cs : List Char) :
    directiveWithArguments ('@' :: (name ++ '(' :: (args ++ ')' :: cs))) =
      some ('@' :: (name ++ '(' :: (args ++ [')']))).length := by
  have found : argumentsAt? ('@' :: (name ++ '(' :: (args ++ ')' :: cs))) =
      some (name.length + 2, args ++ ')' :: cs) := by
    have hopen : Stops isNameChar ('(' :: (args ++ ')' :: cs)) := Stops.cons rfl
    simp [argumentsAt?, after?, run?_run hn.1 hn.2 hopen]
  have close : parenthesisAhead (args ++ ')' :: cs) = some (args.length + 1) := by
    rw [parenthesisAhead_append ha, parenthesisAhead_cons, if_pos rfl, Option.map_some]
  simp only [directiveWithArguments_eq, found, Option.bind_some, close, Option.map_some,
    List.length_cons, List.length_append, List.length_nil]
  exact congrArg some (by omega)

/-- What has directives begins with one or with what it says. -/
theorem stops_of_bare (h : Bare inner cs bare) (hp : p '@' = false) (hbare : Stops p bare) :
    Stops p cs := by
  cases h with
  | nil => exact Stops.nil
  | char _ _ => exact Stops.cons hbare.head
  | named _ _ _ _ => exact Stops.cons hp
  | arguments _ _ _ => exact Stops.cons hp

theorem erase_arguments (h : Bare (fun args => ')' ∉ args) cs bare) :
    Bare (fun _ => False) (erase directiveWithArguments cs) bare := by
  induction h with
  | nil => exact .nil
  | @char c cs bare hc _ ih =>
    rw [erase_cons_of_none (directiveWithArguments_cons hc.2.1 cs)]
    exact .char hc ih
  | @named name cs bare hn hcs hbare _ ih =>
    rw [erase_cons_of_none (directiveWithArguments_named hn hcs),
      erase_pass (fun c hc => directiveWithArguments_cons (name_ne hn (by decide) c hc))]
    exact .named hn (ih.stops_of_bare rfl hbare) hbare ih
  | @arguments name args cs bare hn ha _ ih =>
    have found := directiveWithArguments_arguments hn ha cs
    have shape : '@' :: (name ++ '(' :: (args ++ ')' :: cs)) =
        '@' :: (name ++ '(' :: (args ++ [')'])) ++ cs := by simp
    rw [shape] at found ⊢
    rw [erase_match (by simp) found]
    exact ih

theorem erase_names (h : Bare (fun _ => False) cs bare) : erase directive cs = bare := by
  induction h with
  | nil => rfl
  | @char c cs bare hc _ ih => rw [erase_cons_of_none (directive_cons hc.2.1 cs), ih]
  | @named name cs bare hn hcs _ _ ih =>
    have hname : Stops isNameChar cs := hcs.mono fun c hc => by simp [joinsDirective, hc]
    have found : directive ('@' :: name ++ cs) = some ('@' :: name).length := by
      simp [directive, run?_run hn.1 hn.2 hname]
    rw [← List.cons_append, erase_match (by simp) found, ih]
  | arguments _ ha => exact ha.elim

theorem quiet (h : Bare inner cs bare) : Quiet bare := by
  induction h with
  | nil => simp [Quiet]
  | char hc _ ih =>
    intro d hd
    rcases List.mem_cons.mp hd with rfl | hd
    · exact hc
    · exact ih d hd
  | named _ _ _ _ ih => exact ih
  | arguments _ _ _ ih => exact ih

theorem withoutNoise_eq (h : Bare Enclosed cs bare) : withoutNoise cs = bare := by
  rw [withoutNoise, h.erase_blockString.erase_arguments.erase_names,
    erase_of_none fun c hc => comment_cons (h.quiet c hc).2.2]

end Bare

end SchemaClient.Source
