import SchemaClient.Proofs.Text.Characters
import SchemaClient.Proofs.Text.Scanning
import SchemaClient.Source.Analysis

/-!
# What is no noise

Block strings, directives and comments begin with characters of their own. A text without these
is left as it is.
-/

namespace SchemaClient.Source

open Text

variable {c : Char} {cs : List Char}

theorem blockString_cons (h : c ≠ '"') (cs : List Char) : blockString (c :: cs) = none := by
  unfold blockString
  split
  · rename_i heq
    exact absurd (List.cons.inj heq).1 h
  · rfl

theorem directiveWithArguments_cons (h : c ≠ '@') (cs : List Char) :
    directiveWithArguments (c :: cs) = none := by
  unfold directiveWithArguments
  split
  · rename_i heq
    exact absurd (List.cons.inj heq).1 h
  · rfl

theorem directive_cons (h : c ≠ '@') (cs : List Char) : directive (c :: cs) = none := by
  unfold directive
  split
  · rename_i heq
    exact absurd (List.cons.inj heq).1 h
  · rfl

theorem comment_cons (h : c ≠ '#') (cs : List Char) : comment (c :: cs) = none := by
  unfold comment
  split
  · rename_i heq
    exact absurd (List.cons.inj heq).1 h
  · rfl

/-- No character of the text begins noise. -/
def Quiet (cs : List Char) : Prop :=
  ∀ c ∈ cs, c ≠ '"' ∧ c ≠ '@' ∧ c ≠ '#'

/-- A character of a class without the beginnings of noise is none of these. -/
theorem plain_of_apply {p : Char → Bool} (h : p c = true)
    (plain : p '"' = false ∧ p '@' = false ∧ p '#' = false) : c ≠ '"' ∧ c ≠ '@' ∧ c ≠ '#' :=
  ⟨ne_of_apply h plain.1, ne_of_apply h plain.2.1, ne_of_apply h plain.2.2⟩

theorem erase_of_none {p : List Char → Option Nat} (h : ∀ c ∈ cs, ∀ ds, p (c :: ds) = none) :
    erase p cs = cs := by
  have := erase_pass h []
  simpa [erase, eraseFrom] using this

theorem withoutNoise_of_quiet (h : Quiet cs) : withoutNoise cs = cs := by
  rw [withoutNoise, erase_of_none fun c hc => blockString_cons (h c hc).1,
    erase_of_none fun c hc => directiveWithArguments_cons (h c hc).2.1,
    erase_of_none fun c hc => directive_cons (h c hc).2.1,
    erase_of_none fun c hc => comment_cons (h c hc).2.2]

theorem normalise_of_ne_nil (h : normal cs ≠ []) :
    normalise (String.ofList cs) = .ok (String.ofList (normal cs)) := by
  obtain ⟨d, ds, hd⟩ := List.exists_cons_of_ne_nil h
  rw [normalise, String.toList_ofList, hd]

theorem analyse_of_ne_nil (h : normal cs ≠ []) :
    analyse (String.ofList cs) = .ok (modelOf (String.ofList (normal cs))) := by
  rw [analyse, normalise_of_ne_nil h]
  rfl

end SchemaClient.Source
