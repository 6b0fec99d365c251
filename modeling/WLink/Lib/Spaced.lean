import Mathlib.Tactic.TypeStar
import Mathlib.Data.List.Basic

/-!
# Tokens and gaps

A text is the tokens of a language one after the other, with a gap in front of each: blanks,
comments, or nothing. `Spaced Gap toks rest text` says so of a text with `rest` behind the last
token.
-/

namespace WLink.Lib

variable {α : Type*} {Gap Gap' : List α → Prop}

/-- The tokens, each behind a gap, and then the rest. -/
inductive Spaced (Gap : List α → Prop) : List (List α) → List α → List α → Prop
  | nil (rest : List α) : Spaced Gap [] rest rest
  | cons {gap tok rest text : List α} {toks : List (List α)} (hgap : Gap gap)
      (h : Spaced Gap toks rest text) : Spaced Gap (tok :: toks) rest (gap ++ (tok ++ text))

section

variable {toks toks' : List (List α)} {tok rest mid text : List α}

theorem spaced_nil : Spaced Gap [] rest text ↔ text = rest := by
  constructor
  · rintro ⟨⟩
    rfl
  · rintro rfl
    exact .nil text

theorem spaced_cons : Spaced Gap (tok :: toks) rest text ↔
    ∃ gap text', Gap gap ∧ text = gap ++ (tok ++ text') ∧ Spaced Gap toks rest text' := by
  constructor
  · intro h
    cases h with
    | cons hgap h => exact ⟨_, _, hgap, rfl, h⟩
  · rintro ⟨gap, text', hgap, rfl, h⟩
    exact .cons hgap h

/-- Tokens behind others. -/
theorem Spaced.append (h : Spaced Gap toks mid text) (h' : Spaced Gap toks' rest mid) :
    Spaced Gap (toks ++ toks') rest text := by
  induction h with
  | nil => exact h'
  | cons hgap _ ih => exact .cons hgap (ih h')

theorem spaced_append : Spaced Gap (toks ++ toks') rest text ↔
    ∃ mid, Spaced Gap toks mid text ∧ Spaced Gap toks' rest mid := by
  constructor
  · intro h
    induction toks generalizing text with
    | nil => exact ⟨text, .nil text, h⟩
    | cons tok toks ih =>
      obtain ⟨gap, text', hgap, rfl, htail⟩ := spaced_cons.mp h
      obtain ⟨mid, hmid, hrest⟩ := ih htail
      exact ⟨mid, .cons hgap hmid, hrest⟩
  · rintro ⟨mid, hmid, hrest⟩
    exact hmid.append hrest

theorem Spaced.mono (h : Spaced Gap toks rest text) (hgap : ∀ gap, Gap gap → Gap' gap) :
    Spaced Gap' toks rest text := by
  induction h with
  | nil => exact .nil _
  | cons hg _ ih => exact .cons (hgap _ hg) ih

theorem Spaced.length_le (h : Spaced Gap toks rest text) : rest.length ≤ text.length := by
  induction h with
  | nil => exact Nat.le_refl _
  | cons _ _ ih =>
    rw [List.length_append, List.length_append]
    omega

/-- More in front of the first token. -/
theorem Spaced.before {gap : List α}
    (happend : ∀ {gap gap' : List α}, Gap gap → Gap gap' → Gap (gap ++ gap')) (hgap : Gap gap)
    (h : Spaced Gap (tok :: toks) rest text) : Spaced Gap (tok :: toks) rest (gap ++ text) := by
  obtain ⟨gap', text', hgap', rfl, htoks⟩ := spaced_cons.mp h
  rw [← List.append_assoc]
  exact .cons (happend hgap hgap') htoks

/-- Without anything in the gaps the text is the tokens. -/
theorem Spaced.eq_flatten (h : Spaced (· = []) toks rest text) : text = toks.flatten ++ rest := by
  induction h with
  | nil => rfl
  | cons hgap _ ih => rw [hgap, ih, List.nil_append, List.flatten_cons, List.append_assoc]

theorem spaced_flatten (hgap : Gap []) (toks : List (List α)) (rest : List α) :
    Spaced Gap toks rest (toks.flatten ++ rest) := by
  induction toks with
  | nil => exact .nil rest
  | cons tok toks ih =>
    rw [List.flatten_cons, List.append_assoc]
    exact .cons hgap ih

end

end WLink.Lib
