import RuleEngine.Text.Blank

/-!
# Trimmed texts

A text without the white space around it has none in front of it, and to trim it again changes
nothing.

## Main results

* `Text.trim_trim`: trimming a text twice does no more than trimming it once.
-/

namespace RuleEngine

namespace Text

theorem trimStart_cons {c : Char} (hc : isBlank c = false) (cs : List Char) :
    trimStart (c :: cs) = c :: cs := by
  rw [trimStart, List.dropWhile_cons, hc]
  rfl

theorem trimStart_trimStart (cs : List Char) : trimStart (trimStart cs) = trimStart cs := by
  induction cs with
  | nil => rfl
  | cons c cs ih =>
    by_cases hc : isBlank c
    · have h : trimStart (c :: cs) = trimStart cs := List.dropWhile_cons_of_pos hc
      rw [h, ih]
    · rw [Bool.not_eq_true] at hc
      rw [trimStart_cons hc, trimStart_cons hc]

/-- A text without the white space around it has none in front of it. -/
theorem trimStart_trim (cs : List Char) : trimStart (trim cs) = trim cs := by
  have hp : trim cs <+: trimStart cs := by
    rw [← List.reverse_suffix, trim, List.reverse_reverse]
    exact List.dropWhile_suffix _
  have hb : ∀ c ∈ (trimStart cs).head?, isBlank c = false := by
    intro c hc
    have := List.head?_dropWhile_not isBlank cs
    rw [← trimStart, Option.mem_def.mp hc] at this
    exact this
  cases ht : trim cs with
  | nil => rfl
  | cons c ds =>
    obtain ⟨rest, hr⟩ := hp
    refine trimStart_cons (hb c ?_) ds
    rw [← hr, ht]
    rfl

/-- Trimming a text twice does no more than trimming it once. -/
theorem trim_trim (cs : List Char) : trim (trim cs) = trim cs := by
  calc trim (trim cs)
    _ = (trimStart (trim cs).reverse).reverse := by rw [trim, trimStart_trim]
    _ = (trimStart (trimStart (trimStart cs).reverse)).reverse := by
      rw [trim, List.reverse_reverse]
    _ = trim cs := by rw [trimStart_trimStart, trim]

end Text

end RuleEngine
