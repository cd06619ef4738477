import Mathlib.Data.List.TakeWhile
import RuleEngine.Proofs.Text.Blank

/-!
# Texts in pieces

A cut is the first place of a separator, and the pieces of a text are what stands between the
separators. The words of a text are what stands between its white space, and white space around the
text makes no difference to them.

## Main definitions

* `Text.Spaced`: the texts of given words.

## Main results

* `Text.cut_eq_some_iff`: where a text is cut.
* `Text.spaced_iff`: the words of a text are those that it is a text of.
* `Text.exists_trim`: what is left out when a text is trimmed.
-/

namespace RuleEngine

namespace Text

/-! ### Cuts -/

variable {sep : Char} {cs a b : List Char}

theorem cut_eq_none_iff : cut sep cs = none ↔ sep ∉ cs := by
  induction cs with
  | nil => simp [cut]
  | cons c cs ih =>
    rw [cut]
    by_cases hc : c = sep
    · simp [hc]
    · simp [hc, ih, Ne.symm hc]

theorem cut_append_cons (ha : sep ∉ a) : cut sep (a ++ sep :: b) = some (a, b) := by
  induction a with
  | nil => simp [cut]
  | cons c a ih =>
    have hc : sep ≠ c := List.ne_of_not_mem_cons ha
    rw [List.cons_append, cut, if_neg hc.symm, ih (List.not_mem_of_not_mem_cons ha)]
    rfl

/-- A text is cut at the first place of the separator. -/
theorem cut_eq_some_iff : cut sep cs = some (a, b) ↔ cs = a ++ sep :: b ∧ sep ∉ a := by
  constructor
  · intro h
    refine ⟨eq_append_of_cut h, ?_⟩
    induction cs generalizing a with
    | nil => cases h
    | cons c cs ih =>
      rw [cut] at h
      split at h
      · cases h
        exact List.not_mem_nil
      · next hc =>
        obtain ⟨⟨a', b'⟩, h', he⟩ := Option.map_eq_some_iff.mp h
        cases he
        exact List.not_mem_cons_of_ne_of_not_mem (Ne.symm hc) (ih h')
  · rintro ⟨rfl, ha⟩
    exact cut_append_cons ha

/-! ### Pieces -/

variable {p : Char → Bool}

/-- The first piece ends at the first separator. -/
theorem pieces_append_cons {c : Char} (ha : ∀ d ∈ a, p d = false) (hc : p c) (cs : List Char) :
    pieces p (a ++ c :: cs) = a :: pieces p cs := by
  induction a with
  | nil => rw [List.nil_append, pieces, if_pos hc]
  | cons d a ih =>
    obtain ⟨hd, ha⟩ := List.forall_mem_cons.mp ha
    rw [List.cons_append, pieces, ih ha]
    simp [hd]

/-- A separator at the end opens an empty piece. -/
theorem pieces_concat {c : Char} (hc : p c) (cs : List Char) :
    pieces p (cs ++ [c]) = pieces p cs ++ [[]] := by
  induction cs with
  | nil => simp [pieces, hc]
  | cons d cs ih =>
    rw [List.cons_append, pieces, pieces, ih]
    by_cases hd : p d
    · simp [hd]
    · obtain ⟨w, ws, hw⟩ := List.exists_cons_of_ne_nil (pieces_ne_nil p cs)
      simp [hd, hw]

/-! ### Words -/

/-- Whether a text consists of words, with white space between them and perhaps around them. -/
inductive Spaced : List Char → List (List Char) → Prop
  | blank {b : List Char} (hb : ∀ c ∈ b, isBlank c) : Spaced b []
  | word {b w rest : List Char} {ws : List (List Char)} (hb : ∀ c ∈ b, isBlank c) (hw : w ≠ [])
      (hn : ∀ c ∈ w, isBlank c = false) (hr : ∀ c ∈ rest.head?, isBlank c)
      (h : Spaced rest ws) : Spaced (b ++ w ++ rest) (w :: ws)

theorem words_blank_append (hb : ∀ c ∈ b, isBlank c) (cs : List Char) :
    words (b ++ cs) = words cs := by
  induction b with
  | nil => rfl
  | cons c b ih =>
    obtain ⟨hc, hb⟩ := List.forall_mem_cons.mp hb
    calc words (c :: b ++ cs)
      _ = words (b ++ cs) := by simp [words, pieces, hc]
      _ = words cs := ih hb

theorem words_append_blank (hb : ∀ c ∈ b, isBlank c) (cs : List Char) :
    words (cs ++ b) = words cs := by
  induction b generalizing cs with
  | nil => rw [List.append_nil]
  | cons c b ih =>
    obtain ⟨hc, hb⟩ := List.forall_mem_cons.mp hb
    calc words (cs ++ c :: b)
      _ = words (cs ++ [c] ++ b) := by rw [List.append_assoc, List.singleton_append]
      _ = words (cs ++ [c]) := ih hb _
      _ = words cs := by simp [words, pieces_concat hc]

theorem words_of_blank (hb : ∀ c ∈ b, isBlank c) : words b = [] := by
  have h := words_blank_append hb []
  rw [List.append_nil] at h
  exact h

/-- A word at the start of a text, with white space or nothing behind it, is its first word. -/
theorem words_append {w rest : List Char} (hw : w ≠ []) (hn : ∀ c ∈ w, isBlank c = false)
    (hr : ∀ c ∈ rest.head?, isBlank c) : words (w ++ rest) = w :: words rest := by
  cases rest with
  | nil =>
    rw [List.append_nil, words, pieces_eq_singleton hn]
    simp [words, pieces, hw]
  | cons c rest =>
    have hc : isBlank c := hr c rfl
    rw [words, pieces_append_cons hn hc]
    simp [words, pieces, hw, hc]

theorem Spaced.words_eq {ws : List (List Char)} (h : Spaced cs ws) : words cs = ws := by
  induction h with
  | blank hb => exact words_of_blank hb
  | word hb hw hn hr _ ih =>
    rw [List.append_assoc, words_blank_append hb, words_append hw hn hr, ih]

/-- Every text is a text of its words. -/
theorem spaced_words (cs : List Char) : Spaced cs (words cs) := by
  induction hl : cs.length using Nat.strongRecOn generalizing cs with
  | ind n ih =>
    -- the white space in front, the first word, and the rest
    have hcs : cs = cs.takeWhile isBlank ++ cs.dropWhile isBlank :=
      List.takeWhile_append_dropWhile.symm
    have hb : ∀ c ∈ cs.takeWhile isBlank, isBlank c := fun _ => List.mem_takeWhile_imp
    rcases hd : cs.dropWhile isBlank with _ | ⟨c, ds⟩
    · rw [hd, List.append_nil] at hcs
      rw [← hcs] at hb
      rw [words_of_blank hb]
      exact .blank hb
    · have hc : isBlank c = false := by
        have := List.head?_dropWhile_not isBlank cs
        rw [hd] at this
        exact this
      have hds : c :: ds = (c :: ds).takeWhile (!isBlank ·) ++ (c :: ds).dropWhile (!isBlank ·) :=
        List.takeWhile_append_dropWhile.symm
      generalize hw : (c :: ds).takeWhile (!isBlank ·) = w at hds
      generalize hr : (c :: ds).dropWhile (!isBlank ·) = rest at hds
      have hne : w ≠ [] := by
        rw [← hw, List.takeWhile_cons, hc]
        exact List.cons_ne_nil _ _
      have hn : ∀ d ∈ w, isBlank d = false := by
        intro d hm
        rw [← hw] at hm
        simpa using List.mem_takeWhile_imp hm
      have hblank : ∀ d ∈ rest.head?, isBlank d := by
        intro d hm
        have := List.head?_dropWhile_not (!isBlank ·) (c :: ds)
        rw [hr, Option.mem_def.mp hm] at this
        simpa using this
      have hlt : rest.length < n := by
        have := List.length_pos_iff.mpr hne
        rw [← hl, hcs, hd, hds, List.length_append, List.length_append]
        omega
      rw [hd, hds, ← List.append_assoc] at hcs
      rw [hcs, List.append_assoc, words_blank_append hb, words_append hne hn hblank,
        ← List.append_assoc]
      exact .word hb hne hn hblank (ih _ hlt rest rfl)

/-- The words of a text are those that it is a text of. -/
theorem spaced_iff {ws : List (List Char)} : Spaced cs ws ↔ words cs = ws := by
  constructor
  · exact Spaced.words_eq
  · rintro rfl
    exact spaced_words cs

/-- The words of a text are not empty, and there is no white space in them. -/
theorem Spaced.isWord {ws : List (List Char)} (h : Spaced cs ws) :
    ∀ w ∈ ws, w ≠ [] ∧ ∀ c ∈ w, isBlank c = false := by
  induction h with
  | blank => simp
  | word _ hw hn _ _ ih => exact List.forall_mem_cons.mpr ⟨⟨hw, hn⟩, ih⟩

/-- Any words make a text. -/
theorem exists_spaced {ws : List (List Char)}
    (h : ∀ w ∈ ws, w ≠ [] ∧ ∀ c ∈ w, isBlank c = false) : ∃ cs, Spaced cs ws := by
  -- with a space in front the text can stand behind another word
  suffices hs : ∃ cs, Spaced cs ws ∧ ∀ c ∈ cs.head?, isBlank c from hs.imp fun _ hs => hs.1
  induction ws with
  | nil => exact ⟨[], .blank (by simp), by simp⟩
  | cons w ws ih =>
    obtain ⟨⟨hw, hn⟩, h⟩ := List.forall_mem_cons.mp h
    obtain ⟨rest, hrest, hr⟩ := ih h
    have hspace : ∀ c ∈ [' '], isBlank c := fun c hc => by
      obtain rfl := List.mem_singleton.mp hc
      rfl
    exact ⟨[' '] ++ w ++ rest, .word hspace hw hn hr hrest, by simp [isBlank]⟩

/-! ### Trimmed texts -/

/-- To trim a text leaves white space out, in front of it and behind it. -/
theorem exists_trim (cs : List Char) :
    ∃ before after, (∀ c ∈ before, isBlank c) ∧ (∀ c ∈ after, isBlank c) ∧
      cs = before ++ trim cs ++ after := by
  refine ⟨cs.takeWhile isBlank, ((trimStart cs).reverse.takeWhile isBlank).reverse,
    fun _ => List.mem_takeWhile_imp, fun c hc => ?_, ?_⟩
  · exact List.mem_takeWhile_imp (List.mem_reverse.mp hc)
  · have hr : (trimStart cs).reverse =
        (trimStart cs).reverse.takeWhile isBlank ++ trimStart (trimStart cs).reverse :=
      List.takeWhile_append_dropWhile.symm
    have ht : trimStart cs =
        trim cs ++ ((trimStart cs).reverse.takeWhile isBlank).reverse := by
      rw [trim, ← List.reverse_append, ← hr, List.reverse_reverse]
    rw [List.append_assoc, ← ht]
    exact List.takeWhile_append_dropWhile.symm

/-- White space around a text makes no difference to its words. -/
theorem words_trim (cs : List Char) : words (trim cs) = words cs := by
  obtain ⟨before, after, hb, ha, hcs⟩ := exists_trim cs
  calc words (trim cs)
    _ = words (before ++ trim cs) := (words_blank_append hb _).symm
    _ = words (before ++ trim cs ++ after) := (words_append_blank ha _).symm
    _ = words cs := by rw [← hcs]

theorem trimStart_blank_append (hb : ∀ c ∈ b, isBlank c) (cs : List Char) :
    trimStart (b ++ cs) = trimStart cs :=
  List.dropWhile_append_of_pos hb

/-- A text without white space is what is left of it when it is trimmed with white space around
it. -/
theorem trim_append {before after : List Char} (hb : ∀ c ∈ before, isBlank c)
    (ha : ∀ c ∈ after, isBlank c) (hn : ∀ c ∈ cs, isBlank c = false) :
    trim (before ++ cs ++ after) = cs := by
  have hstart {ds : List Char} (hd : ∀ c ∈ ds, isBlank c = false) : trimStart ds = ds := by
    cases ds with
    | nil => rfl
    | cons d ds => exact trimStart_cons (hd d List.mem_cons_self) ds
  have hreverse : ∀ c ∈ cs.reverse, isBlank c = false :=
    fun c hc => hn c (List.mem_reverse.mp hc)
  have hafter : ∀ c ∈ after.reverse, isBlank c := fun c hc => ha c (List.mem_reverse.mp hc)
  cases cs with
  | nil =>
    have h : ∀ c ∈ before ++ [] ++ after, isBlank c := by
      simpa [or_imp, forall_and] using And.intro hb ha
    have hnil : trimStart (before ++ [] ++ after) = [] := List.dropWhile_eq_nil_iff.mpr h
    rw [trim, hnil]
    rfl
  | cons c cs =>
    rw [trim, List.append_assoc, trimStart_blank_append hb, List.cons_append,
      trimStart_cons (hn c List.mem_cons_self), ← List.cons_append, List.reverse_append,
      trimStart_blank_append hafter, hstart hreverse, List.reverse_reverse]

/-- A trimmed text starts with its first word. -/
theorem head?_of_words_trim {w : List Char} {ws : List (List Char)}
    (h : words (trim cs) = w :: ws) : (trim cs).head? = w.head? := by
  have hs := spaced_words (trim cs)
  have ht := trimStart_trim cs
  rw [h] at hs
  generalize trim cs = t at *
  cases hs with
  | @word b _ rest _ hb hw hn =>
    cases b with
    | nil =>
      obtain ⟨c, w, rfl⟩ := List.exists_cons_of_ne_nil hw
      rfl
    | cons d b =>
      -- the white space in front would have been left out
      rw [List.append_assoc, trimStart_blank_append hb] at ht
      obtain ⟨c, w, rfl⟩ := List.exists_cons_of_ne_nil hw
      rw [List.cons_append, trimStart_cons (hn c List.mem_cons_self)] at ht
      have hl := congrArg List.length ht
      simp only [List.length_cons, List.length_append] at hl
      omega

end Text

end RuleEngine
