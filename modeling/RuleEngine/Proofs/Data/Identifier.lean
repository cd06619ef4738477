import RuleEngine.Rule.Json

/-!
# Identifiers are kept by their texts

The hexadecimal digits of a number denote the number, with or without zeros in front of them, and
an identifier is read from its text of five groups as it was.

## Main results

* `Text.hexNumber?_hex`: the hexadecimal digits of a number denote it.
* `Identifier.read?_text`: the text of an identifier reads as the identifier.
-/

namespace RuleEngine

namespace Text

/-- The number that hexadecimal digits denote, the most significant first. -/
def hexNumber? (ds : List Char) : Option Nat :=
  (ds.mapM hexValue?).map fun vs => vs.foldl (fun n v => 16 * n + v) 0

theorem hexNumber?_concat {ds : List Char} {c : Char} {n d : Nat} (hn : hexNumber? ds = some n)
    (hd : hexValue? c = some d) : hexNumber? (ds ++ [c]) = some (16 * n + d) := by
  obtain ⟨vs, hvs, rfl⟩ := Option.map_eq_some_iff.mp hn
  rw [hexNumber?, List.mapM_append, hvs]
  simp [hd]

theorem hexNumber?_zeros_append (k : Nat) (ds : List Char) :
    hexNumber? (List.replicate k '0' ++ ds) = hexNumber? ds := by
  have hz : hexValue? '0' = some 0 := rfl
  induction k with
  | zero => rfl
  | succ k ih =>
    rw [← ih, List.replicate_succ, List.cons_append, hexNumber?, hexNumber?, List.mapM_cons, hz]
    cases (List.replicate k '0' ++ ds).mapM hexValue? <;> rfl

private theorem hexValue?_digitChar : ∀ d : Fin 16, hexValue? (Nat.digitChar d) = some d.val := by
  decide

/-- The hexadecimal digits of a number denote it. -/
theorem hexNumber?_hex (n : Nat) : hexNumber? (hex n) = some n := by
  induction n using Nat.strongRecOn with
  | ind n ih =>
    by_cases h : n < 16
    · rw [hex, Nat.toDigits_of_lt_base h]
      have hd : hexValue? n.digitChar = some n := hexValue?_digitChar ⟨n, h⟩
      simp [hexNumber?, hd]
    · have hd : n % 16 < 16 := Nat.mod_lt _ (by decide)
      have hn : 16 * (n / 16) + n % 16 = n := Nat.div_add_mod n 16
      have hs : hex n = hex (n / 16) ++ [(n % 16).digitChar] := by
        have ha := Nat.toDigits_append_toDigits (show 1 < 16 by decide)
          (show 0 < n / 16 by omega) hd
        rw [hn, Nat.toDigits_of_lt_base hd] at ha
        exact ha.symm
      rw [hs, hexNumber?_concat (ih (n / 16) (by omega)) (hexValue?_digitChar ⟨n % 16, hd⟩), hn]

theorem hexValue?_head {c : Char} {ds : List Char} {n : Nat} (h : hexNumber? (c :: ds) = some n) :
    ∃ v, hexValue? c = some v := by
  obtain ⟨vs, hvs, -⟩ := Option.map_eq_some_iff.mp h
  rw [List.mapM_cons] at hvs
  obtain ⟨v, hv, -⟩ := Option.bind_eq_some_iff.mp hvs
  exact ⟨v, hv⟩

end Text

namespace Identifier

theorem ofHex?_eq {ds : List Char} (h : ds.length = 32) :
    ofHex? ds = (Text.hexNumber? ds).map ofNat := by
  rw [ofHex?, if_pos h, Text.hexNumber?, Option.map_map]
  rfl

theorem ofNat_value (i : Identifier) : ofNat i.value = i := by
  obtain ⟨n, hn⟩ := i
  rw [ofNat, Identifier.mk.injEq]
  exact Nat.mod_eq_of_lt hn

variable {a b c d e : List Char}

/-- Groups of digits with hyphens between them denote what the digits denote without. -/
theorem ofHyphenated?_groups (ha : a.length = 8) (hb : b.length = 4) (hc : c.length = 4)
    (hd : d.length = 4) (he : e.length = 12) :
    ofHyphenated? (a ++ '-' :: (b ++ '-' :: (c ++ '-' :: (d ++ '-' :: e)))) =
      ofHex? (a ++ (b ++ (c ++ (d ++ e)))) := by
  rw [ofHyphenated?, if_pos]
  · simp [List.drop_append, List.drop_eq_nil_of_le, ha, hb, hc, hd]
  · simp [ha, hb, hc, hd, he]

/-- A text of groups is read as such: it starts with a digit, and is longer than one without
hyphens and different from one with a prefix. -/
theorem read?_groups {n : Nat} (ha : a.length = 8) (hb : b.length = 4) (hc : c.length = 4)
    (hd : d.length = 4) (he : e.length = 12)
    (hn : Text.hexNumber? (a ++ (b ++ (c ++ (d ++ e)))) = some n) :
    read? (String.ofList (a ++ '-' :: (b ++ '-' :: (c ++ '-' :: (d ++ '-' :: e))))) =
      some (ofNat n) := by
  have hg := ofHyphenated?_groups ha hb hc hd he
  rw [ofHex?_eq (by simp [ha, hb, hc, hd, he]), hn, Option.map_some] at hg
  generalize hcs : a ++ '-' :: (b ++ '-' :: (c ++ '-' :: (d ++ '-' :: e))) = cs at hg ⊢
  have hl : cs.length ≠ 32 := by simp [← hcs, ha, hb, hc, hd, he]
  have hprefix : Text.asciiLower (cs.take 9) ≠ "urn:uuid:".toList := by
    intro h
    have h8 := congrArg (·[8]?) h
    simp [← hcs, Text.asciiLower, ha] at h8
  have hbrace : cs.head? ≠ some '\x7b' := by
    intro h
    cases a with
    | nil => cases ha
    | cons x a =>
      obtain ⟨v, hv⟩ := Text.hexValue?_head hn
      obtain rfl : x = '\x7b' := by simpa [← hcs] using h
      cases hv
  rw [read?, String.toList_ofList]
  split
  · exact absurd rfl hbrace
  · rw [if_neg hprefix, if_neg hl, hg]

/-- The text of an identifier reads as the identifier. -/
theorem read?_text (i : Identifier) : read? i.text = some i := by
  have hl : (Text.hex i.value).length ≤ 32 :=
    (Nat.length_toDigits_le_iff (by decide) (by decide)).mpr i.value_lt
  have hn := Text.hexNumber?_zeros_append (32 - (Text.hex i.value).length) (Text.hex i.value)
  rw [Text.hexNumber?_hex] at hn
  obtain ⟨ds, hds⟩ : ∃ ds, ds =
      List.replicate (32 - (Text.hex i.value).length) '0' ++ Text.hex i.value := ⟨_, rfl⟩
  have htext : i.text = String.ofList (ds.take 8 ++ '-' :: ((ds.drop 8).take 4 ++ '-' ::
      ((ds.drop 12).take 4 ++ '-' :: ((ds.drop 16).take 4 ++ '-' :: ds.drop 20)))) := by
    rw [hds]
    rfl
  have hlen : ds.length = 32 := by
    rw [hds, List.length_append, List.length_replicate]
    omega
  have hgroup (k : Nat) : (ds.drop k).take 4 ++ ds.drop (k + 4) = ds.drop k := by
    rw [← List.drop_drop, List.take_append_drop]
  have hall : ds.take 8 ++ ((ds.drop 8).take 4 ++ ((ds.drop 12).take 4 ++
      ((ds.drop 16).take 4 ++ ds.drop 20))) = ds := by
    rw [hgroup 16, hgroup 12, hgroup 8, List.take_append_drop]
  rw [← hds, ← hall] at hn
  rw [htext, read?_groups _ _ _ _ _ hn, i.ofNat_value]
  all_goals simp [hlen]

/-- An identifier is denoted by its data. -/
theorem ofJson?_toJson (i : Identifier) : ofJson? i.toJson = some i :=
  i.read?_text

end Identifier

end RuleEngine
