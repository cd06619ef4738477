import RuleEngine.Proofs.Json.Number

/-!
# JSON text is read as it was written

The reader undoes the writer: strings have every escape undone, numbers denote what they denoted,
and arrays and objects have their parts in order. What is lost is lost for a reason that can be told
from the data: arrays and objects inside too many others have no value, and an integer beyond 64
bits is the nearest double.

## Main definitions

* `Json.reread`: what is read of data inside some arrays and objects.
* `Json.IsWritable`: the data whose integers 64 bits hold and whose parts all have a value.

## Main results

* `Json.parse?_write`, `Json.read?_text`: what is read of the text of data.
* `Json.reread_of_depth_le`: data that is not nested too deep is read as it was written.
* `Json.depth_le_of_isReadable_reread`: data that is nested too deep has a part without a value.
-/

namespace RuleEngine.Json

/-! ### Strings -/

theorem hexValue?_hexDigit {d : Nat} (h : d < 16) : Text.hexValue? (Text.hexDigit d) = some d := by
  have hall : ∀ d, d < 16 → Text.hexValue? (Text.hexDigit d) = some d := by decide
  exact hall d h

/-- A character is read as it was written, whether it is escaped or not. -/
theorem readStringBody_writeChar (cs : List Char) (fuel : Nat) (c : Char) (rest : List Char) :
    readStringBody ⟨cs, none, true⟩ (fuel + 1) (writeChar c ++ rest) =
      readStringBody ⟨c :: cs, none, true⟩ fuel rest := by
  unfold writeChar
  split
  case h_8 hquote hbackslash _ _ _ _ _ =>
    split
    · next hc =>
      have hlt : c.toNat < 32 := hc
      have hvalue : ((0 * 16 + 0) * 16 + c.toNat / 16) * 16 + c.toNat % 16 = c.toNat := by omega
      have hlow := hexValue?_hexDigit (d := c.toNat / 16) (by omega)
      have hhigh := hexValue?_hexDigit (d := c.toNat % 16) (by omega)
      have hzero : Text.hexValue? '0' = some 0 := rfl
      have hunit : PartialText.pushUnit ⟨cs, none, true⟩ c.toNat = ⟨c :: cs, none, true⟩ := by
        rw [PartialText.pushUnit, if_neg (by omega), if_neg (by omega), Char.ofNat_toNat]
        rfl
      simp only [List.cons_append, List.nil_append, readStringBody, readHex4, hzero, hlow, hhigh,
        Option.bind_eq_bind, Option.bind_some, hvalue, hunit]
    · next hc =>
      rw [List.singleton_append, readStringBody.eq_def]
      dsimp only
      split
      · next heq => cases heq
      · next heq =>
        cases heq
        exact absurd rfl hquote
      · next heq =>
        cases heq
        exact absurd rfl hbackslash
      · next heq =>
        cases heq
        exact absurd rfl hbackslash
      · next heq =>
        cases heq
        rw [if_neg hc]
        rfl
  all_goals rfl

/-- The characters of a string are read up to the closing quotation mark. -/
theorem readStringBody_flatMap (cs : List Char) {l : List Char} {fuel : Nat}
    (hf : l.length < fuel) (rest : List Char) :
    readStringBody ⟨cs, none, true⟩ fuel (l.flatMap writeChar ++ '"' :: rest) =
      some (some (String.ofList (cs.reverse ++ l)), rest) := by
  induction l generalizing cs fuel with
  | nil =>
    obtain ⟨fuel, rfl⟩ := Nat.exists_eq_succ_of_ne_zero (Nat.ne_of_gt hf)
    rw [List.append_nil]
    rfl
  | cons c l ih =>
    obtain ⟨fuel, rfl⟩ := Nat.exists_eq_succ_of_ne_zero (Nat.ne_of_gt (Nat.zero_lt_of_lt hf))
    rw [List.flatMap_cons, List.append_assoc, Nat.succ_eq_add_one, readStringBody_writeChar,
      ih (c :: cs) (Nat.lt_of_succ_lt_succ hf), List.reverse_cons, List.append_assoc,
      List.singleton_append]

theorem writeChar_ne_nil (c : Char) : writeChar c ≠ [] := by
  unfold writeChar
  split
  case h_8 => split <;> exact List.cons_ne_nil _ _
  all_goals exact List.cons_ne_nil _ _

theorem length_le_length_flatMap_writeChar (l : List Char) :
    l.length ≤ (l.flatMap writeChar).length := by
  induction l with
  | nil => exact Nat.le_refl _
  | cons c l ih =>
    have := List.length_pos_of_ne_nil (writeChar_ne_nil c)
    rw [List.flatMap_cons, List.length_append, List.length_cons]
    omega

/-- A string is read as it was written. -/
theorem readString_writeString (s : String) (rest : List Char) :
    readString (s.toList.flatMap writeChar ++ '"' :: rest) = some (some s, rest) := by
  have hf : s.toList.length < (s.toList.flatMap writeChar ++ '"' :: rest).length + 1 := by
    have := length_le_length_flatMap_writeChar s.toList
    rw [List.length_append]
    omega
  refine (readStringBody_flatMap [] hf rest).trans ?_
  rw [List.reverse_nil, List.nil_append, String.ofList_toList]

/-! ### What is read -/

mutual

/-- What is read of data inside `depth` arrays and objects. -/
def reread (depth : Nat) : Json → Json
  | .null | .unreadable => .null
  | .bool b => .bool b
  | .int i => numberOf (i < 0) (Text.decimal i.natAbs) [] none
  | .float x => .float x
  | .str s => .str s
  | .arr items => if depth < depthLimit then .arr (rereadItems (depth + 1) items) else .unreadable
  | .obj members =>
    if depth < depthLimit then .obj (rereadMembers (depth + 1) members) else .unreadable

/-- What is read of the items. -/
def rereadItems (depth : Nat) : List Json → List Json
  | [] => []
  | j :: rest => reread depth j :: rereadItems depth rest

/-- What is read of the members. -/
def rereadMembers (depth : Nat) : List (String × Json) → List (String × Json)
  | [] => []
  | (name, j) :: rest => (name, reread depth j) :: rereadMembers depth rest

end

theorem rereadItems_eq_map (depth : Nat) (items : List Json) :
    rereadItems depth items = items.map (reread depth) := by
  induction items with
  | nil => rfl
  | cons j rest ih => rw [rereadItems, ih, List.map_cons]

theorem rereadMembers_eq_map (depth : Nat) (members : List (String × Json)) :
    rereadMembers depth members = members.map fun m => (m.1, reread depth m.2) := by
  induction members with
  | nil => rfl
  | cons m rest ih => rw [rereadMembers, ih, List.map_cons]

/-! ### Where values start and end -/

/-- The characters that no value starts with: white space and what ends a value. -/
def betweenValues : List Char := [' ', '\n', '\t', '\r', ',', ']', '}']

theorem skipBlank_cons {c : Char} (hc : c ∉ betweenValues) (rest : List Char) :
    skipBlank (c :: rest) = c :: rest := by
  refine List.dropWhile_cons_of_neg fun h => hc ?_
  simp only [Bool.or_eq_true, beq_iff_eq] at h
  rcases h with ((rfl | rfl) | rfl) | rfl <;> decide

/-- The start of a number is none of the other characters that JSON has a meaning for. -/
theorem ne_of_startsNumber {c d : Char} (hc : c = '-' ∨ Text.isDigit c) (hd : d ≠ '-')
    (hd' : Text.isDigit d = false) : c ≠ d := by
  rintro rfl
  rcases hc with rfl | hc
  · exact hd rfl
  · rw [hd'] at hc
    cases hc

theorem not_mem_betweenValues {c : Char} (hc : c = '-' ∨ Text.isDigit c) :
    c ∉ betweenValues := fun hmem => by
  simp only [betweenValues, List.mem_cons, List.not_mem_nil, or_false] at hmem
  rcases hmem with rfl | rfl | rfl | rfl | rfl | rfl | rfl <;>
    exact ne_of_startsNumber hc (by decide) rfl rfl

/-- The text of a value starts with the value. -/
theorem exists_cons_write (j : Json) : ∃ c cs, write j = c :: cs ∧ c ∉ betweenValues := by
  cases j with
  | bool b => cases b <;> exact ⟨_, _, rfl, by decide⟩
  | int i =>
    obtain ⟨p, hp⟩ := exists_spells_int i
    obtain ⟨c, cs, hcs, hc⟩ := hp.exists_cons
    exact ⟨c, cs, hcs, not_mem_betweenValues hc⟩
  | float x =>
    obtain ⟨p, hp⟩ := exists_spells_float x
    obtain ⟨c, cs, hcs, hc⟩ := hp.exists_cons
    exact ⟨c, cs, hcs, not_mem_betweenValues hc⟩
  | _ => exact ⟨_, _, rfl, by decide⟩

theorem exists_cons_writeItems (j : Json) (items : List Json) :
    ∃ c cs, writeItems (j :: items) = c :: cs ∧ c ∉ betweenValues := by
  obtain ⟨c, cs, hcs, hc⟩ := exists_cons_write j
  cases items with
  | nil => exact ⟨c, cs, hcs, hc⟩
  | cons k items =>
    have hwrite : writeItems (j :: k :: items) = write j ++ ',' :: writeItems (k :: items) := rfl
    exact ⟨c, cs ++ ',' :: writeItems (k :: items), by rw [hwrite, hcs, List.cons_append], hc⟩

theorem exists_cons_writeMembers (name : String) (j : Json) (members : List (String × Json)) :
    ∃ c cs, writeMembers ((name, j) :: members) = c :: cs ∧ c ∉ betweenValues := by
  cases members <;> exact ⟨_, _, rfl, by decide⟩

theorem isClosed_cons {c : Char} (h : c = ',' ∨ c = ']' ∨ c = '}') (rest : List Char) :
    IsClosed (c :: rest) := by
  rintro _ ⟨⟩
  exact h

/-! ### One value -/

section

variable (fuel depth : Nat) (rest : List Char)

theorem readValue_string : readValue (fuel + 1) depth ('"' :: rest) =
    match readString rest with
    | some (some s, rest) => some (.str s, rest)
    | some (none, rest) => some (.unreadable, rest)
    | none => none := rfl

/-- What is read of an array or an object, which has no value inside too many others. -/
def guarded (depth : Nat) (read : Option (Json × List Char)) : Option (Json × List Char) :=
  if depth < depthLimit then read else read.map fun (_, rest) => (.unreadable, rest)

theorem guarded_some (j : Json) : guarded depth (some (j, rest)) =
    some (if depth < depthLimit then j else .unreadable, rest) := by
  unfold guarded
  split <;> rfl

/-- An array that does not end at once is read item by item. -/
theorem readValue_array {c : Char} (hc : c ∉ betweenValues) :
    readValue (fuel + 1) depth ('[' :: c :: rest) =
      guarded depth (readItems fuel (depth + 1) [] (c :: rest)) := by
  refine congrArg (guarded depth) ?_
  rw [skipBlank_cons hc]
  split
  · next heq =>
    cases heq
    exact absurd (by decide) hc
  · rfl

/-- An object that does not end at once is read member by member. -/
theorem readValue_object {c : Char} (hc : c ∉ betweenValues) :
    readValue (fuel + 1) depth ('\x7b' :: c :: rest) =
      guarded depth (readMembers fuel (depth + 1) [] true (c :: rest)) := by
  refine congrArg (guarded depth) ?_
  rw [skipBlank_cons hc]
  split
  · next heq =>
    cases heq
    exact absurd (by decide) hc
  · rfl

/-- A text that starts with a sign or a digit is read as a number. -/
theorem readValue_number {c : Char} (hc : c = '-' ∨ Text.isDigit c) :
    readValue (fuel + 1) depth (c :: rest) = readNumber (c :: rest) := by
  rw [readValue, skipBlank_cons (not_mem_betweenValues hc)]
  split
  case h_7 => rfl
  all_goals
    next heq =>
      cases heq
      exact absurd rfl (ne_of_startsNumber hc (by decide) rfl)

theorem readValue_of_spells {p : NumberParts} {j : Json} {text rest : List Char}
    (h : Spells p j text) (hr : IsClosed rest) :
    readValue (fuel + 1) depth (text ++ rest) = some (j, rest) := by
  obtain ⟨c, cs, hcs, hc⟩ := h.exists_cons
  rw [← h.readNumber_append hr, hcs, List.cons_append]
  exact readValue_number fuel depth _ hc

end

/-! ### Items and members -/

section

variable {fuel depth : Nat} {cs rest : List Char} {j : Json}

theorem readItems_next {before : List Json}
    (h : readValue fuel depth cs = some (j, ',' :: rest)) :
    readItems (fuel + 1) depth before cs = readItems fuel depth (j :: before) rest := by
  rw [readItems, h]
  rfl

theorem readItems_last {before : List Json}
    (h : readValue fuel depth cs = some (j, ']' :: rest)) :
    readItems (fuel + 1) depth before cs = some (.arr (j :: before).reverse, rest) := by
  rw [readItems, h]
  rfl

theorem readMembers_next {before : List (String × Json)} {name : String}
    (h : readValue fuel depth cs = some (j, ',' :: rest)) :
    readMembers (fuel + 1) depth before true (writeString name ++ ':' :: cs) =
      readMembers fuel depth ((name, j) :: before) true rest := by
  have hmark : skipBlank (',' :: rest) = ',' :: rest := rfl
  rw [writeString, List.cons_append, List.append_assoc, List.singleton_append, readMembers,
    skipBlank_cons (by decide)]
  simp only [readString_writeString, skipBlank_cons (c := ':') (by decide), h, hmark,
    Option.getD_some, Option.isSome_some, Bool.and_self]

theorem readMembers_last {before : List (String × Json)} {name : String}
    (h : readValue fuel depth cs = some (j, '\x7d' :: rest)) :
    readMembers (fuel + 1) depth before true (writeString name ++ ':' :: cs) =
      some (.obj ((name, j) :: before).reverse, rest) := by
  have hmark : skipBlank ('\x7d' :: rest) = '\x7d' :: rest := rfl
  rw [writeString, List.cons_append, List.append_assoc, List.singleton_append, readMembers,
    skipBlank_cons (by decide)]
  simp only [readString_writeString, skipBlank_cons (c := ':') (by decide), h, hmark,
    Option.getD_some, Option.isSome_some, Bool.and_self, if_true]

end

/-! ### Reading what was written -/

/-- Whether what was written is read, with the fuel given. Each value takes one unit, and so does
each item and each member. -/
structure ReadsBack (fuel : Nat) : Prop where
  value : ∀ {j : Json} {rest}, 2 * (write j).length ≤ fuel → IsClosed rest → ∀ depth,
    readValue fuel depth (write j ++ rest) = some (reread depth j, rest)
  items : ∀ {j : Json} {items : List Json}, 2 * (writeItems (j :: items)).length < fuel →
    ∀ depth before rest, readItems fuel depth before (writeItems (j :: items) ++ ']' :: rest) =
      some (.arr (before.reverse ++ rereadItems depth (j :: items)), rest)
  members : ∀ {name : String} {j : Json} {members : List (String × Json)},
    2 * (writeMembers ((name, j) :: members)).length < fuel → ∀ depth before rest,
      readMembers fuel depth before true (writeMembers ((name, j) :: members) ++ '\x7d' :: rest) =
        some (.obj (before.reverse ++ rereadMembers depth ((name, j) :: members)), rest)

section

variable {fuel : Nat}

private theorem ReadsBack.value_succ (h : ReadsBack fuel) {j : Json} {rest : List Char}
    (hf : 2 * (write j).length ≤ fuel + 1) (hr : IsClosed rest) (depth : Nat) :
    readValue (fuel + 1) depth (write j ++ rest) = some (reread depth j, rest) := by
  cases j with
  | null | unreadable => rfl
  | bool b => cases b <;> rfl
  | int i =>
    obtain ⟨p, hp⟩ := exists_spells_int i
    rw [write, reread, readValue_of_spells fuel depth hp hr]
  | float x =>
    obtain ⟨p, hp⟩ := exists_spells_float x
    rw [write, reread, readValue_of_spells fuel depth hp hr]
  | str s =>
    rw [write, writeString, List.cons_append, List.append_assoc, List.singleton_append,
      readValue_string, readString_writeString, reread]
  | arr items =>
    rw [write, List.cons_append, List.append_assoc, List.singleton_append, reread,
      ← guarded_some]
    cases items with
    | nil => rfl
    | cons j items =>
      obtain ⟨c, cs, hcs, hc⟩ := exists_cons_writeItems j items
      rw [write, List.length_cons, List.length_append] at hf
      rw [← List.nil_append (rereadItems _ _), ← List.reverse_nil, ← h.items (by simp at hf; omega),
        hcs, List.cons_append, readValue_array fuel depth _ hc]
  | obj members =>
    rw [write, List.cons_append, List.append_assoc, List.singleton_append, reread,
      ← guarded_some]
    cases members with
    | nil => rfl
    | cons m members =>
      obtain ⟨name, j⟩ := m
      obtain ⟨c, cs, hcs, hc⟩ := exists_cons_writeMembers name j members
      rw [write, List.length_cons, List.length_append] at hf
      rw [← List.nil_append (rereadMembers _ _), ← List.reverse_nil,
        ← h.members (by simp at hf; omega), hcs, List.cons_append,
        readValue_object fuel depth _ hc]

private theorem ReadsBack.items_succ (h : ReadsBack fuel) {j : Json} {items : List Json}
    (hf : 2 * (writeItems (j :: items)).length < fuel + 1) (depth : Nat) (before : List Json)
    (rest : List Char) :
    readItems (fuel + 1) depth before (writeItems (j :: items) ++ ']' :: rest) =
      some (.arr (before.reverse ++ rereadItems depth (j :: items)), rest) := by
  cases items with
  | nil =>
    rw [writeItems] at hf ⊢
    have hread := h.value (Nat.le_of_lt_succ hf) (isClosed_cons (.inr (.inl rfl)) rest) depth
    rw [readItems_last hread, List.reverse_cons]
    rfl
  | cons k items =>
    have hwrite : writeItems (j :: k :: items) = write j ++ ',' :: writeItems (k :: items) := rfl
    rw [hwrite, List.length_append, List.length_cons] at hf
    have hread := h.value (j := j) (by omega)
      (isClosed_cons (.inl rfl) (writeItems (k :: items) ++ ']' :: rest)) depth
    rw [hwrite, List.append_assoc, List.cons_append, readItems_next hread,
      h.items (by omega), List.reverse_cons, List.append_assoc]
    rfl

private theorem ReadsBack.members_succ (h : ReadsBack fuel) {name : String} {j : Json}
    {members : List (String × Json)}
    (hf : 2 * (writeMembers ((name, j) :: members)).length < fuel + 1) (depth : Nat)
    (before : List (String × Json)) (rest : List Char) :
    readMembers (fuel + 1) depth before true
        (writeMembers ((name, j) :: members) ++ '\x7d' :: rest) =
      some (.obj (before.reverse ++ rereadMembers depth ((name, j) :: members)), rest) := by
  cases members with
  | nil =>
    have hwrite : writeMembers [(name, j)] = writeString name ++ ':' :: write j := rfl
    rw [hwrite, List.length_append, List.length_cons] at hf
    have hread := h.value (j := j) (by omega) (isClosed_cons (.inr (.inr rfl)) rest) depth
    rw [hwrite, List.append_assoc, List.cons_append, readMembers_last hread, List.reverse_cons]
    rfl
  | cons m members =>
    obtain ⟨name', k⟩ := m
    have hwrite : writeMembers ((name, j) :: (name', k) :: members) =
        writeString name ++ ':' :: (write j ++ ',' :: writeMembers ((name', k) :: members)) := rfl
    rw [hwrite, List.length_append, List.length_cons, List.length_append, List.length_cons] at hf
    have hread := h.value (j := j) (by omega)
      (isClosed_cons (.inl rfl) (writeMembers ((name', k) :: members) ++ '\x7d' :: rest)) depth
    rw [hwrite, List.append_assoc, List.cons_append, List.append_assoc, List.cons_append,
      readMembers_next hread, h.members (by omega), List.reverse_cons, List.append_assoc]
    rfl

private theorem readsBack (fuel : Nat) : ReadsBack fuel := by
  induction fuel with
  | zero =>
    refine ⟨fun {j _} hf => ?_, fun hf => absurd hf (Nat.not_lt_zero _),
      fun hf => absurd hf (Nat.not_lt_zero _)⟩
    obtain ⟨c, cs, hcs, -⟩ := exists_cons_write j
    rw [hcs, List.length_cons] at hf
    omega
  | succ fuel ih => exact ⟨ih.value_succ, ih.items_succ, ih.members_succ⟩

end

/-- What is read of the text of data. -/
theorem parse?_write (j : Json) : parse? (write j) = some (reread 0 j) := by
  have hread := (readsBack (2 * (write j).length + 2)).value (j := j) (by omega) isClosed_nil 0
  rw [List.append_nil] at hread
  rw [parse?, hread]
  rfl

theorem read?_text (j : Json) : read? j.text = some (reread 0 j) := by
  rw [read?, text, String.toList_ofList, parse?_write]

/-! ### What is not lost -/

mutual

/-- How deep arrays and objects are nested. -/
def depth : Json → Nat
  | .arr items => itemsDepth items + 1
  | .obj members => membersDepth members + 1
  | .null | .bool _ | .int _ | .float _ | .str _ | .unreadable => 0

/-- The greatest depth of the items. -/
def itemsDepth : List Json → Nat
  | [] => 0
  | j :: rest => max (depth j) (itemsDepth rest)

/-- The greatest depth of the members. -/
def membersDepth : List (String × Json) → Nat
  | [] => 0
  | (_, j) :: rest => max (depth j) (membersDepth rest)

end

mutual

/-- Whether a text can hold data: the integers fit 64 bits, and every part has a value. -/
def IsWritable : Json → Prop
  | .unreadable => False
  | .int i => IsMachineInt i
  | .arr items => ItemsWritable items
  | .obj members => MembersWritable members
  | .null | .bool _ | .float _ | .str _ => True

/-- Whether a text can hold the items. -/
def ItemsWritable : List Json → Prop
  | [] => True
  | j :: rest => IsWritable j ∧ ItemsWritable rest

/-- Whether a text can hold the members. -/
def MembersWritable : List (String × Json) → Prop
  | [] => True
  | (_, j) :: rest => IsWritable j ∧ MembersWritable rest

end

mutual

/-- Data that is not nested too deep is read as it was written. -/
theorem reread_of_depth_le {n : Nat} : (j : Json) → j.IsWritable → n + j.depth ≤ depthLimit →
    reread n j = j
  | .null, _, _ => rfl
  | .bool _, _, _ => rfl
  | .int i, h, _ => by
    rw [IsWritable] at h
    rw [reread, numberOf_of_isMachineInt h]
  | .float _, _, _ => rfl
  | .str _, _, _ => rfl
  | .arr items, h, hd => by
    rw [depth] at hd
    rw [IsWritable] at h
    rw [reread, if_pos (by omega), rereadItems_of_depth_le items h (by omega)]
  | .obj members, h, hd => by
    rw [depth] at hd
    rw [IsWritable] at h
    rw [reread, if_pos (by omega), rereadMembers_of_depth_le members h (by omega)]
  | .unreadable, h, _ => by
    rw [IsWritable] at h
    exact h.elim

theorem rereadItems_of_depth_le {n : Nat} : (items : List Json) → ItemsWritable items →
    n + itemsDepth items ≤ depthLimit → rereadItems n items = items
  | [], _, _ => rfl
  | j :: rest, h, hd => by
    rw [itemsDepth] at hd
    rw [ItemsWritable] at h
    rw [rereadItems, reread_of_depth_le j h.1 (by omega),
      rereadItems_of_depth_le rest h.2 (by omega)]

theorem rereadMembers_of_depth_le {n : Nat} : (members : List (String × Json)) →
    MembersWritable members → n + membersDepth members ≤ depthLimit →
    rereadMembers n members = members
  | [], _, _ => rfl
  | (name, j) :: rest, h, hd => by
    rw [membersDepth] at hd
    rw [MembersWritable] at h
    rw [rereadMembers, reread_of_depth_le j h.1 (by omega),
      rereadMembers_of_depth_le rest h.2 (by omega)]

end

mutual

/-- Data that is nested too deep is read without a value in some part. -/
theorem depth_le_of_isReadable_reread {n : Nat} (hn : n ≤ depthLimit) : (j : Json) →
    (reread n j).isReadable → n + j.depth ≤ depthLimit
  | .null, _ => hn
  | .bool _, _ => hn
  | .int _, _ => hn
  | .float _, _ => hn
  | .str _, _ => hn
  | .unreadable, _ => hn
  | .arr items, h => by
    rw [reread] at h
    split at h
    · next hlt =>
      rw [isReadable] at h
      have := itemsDepth_le_of_allReadable hlt items h
      rw [depth]
      omega
    · cases h
  | .obj members, h => by
    rw [reread] at h
    split at h
    · next hlt =>
      rw [isReadable] at h
      have := membersDepth_le_of_membersReadable hlt members h
      rw [depth]
      omega
    · cases h

theorem itemsDepth_le_of_allReadable {n : Nat} (hn : n ≤ depthLimit) : (items : List Json) →
    allReadable (rereadItems n items) → n + itemsDepth items ≤ depthLimit
  | [], _ => hn
  | j :: rest, h => by
    rw [rereadItems, allReadable, Bool.and_eq_true] at h
    have := depth_le_of_isReadable_reread hn j h.1
    have := itemsDepth_le_of_allReadable hn rest h.2
    rw [itemsDepth]
    omega

theorem membersDepth_le_of_membersReadable {n : Nat} (hn : n ≤ depthLimit) :
    (members : List (String × Json)) → membersReadable (rereadMembers n members) →
    n + membersDepth members ≤ depthLimit
  | [], _ => hn
  | (name, j) :: rest, h => by
    rw [rereadMembers, membersReadable, Bool.and_eq_true] at h
    have := depth_le_of_isReadable_reread hn j h.1
    have := membersDepth_le_of_membersReadable hn rest h.2
    rw [membersDepth]
    omega

end

end RuleEngine.Json
