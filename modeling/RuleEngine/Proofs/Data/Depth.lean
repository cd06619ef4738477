import RuleEngine.Proofs.Data.Rule
import RuleEngine.Proofs.Json.Text

/-!
# Nesting

What a text denotes is not nested deeper than the limit of the reader, and the data of what some
data denotes is not nested deeper than that data, small depths aside. So the parts of a rule that
came from a text can be read again.

## Main results

* `Json.depth_le_of_read?`: the depth of what a text denotes.
* `Value.depth_toJson_le`, `Condition.depth_toJson_le`, `Action.depth_toJson_le`: the depths of what
  data denotes.
-/

namespace RuleEngine

namespace Json

/-! ### Depths -/

theorem itemsDepth_le_iff {items : List Json} {n : Nat} :
    itemsDepth items ≤ n ↔ ∀ j ∈ items, j.depth ≤ n := by
  induction items with
  | nil => simp [itemsDepth]
  | cons j rest ih => rw [itemsDepth, Nat.max_le, ih, List.forall_mem_cons]

theorem membersDepth_le_iff {members : List (String × Json)} {n : Nat} :
    membersDepth members ≤ n ↔ ∀ m ∈ members, m.2.depth ≤ n := by
  induction members with
  | nil => simp [membersDepth]
  | cons m rest ih => rw [membersDepth, Nat.max_le, ih, List.forall_mem_cons]

theorem depth_arr_le_iff {items : List Json} {n : Nat} :
    (arr items).depth ≤ n + 1 ↔ ∀ j ∈ items, j.depth ≤ n := by
  rw [depth, Nat.add_le_add_iff_right, itemsDepth_le_iff]

theorem depth_lt_of_mem_arr {items : List Json} {j : Json} (h : j ∈ items) :
    j.depth < (arr items).depth :=
  Nat.lt_succ_of_le (itemsDepth_le_iff.mp (Nat.le_refl _) j h)

theorem depth_lt_of_mem_obj {members : List (String × Json)} {m : String × Json}
    (h : m ∈ members) : m.2.depth < (obj members).depth :=
  Nat.lt_succ_of_le (membersDepth_le_iff.mp (Nat.le_refl _) m h)

/-! ### What texts denote -/

theorem depth_numberOf (negative : Bool) (whole fraction : List Char) (exponent : Option Int) :
    (numberOf negative whole fraction exponent).depth = 0 := by
  unfold numberOf
  dsimp only
  repeat' split
  all_goals rfl

theorem depth_of_readNumber {cs rest : List Char} {j : Json}
    (h : readNumber cs = some (j, rest)) : j.depth = 0 := by
  unfold readNumber at h
  dsimp only at h
  split at h
  all_goals
    split at h
    · cases h
    · obtain ⟨_, -, h⟩ := Option.bind_eq_some_iff.mp h
      obtain ⟨_, -, h⟩ := Option.bind_eq_some_iff.mp h
      cases h
      exact depth_numberOf ..

/-- Whether what is read stays within the limit, by a reader with some fuel. -/
private structure StaysWithin (fuel : Nat) : Prop where
  value : ∀ {depth cs j rest}, depth ≤ depthLimit →
    readValue fuel depth cs = some (j, rest) → depth + j.depth ≤ depthLimit
  items : ∀ {depth items cs j rest}, depth < depthLimit →
    (∀ i ∈ items, depth + 1 + i.depth ≤ depthLimit) →
    readItems fuel (depth + 1) items cs = some (j, rest) → depth + j.depth ≤ depthLimit
  members : ∀ {depth members sound cs j rest}, depth < depthLimit →
    (∀ m ∈ members, depth + 1 + m.2.depth ≤ depthLimit) →
    readMembers fuel (depth + 1) members sound cs = some (j, rest) →
      depth + j.depth ≤ depthLimit

variable {fuel depth : Nat} {cs rest : List Char} {j : Json}

private theorem depth_add_arr_le {items : List Json} (hd : depth < depthLimit)
    (h : ∀ i ∈ items, depth + 1 + i.depth ≤ depthLimit) :
    depth + (arr items).depth ≤ depthLimit := by
  have hle : itemsDepth items ≤ depthLimit - depth - 1 :=
    itemsDepth_le_iff.mpr fun i hi => by have := h i hi; omega
  rw [Json.depth]
  omega

private theorem depth_add_obj_le {members : List (String × Json)} (hd : depth < depthLimit)
    (h : ∀ m ∈ members, depth + 1 + m.2.depth ≤ depthLimit) :
    depth + (obj members).depth ≤ depthLimit := by
  have hle : membersDepth members ≤ depthLimit - depth - 1 :=
    membersDepth_le_iff.mpr fun m hm => by have := h m hm; omega
  rw [Json.depth]
  omega

/-- At the limit an array or an object is read without a value. -/
private theorem depth_add_le_of_guarded {read : Option (Json × List Char)}
    (h : (if depth < depthLimit then read else read.map fun p => (.unreadable, p.2)) =
      some (j, rest)) (hd : depth ≤ depthLimit)
    (hread : depth < depthLimit → read = some (j, rest) → depth + j.depth ≤ depthLimit) :
    depth + j.depth ≤ depthLimit := by
  split at h
  · next hlt => exact hread hlt h
  · obtain ⟨_, -, h⟩ := Option.map_eq_some_iff.mp h
    cases h
    exact hd

private theorem StaysWithin.value_succ (h : StaysWithin fuel) (hd : depth ≤ depthLimit)
    (hr : readValue (fuel + 1) depth cs = some (j, rest)) : depth + j.depth ≤ depthLimit := by
  unfold readValue at hr
  split at hr
  · cases hr
    exact hd
  · cases hr
    exact hd
  · cases hr
    exact hd
  · split at hr
    · cases hr
      exact hd
    · cases hr
      exact hd
    · cases hr
  · refine depth_add_le_of_guarded hr hd fun hlt hr => ?_
    split at hr
    · cases hr
      exact depth_add_arr_le hlt (List.forall_mem_nil _)
    · exact h.items hlt (List.forall_mem_nil _) hr
  · refine depth_add_le_of_guarded hr hd fun hlt hr => ?_
    split at hr
    · cases hr
      exact depth_add_obj_le hlt (List.forall_mem_nil _)
    · exact h.members hlt (List.forall_mem_nil _) hr
  · rw [depth_of_readNumber hr]
    exact hd

private theorem StaysWithin.items_succ (h : StaysWithin fuel) {items : List Json}
    (hd : depth < depthLimit) (hi : ∀ i ∈ items, depth + 1 + i.depth ≤ depthLimit)
    (hr : readItems (fuel + 1) (depth + 1) items cs = some (j, rest)) :
    depth + j.depth ≤ depthLimit := by
  unfold readItems at hr
  split at hr
  · cases hr
  · next item after hitem =>
    have hall : ∀ i ∈ item :: items, depth + 1 + i.depth ≤ depthLimit :=
      List.forall_mem_cons.mpr ⟨h.value hd hitem, hi⟩
    split at hr
    · exact h.items hd hall hr
    · cases hr
      exact depth_add_arr_le hd fun i hi => hall i (List.mem_reverse.mp hi)
    · cases hr

private theorem StaysWithin.members_succ (h : StaysWithin fuel) {members : List (String × Json)}
    {sound : Bool} (hd : depth < depthLimit)
    (hm : ∀ m ∈ members, depth + 1 + m.2.depth ≤ depthLimit)
    (hr : readMembers (fuel + 1) (depth + 1) members sound cs = some (j, rest)) :
    depth + j.depth ≤ depthLimit := by
  unfold readMembers at hr
  split at hr
  · split at hr
    · cases hr
    · next name after _ =>
      split at hr
      · split at hr
        · cases hr
        · next item after hitem =>
          have hall : ∀ m ∈ (name.getD "", item) :: members,
              depth + 1 + m.2.depth ≤ depthLimit :=
            List.forall_mem_cons.mpr ⟨h.value hd hitem, hm⟩
          dsimp only at hr
          split at hr
          · exact h.members hd hall hr
          · split at hr
            · cases hr
              exact depth_add_obj_le hd fun m hm => hall m (List.mem_reverse.mp hm)
            · cases hr
              exact Nat.le_of_lt hd
          · cases hr
      · cases hr
  · cases hr

private theorem staysWithin (fuel : Nat) : StaysWithin fuel := by
  induction fuel with
  | zero =>
    refine ⟨fun _ h => ?_, fun _ _ h => ?_, fun _ _ h => ?_⟩
    · rw [readValue] at h
      cases h
    · rw [readItems] at h
      cases h
    · rw [readMembers] at h
      cases h
  | succ fuel ih => exact ⟨ih.value_succ, ih.items_succ, ih.members_succ⟩

/-- What a text denotes is not nested deeper than the limit. -/
theorem depth_le_of_read? {text : String} (h : read? text = some j) : j.depth ≤ depthLimit := by
  unfold read? parse? at h
  split at h
  · next hr =>
    split at h
    · cases h
      have := (staysWithin _).value (Nat.zero_le _) hr
      omega
    · cases h
  · cases h

/-! ### The parts of records -/

private theorem exists_of_mem_mapM {α β : Type} {f : α → Option β} {l : List α} {l' : List β}
    (h : l.mapM f = some l') {b : β} (hb : b ∈ l') : ∃ a ∈ l, f a = some b := by
  induction l generalizing l' with
  | nil =>
    cases h
    cases hb
  | cons a rest ih =>
    rw [List.mapM_cons] at h
    obtain ⟨c, hc, h⟩ := Option.bind_eq_some_iff.mp h
    obtain ⟨rest', hrest, h⟩ := Option.bind_eq_some_iff.mp h
    cases h
    rcases List.mem_cons.mp hb with rfl | hb
    · exact ⟨a, List.mem_cons_self, hc⟩
    · obtain ⟨a', ha', hf⟩ := ih hrest hb
      exact ⟨a', List.mem_cons_of_mem _ ha', hf⟩

theorem mem_of_distinctMembers {β : Type} {names : List String} {members : List (String × β)}
    {fields : List (Option β)} (h : distinctMembers names members = some fields) {b : β}
    (hb : some b ∈ fields) : ∃ name, (name, b) ∈ members := by
  obtain ⟨name, -, hf⟩ := exists_of_mem_mapM h hb
  split at hf
  · cases hf
  · next m hm =>
    cases hf
    have hmem : m ∈ members.filter fun m => m.1 == name := hm ▸ List.mem_cons_self
    exact ⟨m.1, (List.mem_filter.mp hmem).1⟩
  · cases hf

/-- The fields of a record are nested less deep than the record. -/
theorem depth_lt_of_record? {fields : List (String × Bool)} {l : List (Option Json)}
    (h : record? fields j = some l) {c : Json} (hc : some c ∈ l) : c.depth < j.depth := by
  unfold record? at h
  split at h
  · obtain ⟨name, hm⟩ := mem_of_distinctMembers h hc
    exact depth_lt_of_mem_obj hm
  · split at h
    · cases h
      obtain ⟨⟨_, i⟩, -, hi⟩ := List.mem_map.mp hc
      exact depth_lt_of_mem_arr (List.mem_of_getElem? hi)
    · cases h
  · cases h

/-- What is in a list is denoted by an item that is nested less deep than the list. -/
theorem exists_of_mem_list? {α : Type} {f : Json → Option α} {l : List α}
    (h : list? f j = some l) {a : α} (ha : a ∈ l) : ∃ i, i.depth < j.depth ∧ f i = some a := by
  unfold list? at h
  split at h
  · obtain ⟨i, hi, hf⟩ := exists_of_mem_mapM h ha
    exact ⟨i, depth_lt_of_mem_arr hi, hf⟩
  · cases h

/-- The data of what the items of a list denote is not nested deeper than the list, small depths
aside. -/
theorem depth_arr_le_of_list? {α : Type} {f : Json → Option α} {g : α → Json} {n : Nat}
    {l : List α} (h : list? f j = some l)
    (hg : ∀ i a, f i = some a → (g a).depth ≤ max n i.depth) :
    (arr (l.map g)).depth ≤ max (n + 1) j.depth := by
  have hle : (arr (l.map g)).depth ≤ max n (j.depth - 1) + 1 := by
    rw [depth_arr_le_iff]
    intro i hi
    obtain ⟨a, ha, rfl⟩ := List.mem_map.mp hi
    obtain ⟨i, hlt, hf⟩ := exists_of_mem_list? h ha
    have := hg i a hf
    omega
  omega

end Json

/-! ### What data denotes -/

namespace Value

open Json

variable {access : Json.Access} {j : Json} {v : Value}

private theorem itemsDepth_itemsToJson_le {items : List Json} {values : List Value}
    (h : valuesOfJson? access items = some values)
    (hle : ∀ j ∈ items, ∀ v, ofJson? access j = some v → v.toJson.depth ≤ j.depth) :
    itemsDepth (itemsToJson values) ≤ itemsDepth items := by
  induction items generalizing values with
  | nil =>
    rw [valuesOfJson?] at h
    cases h
    exact Nat.le_refl _
  | cons j rest ih =>
    obtain ⟨hj, hrest⟩ := List.forall_mem_cons.mp hle
    rw [valuesOfJson?] at h
    split at h
    · next v values hv hvalues =>
      cases h
      have hhead := hj v hv
      have htail := ih hvalues hrest
      rw [itemsToJson, itemsDepth, itemsDepth]
      omega
    · cases h

/-- A value is no list, or is the list that its content holds. -/
private theorem depth_le_of_ofParts? {tag : String} {content : Option (Json × Option (List Value))}
    (h : ofParts? tag content = some v) :
    v.toJson.depth ≤ 1 ∨ ∃ c items, content = some (c, some items) ∧ v = .list items := by
  unfold ofParts? at h
  split at h
  · cases h
    exact .inl (Nat.le_refl _)
  · cases h
    exact .inl (Nat.le_refl _)
  · cases h
    exact .inl (Nat.le_refl _)
  · obtain ⟨x, -, rfl⟩ := Option.map_eq_some_iff.mp h
    exact .inl (Nat.le_refl _)
  · cases h
    exact .inl (Nat.le_refl _)
  · cases h
    exact .inr ⟨_, _, rfl, rfl⟩
  · cases h

private theorem mem_of_mem_membersWithItems {members : List (String × Json)} {name : String}
    {c : Json} {items : Option (List Value)}
    (h : (name, c, items) ∈ membersWithItems access members) :
    (name, c) ∈ members ∧ items = listOfJson? access c := by
  induction members with
  | nil =>
    rw [membersWithItems] at h
    cases h
  | cons m rest ih =>
    rw [membersWithItems] at h
    rcases List.mem_cons.mp h with h | h
    · cases h
      exact ⟨List.mem_cons_self, rfl⟩
    · exact (ih h).imp_left (List.mem_cons_of_mem _)

private theorem mem_of_mem_itemsWithItems {l : List Json} {c : Json}
    {items : Option (List Value)} (h : (c, items) ∈ itemsWithItems access l) :
    c ∈ l ∧ items = listOfJson? access c := by
  induction l with
  | nil =>
    rw [itemsWithItems] at h
    cases h
  | cons j rest ih =>
    rw [itemsWithItems] at h
    rcases List.mem_cons.mp h with h | h
    · cases h
      exact ⟨List.mem_cons_self, rfl⟩
    · exact (ih h).imp_left (List.mem_cons_of_mem _)

/-- The content of the data that denotes a value. -/
private theorem exists_content (h : ofJson? access j = some v) :
    ∃ tag inner content, ofParts? tag content = some v ∧ 0 < j.depth ∧
      ∀ c items, content = some (c, items) → c.depth < j.depth ∧ items = listOfJson? inner c := by
  unfold ofJson? at h
  split at h
  · next members =>
    dsimp only at h
    split at h
    · next tag _ content hm =>
      split at h
      · obtain ⟨name, -, hparts⟩ := Option.bind_eq_some_iff.mp h
        refine ⟨name, contentAccess access members, content, hparts, Nat.succ_pos _, ?_⟩
        rintro c items rfl
        obtain ⟨_, hc⟩ := mem_of_distinctMembers hm (List.mem_cons_of_mem _ List.mem_cons_self)
        obtain ⟨hc, hi⟩ := mem_of_mem_membersWithItems hc
        exact ⟨depth_lt_of_mem_obj hc, hi⟩
      · cases h
    · cases h
  · next l =>
    split at h
    · next tag _ content hl =>
      obtain ⟨name, -, hparts⟩ := Option.bind_eq_some_iff.mp h
      refine ⟨name, access, some content, hparts, Nat.succ_pos _, ?_⟩
      rintro c items hc
      cases hc
      have hmem : (c, items) ∈ itemsWithItems access l :=
        hl ▸ List.mem_cons_of_mem _ List.mem_cons_self
      obtain ⟨hc, hi⟩ := mem_of_mem_itemsWithItems hmem
      exact ⟨depth_lt_of_mem_arr hc, hi⟩
    · cases h
  · cases h

/-- The data of a value is not nested deeper than data that denotes it. -/
theorem depth_toJson_le (h : ofJson? access j = some v) : v.toJson.depth ≤ j.depth := by
  induction hn : j.depth using Nat.strongRecOn generalizing access j v with
  | ind n ih =>
    subst hn
    obtain ⟨tag, inner, content, hparts, hpos, hcontent⟩ := exists_content h
    rcases depth_le_of_ofParts? hparts with hle | ⟨c, items, rfl, rfl⟩
    · omega
    · obtain ⟨hc, hitems⟩ := hcontent c _ rfl
      unfold listOfJson? at hitems
      split at hitems
      · next l =>
        have hle := itemsDepth_itemsToJson_le hitems.symm fun i hi v hv =>
          ih i.depth (Nat.lt_trans (depth_lt_of_mem_arr hi) hc) hv rfl
        rw [depth] at hc
        simp only [toJson, depth, membersDepth]
        omega
      · cases hitems

end Value

namespace Dictionary

variable {α : Type}

private theorem mem_entries_foldl_insert {l : List (String × α)} {d : Dictionary α}
    {e : String × α} (h : e ∈ (l.foldl (fun d e => d.insert e.1 e.2) d).entries) :
    e ∈ d.entries ∨ e ∈ l := by
  induction l generalizing d with
  | nil => exact .inl h
  | cons a rest ih =>
    rcases ih h with h | h
    · rcases mem_insertEntry h with rfl | h
      · exact .inr List.mem_cons_self
      · exact .inl h
    · exact .inr (List.mem_cons_of_mem _ h)

/-- The entries of a map are among those that it was made of. -/
theorem mem_of_mem_entries_ofList {l : List (String × α)} {e : String × α}
    (h : e ∈ (ofList l).entries) : e ∈ l := by
  rcases mem_entries_foldl_insert h with h | h
  · cases h
  · exact h

end Dictionary

open Json

theorem Fields.depth_toJson_le {access : Access} {j : Json} {d : Fields}
    (h : Fields.ofJson? access j = some d) : d.toJson.depth ≤ j.depth := by
  obtain ⟨l, hl, rfl⟩ := Option.map_eq_some_iff.mp h
  unfold dictionary? at hl
  split at hl
  · next members =>
    rw [toJson, Json.depth, Json.depth, Nat.add_le_add_iff_right, membersDepth_le_iff]
    intro m hm
    obtain ⟨e, he, rfl⟩ := List.mem_map.mp hm
    obtain ⟨⟨name, j⟩, hmem, hf⟩ := exists_of_mem_mapM hl (Dictionary.mem_of_mem_entries_ofList he)
    obtain ⟨v, hv, rfl⟩ := Option.map_eq_some_iff.mp hf
    have hle := membersDepth_le_iff.mp (Nat.le_refl (membersDepth members)) _ hmem
    exact Nat.le_trans (Value.depth_toJson_le hv) hle
  · cases hl

/-- The data of a condition is not nested deeper than data that denotes it, small depths aside. -/
theorem Condition.depth_toJson_le {j : Json} {c : Condition} (h : Condition.ofJson? j = some c) :
    c.toJson.depth ≤ max 2 j.depth := by
  unfold Condition.ofJson? at h
  obtain ⟨l, hl, h⟩ := Option.bind_eq_some_iff.mp h
  split at h
  · next field operator value =>
    obtain ⟨_, -, h⟩ := Option.bind_eq_some_iff.mp h
    obtain ⟨_, -, h⟩ := Option.bind_eq_some_iff.mp h
    obtain ⟨v, hv, h⟩ := Option.bind_eq_some_iff.mp h
    cases h
    have hle : v.toJson.depth ≤ max 1 (j.depth - 1) := by
      cases value with
      | none =>
        cases hv
        exact Nat.le_max_left _ _
      | some i =>
        have hi := depth_lt_of_record? hl (List.mem_cons_of_mem _ (List.mem_cons_of_mem _
          List.mem_cons_self))
        have := Value.depth_toJson_le hv
        omega
    simp only [toJson, Json.depth, membersDepth]
    omega
  · cases h

/-- The data of an action is not nested deeper than data that denotes it, small depths aside. -/
theorem Action.depth_toJson_le {j : Json} {a : Action} (h : Action.ofJson? j = some a) :
    a.toJson.depth ≤ max 2 j.depth := by
  unfold Action.ofJson? at h
  obtain ⟨l, hl, h⟩ := Option.bind_eq_some_iff.mp h
  split at h
  · next order actionType parameters =>
    obtain ⟨_, -, h⟩ := Option.bind_eq_some_iff.mp h
    obtain ⟨_, -, h⟩ := Option.bind_eq_some_iff.mp h
    obtain ⟨d, hd, h⟩ := Option.bind_eq_some_iff.mp h
    cases h
    have hle : d.toJson.depth ≤ max 1 (j.depth - 1) := by
      cases parameters with
      | none =>
        cases hd
        exact Nat.le_max_left _ _
      | some i =>
        have hi := depth_lt_of_record? hl (List.mem_cons_of_mem _ (List.mem_cons_of_mem _
          List.mem_cons_self))
        have := Fields.depth_toJson_le hd
        omega
    simp only [toJson, Json.depth, membersDepth]
    omega
  · cases h

end RuleEngine
