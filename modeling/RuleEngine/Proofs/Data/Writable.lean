import RuleEngine.Proofs.Data.Execution
import RuleEngine.Proofs.Json.Text

/-!
# Typed data as text

The data of what is kept in columns has a value in all its parts, and the only integers in it are
the orders of actions. So its text is read as the data, unless it is nested too deep.

## Main results

* `Trigger.isWritable_toJson`, `Condition.isWritable_toJson`, `Action.isWritable_toJson`,
  `TriggerSnapshot.isWritable_toJson`, `ConditionResult.isWritable_toJson`,
  `ActionStep.isWritable_toJson`: the data of columns can be held by a text.
* `ActionStep.ofJson?_reread_eq_none`: an order beyond 64 bits is not read.
-/

namespace RuleEngine

/-! ### Data that a text can hold -/

namespace Json

mutual

/-- Data that a text can hold has a value in all its parts. -/
theorem IsWritable.isReadable : (j : Json) → j.IsWritable → j.isReadable
  | .null, _ => rfl
  | .bool _, _ => rfl
  | .int _, _ => rfl
  | .float _, _ => rfl
  | .str _, _ => rfl
  | .arr items, h => by
    rw [IsWritable] at h
    rw [isReadable]
    exact ItemsWritable.allReadable items h
  | .obj members, h => by
    rw [IsWritable] at h
    rw [isReadable]
    exact MembersWritable.membersReadable members h
  | .unreadable, h => by
    rw [IsWritable] at h
    exact h.elim

theorem ItemsWritable.allReadable : (items : List Json) → ItemsWritable items →
    Json.allReadable items
  | [], _ => rfl
  | j :: rest, h => by
    rw [ItemsWritable] at h
    rw [Json.allReadable, IsWritable.isReadable j h.1, ItemsWritable.allReadable rest h.2]
    rfl

theorem MembersWritable.membersReadable : (members : List (String × Json)) →
    MembersWritable members → Json.membersReadable members
  | [], _ => rfl
  | (_, j) :: rest, h => by
    rw [MembersWritable] at h
    rw [Json.membersReadable, IsWritable.isReadable j h.1,
      MembersWritable.membersReadable rest h.2]
    rfl

end

theorem isWritable_arr_map {α : Type} {g : α → Json} {l : List α}
    (h : ∀ a ∈ l, (g a).IsWritable) : (arr (l.map g)).IsWritable := by
  rw [IsWritable]
  induction l with
  | nil => trivial
  | cons a rest ih =>
    obtain ⟨ha, hrest⟩ := List.forall_mem_cons.mp h
    exact ⟨ha, ih hrest⟩

theorem isWritable_obj_iff {members : List (String × Json)} :
    (obj members).IsWritable ↔ ∀ m ∈ members, m.2.IsWritable := by
  rw [IsWritable]
  induction members with
  | nil => simp [MembersWritable]
  | cons m rest ih => rw [MembersWritable, ih, List.forall_mem_cons]

/-- A record can be held if its fields can. -/
theorem isWritable_present {values : List (String × Option Json)}
    (h : ∀ v ∈ values, ∀ j ∈ v.2, j.IsWritable) : (obj (present values)).IsWritable := by
  rw [isWritable_obj_iff]
  intro m hm
  obtain ⟨v, hv, hm⟩ := List.mem_flatMap.mp hm
  obtain ⟨j, hj, rfl⟩ := Option.map_eq_some_iff.mp (Option.mem_toList.mp hm)
  exact h v hv j hj

end Json

/-! ### Values -/

namespace Value

mutual

theorem isWritable_toJson : (v : Value) → v.toJson.IsWritable
  | .null => by simp [toJson, Json.IsWritable, Json.MembersWritable]
  | .boolean _ => by simp [toJson, Json.IsWritable, Json.MembersWritable]
  | .number _ => by simp [toJson, Json.IsWritable, Json.MembersWritable]
  | .string _ => by simp [toJson, Json.IsWritable, Json.MembersWritable]
  | .list items => by
    simp [toJson, Json.IsWritable, Json.MembersWritable, itemsWritable_itemsToJson items]

theorem itemsWritable_itemsToJson : (items : List Value) → Json.ItemsWritable (itemsToJson items)
  | [] => trivial
  | v :: rest => ⟨isWritable_toJson v, itemsWritable_itemsToJson rest⟩

end

end Value

theorem Fields.isWritable_toJson (d : Fields) : d.toJson.IsWritable := by
  rw [toJson, Json.isWritable_obj_iff]
  intro m hm
  obtain ⟨⟨_, v⟩, -, rfl⟩ := List.mem_map.mp hm
  exact v.isWritable_toJson

/-! ### What is kept in columns -/

theorem Trigger.isWritable_toJson (t : Trigger) : t.toJson.IsWritable := by
  cases t <;> simp [toJson, CronExpression.toJson, Json.IsWritable, Json.MembersWritable]

theorem Condition.isWritable_toJson (c : Condition) : c.toJson.IsWritable := by
  simp [toJson, Json.IsWritable, Json.MembersWritable, c.value.isWritable_toJson]

theorem Json.isMachineInt_natCast {n : Nat} : IsMachineInt n ↔ n < 0x10000000000000000 := by
  unfold IsMachineInt
  omega

theorem Json.isMachineInt_of_lt {n : Nat} (h : n < wordBound) : IsMachineInt n :=
  isMachineInt_natCast.mpr (Nat.lt_trans h (by decide))

theorem Action.isWritable_toJson {a : Action} (h : a.order < wordBound) :
    a.toJson.IsWritable := by
  simp [toJson, Json.IsWritable, Json.MembersWritable, Json.isMachineInt_of_lt h,
    a.parameters.isWritable_toJson]

theorem TriggerSnapshot.isWritable_toJson (t : TriggerSnapshot) : t.toJson.IsWritable := by
  cases t <;> simp [toJson, Timestamp.toJson, Json.IsWritable, Json.MembersWritable]

/-- An optional value can be held if there is none or it can. -/
theorem Json.isWritable_of_mem_map {α : Type} {g : α → Json} {o : Option α}
    (h : ∀ a, (g a).IsWritable) : ∀ j ∈ o.map g, j.IsWritable := by
  intro j hj
  obtain ⟨a, -, rfl⟩ := Option.map_eq_some_iff.mp hj
  exact h a

theorem ConditionResult.isWritable_toJson (r : ConditionResult) : r.toJson.IsWritable := by
  have hresolved : (Json.ofOption Value.toJson r.resolved).IsWritable := by
    cases r.resolved with
    | none => trivial
    | some v => exact v.isWritable_toJson
  rw [toJson_eq_present]
  refine Json.isWritable_present ?_
  simp only [List.forall_mem_cons, Option.mem_some_iff, forall_eq']
  exact ⟨trivial, trivial, r.expected.isWritable_toJson, hresolved,
    Json.isWritable_of_mem_map Value.isWritable_toJson, trivial,
    Json.isWritable_of_mem_map (g := Json.str) fun _ => trivial, List.forall_mem_nil _⟩

theorem ActionStep.isWritable_toJson {s : ActionStep} (h : Json.IsMachineInt s.order) :
    s.toJson.IsWritable := by
  rw [toJson_eq_present]
  refine Json.isWritable_present ?_
  simp only [List.forall_mem_cons, Option.mem_some_iff, forall_eq']
  exact ⟨h, trivial, s.parameters.isWritable_toJson, trivial,
    Json.isWritable_of_mem_map (g := Json.str) fun _ => trivial,
    Json.isWritable_of_mem_map Value.isWritable_toJson, trivial, trivial, List.forall_mem_nil _⟩

/-! ### Orders beyond 64 bits -/

/-- An integer that is no machine integer is no natural number of a field. -/
theorem Json.natBelow?_reread {n order : Nat} (h : ¬ IsMachineInt order) :
    natBelow? wordBound (reread n (.int order)) = none := by
  rw [isMachineInt_natCast] at h
  have hneg : ¬ ((order : Int) < 0) := by omega
  rw [reread]
  unfold numberOf
  simp only [List.append_nil, Int.natAbs_natCast, Text.digitsValue_decimal, hneg, decide_false, h,
    if_false, Bool.false_eq_true, ite_self]
  split <;> rfl

theorem Json.rereadMembers_present (n : Nat) (values : List (String × Option Json)) :
    rereadMembers n (present values) = present (values.map fun v => (v.1, v.2.map (reread n))) := by
  rw [rereadMembers_eq_map, present, present, List.map_flatMap, List.flatMap_map]
  refine List.flatMap_congr fun v _ => ?_
  rcases v with ⟨name, j | j⟩ <;> rfl

/-- An order beyond 64 bits is not read. -/
theorem ActionStep.ofJson?_reread_eq_none {s : ActionStep} (h : ¬ Json.IsMachineInt s.order)
    (n : Nat) : ofJson? (Json.reread n s.toJson) = none := by
  rw [toJson_eq_present, Json.reread]
  split
  · rw [Json.rereadMembers_present, ofJson?, Json.record?_present rfl (by decide)]
    have horder : Json.required (Json.natBelow? wordBound)
        (some (Json.reread (n + 1) (.int s.order))) = none := Json.natBelow?_reread h
    simp only [List.map_cons, Option.map_some, Option.bind_eq_bind, Option.bind_some, horder,
      Option.bind_none, List.map_nil]
  · rfl

end RuleEngine
