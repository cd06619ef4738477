import RuleEngine.Proofs.Data.Record

/-!
# Values are kept by their data

The data of a value has a value in all its parts and denotes the value, at any depth of lists and
whether it comes directly or is held back. So does the data of values by name.

## Main results

* `Value.ofJson?_toJson`: the data of a value denotes the value.
* `Fields.ofJson?_toJson`: the data of values by name denotes them.
-/

namespace RuleEngine

namespace Value

/-! ### Values -/

mutual

/-- The data of a value has a value in all its parts. -/
theorem isReadable_toJson : (v : Value) → v.toJson.isReadable
  | .null => rfl
  | .boolean _ => rfl
  | .number _ => rfl
  | .string _ => rfl
  | .list items => by
    have h := allReadable_itemsToJson items
    simp [toJson, Json.isReadable, Json.membersReadable, h]

theorem allReadable_itemsToJson : (items : List Value) → Json.allReadable (itemsToJson items)
  | [] => rfl
  | v :: rest => by
    rw [itemsToJson, Json.allReadable, isReadable_toJson v, allReadable_itemsToJson rest]
    rfl

end

/-- Data with a tag in front of a readable content denotes what the two denote. -/
private theorem ofJson?_tagged (access : Json.Access) (tag : String) {content : Json}
    (h : content.isReadable) :
    ofJson? access (.obj [("type", .str tag), ("value", content)]) =
      ofParts? tag (some (content, listOfJson? access content)) := by
  simp [ofJson?, contentAccess, membersWithItems, Json.distinctMembers, Json.name?, isContent, h]

mutual

/-- The data of a value denotes the value. -/
theorem ofJson?_toJson (access : Json.Access) : (v : Value) → ofJson? access v.toJson = some v
  | .null => by
    simp [toJson, ofJson?, membersWithItems, Json.distinctMembers, Json.name?, ofParts?]
  | .boolean b => by
    rw [toJson, ofJson?_tagged access _ rfl]
    rfl
  | .number x => by
    rw [toJson, ofJson?_tagged access _ rfl]
    rfl
  | .string s => by
    rw [toJson, ofJson?_tagged access _ rfl]
    rfl
  | .list items => by
    have hr : (Json.arr (itemsToJson items)).isReadable := by
      rw [Json.isReadable]
      exact allReadable_itemsToJson items
    rw [toJson, ofJson?_tagged access _ hr, listOfJson?, valuesOfJson?_itemsToJson access items]
    rfl

theorem valuesOfJson?_itemsToJson (access : Json.Access) :
    (items : List Value) → valuesOfJson? access (itemsToJson items) = some items
  | [] => by rw [itemsToJson, valuesOfJson?]
  | v :: rest => by
    rw [itemsToJson, valuesOfJson?, ofJson?_toJson access v, valuesOfJson?_itemsToJson access rest]

end

end Value

namespace Dictionary

/-! ### Values by name -/

variable {α : Type}

theorem insertEntry_of_forall_lt {name : String} {value : α} {l : List (String × α)}
    (h : ∀ e ∈ l, e.1 < name) : insertEntry name value l = l ++ [(name, value)] := by
  induction l with
  | nil => rfl
  | cons e rest ih =>
    obtain ⟨n, v⟩ := e
    obtain ⟨hn, hrest⟩ := List.forall_mem_cons.mp h
    have hlt : ¬ name < n := String.lt_asymm hn
    have hne : name ≠ n := fun he => String.lt_irrefl n (he ▸ hn)
    rw [insertEntry, if_neg hlt, if_neg hne, ih hrest, List.cons_append]

private theorem entries_foldl_insert (d : Dictionary α) {l : List (String × α)}
    (h : (d.entries ++ l).Pairwise fun a b => a.1 < b.1) :
    (l.foldl (fun d e => d.insert e.1 e.2) d).entries = d.entries ++ l := by
  induction l generalizing d with
  | nil => rw [List.foldl_nil, List.append_nil]
  | cons e rest ih =>
    have hi : (d.insert e.1 e.2).entries = d.entries ++ [e] :=
      insertEntry_of_forall_lt fun a ha =>
        (List.pairwise_append.mp h).2.2 a ha e List.mem_cons_self
    rw [List.foldl_cons, ih, hi, List.append_assoc]
    · rfl
    · rw [hi, List.append_assoc]
      exact h

/-- The entries of a map make the map. -/
theorem ofList_entries (d : Dictionary α) : ofList d.entries = d := by
  have h : (ofList d.entries).entries = d.entries := entries_foldl_insert empty d.ascending
  obtain ⟨entries, _⟩ := d
  rw [Dictionary.mk.injEq]
  exact h

end Dictionary

namespace Fields

/-- The data of values by name denotes them. -/
theorem ofJson?_toJson (access : Json.Access) (d : Fields) :
    ofJson? access d.toJson = some d := by
  rw [ofJson?, toJson, Json.dictionary?, Json.mapM_map_eq_some, Option.map_some,
    Dictionary.ofList_entries]
  intro e _
  simp only [Value.ofJson?_toJson, Option.map_some]

end Fields

end RuleEngine
