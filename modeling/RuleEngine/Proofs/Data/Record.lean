import RuleEngine.Rule.Json

/-!
# Records are kept by their members

Data that is written item by item or field by field is read in the same way. A record is written as
an object whose members have the names of its fields, in their order; a field may be left out. When
no two fields have the same name, every field is read from its own member, and one that was left out
from none.

## Main definitions

* `Json.present`: the members of a record whose fields are not left out.

## Main results

* `Json.record?_present`, `Json.record?_obj`: a record is read field by field.
* `Json.optional_ofOption`, `Json.optional_map`: what may be absent is null, or left out.
-/

namespace RuleEngine.Json

variable {α β γ : Type}

/-! ### Items -/

theorem mapM_map_eq_some_map {f : β → Option γ} {g : α → β} {h : α → γ} {l : List α}
    (hl : ∀ a ∈ l, f (g a) = some (h a)) : (l.map g).mapM f = some (l.map h) := by
  induction l with
  | nil => rfl
  | cons a rest ih =>
    obtain ⟨ha, hrest⟩ := List.forall_mem_cons.mp hl
    rw [List.map_cons, List.mapM_cons, ha, ih hrest]
    rfl

/-- What is written item by item is read item by item. -/
theorem mapM_map_eq_some {f : β → Option α} {g : α → β} {l : List α}
    (h : ∀ a ∈ l, f (g a) = some a) : (l.map g).mapM f = some l :=
  (mapM_map_eq_some_map h).trans (congrArg some l.map_id)

/-- What is written item by item is read as what was written, if each item is when it is read. -/
theorem eq_of_mapM_map {f : β → Option α} {g : α → β} {l l' : List α}
    (hl : ∀ a ∈ l, ∀ a', f (g a) = some a' → a' = a) (h : (l.map g).mapM f = some l') :
    l' = l := by
  induction l generalizing l' with
  | nil => exact (Option.some.inj h).symm
  | cons a rest ih =>
    obtain ⟨ha, hrest⟩ := List.forall_mem_cons.mp hl
    rw [List.map_cons, List.mapM_cons] at h
    obtain ⟨a', hf, h⟩ := Option.bind_eq_some_iff.mp h
    obtain ⟨rest', hm, h⟩ := Option.bind_eq_some_iff.mp h
    cases h
    rw [ha a' hf, ih hrest hm]

/-! ### Members -/

/-- The members of a record: those of its fields that are not left out, in their order. -/
def present (values : List (String × Option Json)) : List (String × Json) :=
  values.flatMap fun v => (v.2.map (v.1, ·)).toList

theorem name_mem_of_mem_present {values : List (String × Option Json)} {m : String × Json}
    (h : m ∈ present values) : m.1 ∈ values.map (·.1) := by
  obtain ⟨v, hv, hm⟩ := List.mem_flatMap.mp h
  obtain ⟨j, -, rfl⟩ := Option.map_eq_some_iff.mp (Option.mem_toList.mp hm)
  exact List.mem_map_of_mem hv

/-- There is no member with a name but the one of the field of that name. -/
theorem filter_present {values : List (String × Option Json)} (hd : (values.map (·.1)).Nodup)
    {v : String × Option Json} (hv : v ∈ values) :
    (present values).filter (fun m => m.1 == v.1) = (v.2.map (v.1, ·)).toList := by
  have hfirst (name : String) (u : String × Option Json) :
      (u.2.map (u.1, ·)).toList.filter (fun m => m.1 == name) =
        if u.1 = name then (u.2.map (u.1, ·)).toList else [] := by
    rcases u with ⟨n, j | j⟩ <;> by_cases hn : n = name <;> simp [hn]
  induction values with
  | nil => cases hv
  | cons u rest ih =>
    rw [List.map_cons, List.nodup_cons] at hd
    rw [present, List.flatMap_cons, List.filter_append, hfirst]
    rcases List.mem_cons.mp hv with rfl | hv
    · have hrest : (present rest).filter (fun m => m.1 == v.1) = [] := by
        rw [List.filter_eq_nil_iff]
        intro m hm he
        exact hd.1 (beq_iff_eq.mp he ▸ name_mem_of_mem_present hm)
      rw [if_pos rfl]
      exact (congrArg _ hrest).trans (List.append_nil _)
    · have hne : u.1 ≠ v.1 := fun he => hd.1 (he ▸ List.mem_map_of_mem hv)
      rw [if_neg hne]
      exact ih hd.2 hv

/-- A record some of whose fields are left out is read field by field. -/
theorem record?_present {fields : List (String × Bool)} {values : List (String × Option Json)}
    (hn : fields.map (·.1) = values.map (·.1)) (hd : (fields.map (·.1)).Nodup) :
    (Json.obj (present values)).record? fields = some (values.map (·.2)) := by
  rw [record?, hn]
  refine mapM_map_eq_some_map fun v hv => ?_
  rw [filter_present (hn ▸ hd) hv]
  cases v.2 <;> rfl

/-- An object with just the fields of a record, in their order, is read field by field. -/
theorem record?_obj {fields : List (String × Bool)} {members : List (String × Json)}
    (hn : fields.map (·.1) = members.map (·.1)) (hd : (fields.map (·.1)).Nodup) :
    (Json.obj members).record? fields = some (members.map fun m => some m.2) := by
  let values : List (String × Option Json) := members.map fun m => (m.1, some m.2)
  have hmembers : present values = members := by
    simp [present, values, List.flatMap_map]
  have hnames : values.map (·.1) = members.map (·.1) := List.map_map
  have hread := record?_present (hn.trans hnames.symm) hd
  rw [hmembers] at hread
  exact hread.trans (congrArg some List.map_map)

/-! ### Fields -/

theorem required_eq_some {f : Json → Option α} {j : Json} {a : α} (h : f j = some a) :
    required f (some j) = some a := h

theorem defaulted_list_eq_some {f : Json → Option α} {g : α → Json} {l : List α}
    (h : ∀ a ∈ l, f (g a) = some a) :
    defaulted [] (list? f) (some (.arr (l.map g))) = some l :=
  mapM_map_eq_some h

/-- A field that is not null if there is one may be left out. -/
theorem optional_map {f : Json → Option α} {g : α → Json} {a : Option α}
    (h : ∀ x, a = some x → g x ≠ .null ∧ f (g x) = some x) : optional f (a.map g) = some a := by
  cases a with
  | none => rfl
  | some x =>
    obtain ⟨hne, hx⟩ := h x rfl
    rw [Option.map_some, optional]
    · rw [hx]
      rfl
    · exact hne

/-- A field that is not null if there is one may be null. -/
theorem optional_ofOption {f : Json → Option α} {g : α → Json} {a : Option α}
    (h : ∀ x, a = some x → g x ≠ .null ∧ f (g x) = some x) :
    optional f (some (ofOption g a)) = some a := by
  cases a with
  | none => rfl
  | some x => exact optional_map h

end RuleEngine.Json
