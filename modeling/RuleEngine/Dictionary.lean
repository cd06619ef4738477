/-!
# Dictionaries

Finite maps from names, kept as lists in the strict order of the names. Every map has one form,
so equal maps are equal data.
-/

namespace RuleEngine

/-- A finite map from names, in the order of the names. -/
structure Dictionary (α : Type) where
  entries : List (String × α)
  ascending : entries.Pairwise fun a b => a.1 < b.1

namespace Dictionary

variable {α : Type}

instance [DecidableEq α] : DecidableEq (Dictionary α) := fun a b =>
  if h : a.entries = b.entries then
    .isTrue (by cases a; cases b; simp_all)
  else .isFalse fun e => h (by rw [e])

/-- The map without entries. -/
def empty : Dictionary α := ⟨[], .nil⟩

instance : Inhabited (Dictionary α) := ⟨empty⟩

/-- Puts an entry in its place among entries in order, replacing one of the same name. -/
def insertEntry (name : String) (value : α) : List (String × α) → List (String × α)
  | [] => [(name, value)]
  | (n, v) :: rest =>
    if name < n then (name, value) :: (n, v) :: rest
    else if name = n then (name, value) :: rest
    else (n, v) :: insertEntry name value rest

theorem mem_insertEntry {name : String} {value : α} {l : List (String × α)} {e : String × α}
    (h : e ∈ insertEntry name value l) : e = (name, value) ∨ e ∈ l := by
  induction l with
  | nil => simpa [insertEntry] using h
  | cons a rest ih =>
    obtain ⟨n, v⟩ := a
    rw [insertEntry] at h
    split at h
    · simpa using h
    · split at h
      · rcases List.mem_cons.1 h with h | h
        · exact .inl h
        · exact .inr (List.mem_cons_of_mem _ h)
      · rcases List.mem_cons.1 h with h | h
        · exact .inr (by simp [h])
        · exact (ih h).imp id fun h => List.mem_cons_of_mem _ h

theorem pairwise_insertEntry (name : String) (value : α) {l : List (String × α)}
    (h : l.Pairwise fun a b => a.1 < b.1) :
    (insertEntry name value l).Pairwise fun a b => a.1 < b.1 := by
  induction l with
  | nil => simp [insertEntry]
  | cons a rest ih =>
    obtain ⟨n, v⟩ := a
    rw [insertEntry]
    have hn : ∀ e ∈ rest, n < e.1 := fun e he => List.rel_of_pairwise_cons h he
    have hr := h.of_cons
    split
    · next hlt =>
      refine List.Pairwise.cons ?_ h
      intro e he
      rcases List.mem_cons.1 he with rfl | he
      · exact hlt
      · exact String.lt_trans hlt (hn e he)
    · split
      · next heq =>
        exact List.Pairwise.cons (fun e he => by simpa [heq] using hn e he) hr
      · next hlt hne =>
        refine List.Pairwise.cons ?_ (ih hr)
        intro e he
        rcases mem_insertEntry he with rfl | he
        · rcases String.le_total n name with hle | hle
          · exact Classical.byContradiction fun h' =>
              hne (String.le_antisymm (String.not_lt.1 h') hle)
          · exact absurd (Classical.byContradiction fun h' =>
              hne (String.le_antisymm hle (String.not_lt.1 h'))) hlt
        · exact hn e he

/-- The map with an entry added or replaced. -/
def insert (d : Dictionary α) (name : String) (value : α) : Dictionary α :=
  ⟨insertEntry name value d.entries, pairwise_insertEntry name value d.ascending⟩

/-- The value of a name. -/
def get? (d : Dictionary α) (name : String) : Option α :=
  d.entries.lookup name

/-- An entry that is added or replaced is found under its name, and the others as before. -/
theorem get?_insert (d : Dictionary α) (name key : String) (value : α) :
    (d.insert name value).get? key = if key = name then some value else d.get? key := by
  have hlookup (k : String) (v : α) (l : List (String × α)) :
      ((k, v) :: l).lookup key = if key = k then some v else l.lookup key := by
    by_cases hk : key = k
    · simp [hk]
    · simp [List.lookup_cons, beq_eq_false_iff_ne.mpr hk, hk]
  obtain ⟨entries, ascending⟩ := d
  simp only [get?, insert]
  clear ascending
  induction entries with
  | nil => exact hlookup name value []
  | cons e rest ih =>
    obtain ⟨n, v⟩ := e
    rw [insertEntry]
    split
    · rw [hlookup]
    · split
      · next hn =>
        rw [hlookup, hlookup, ← hn]
        split <;> rfl
      · next hn =>
        rw [hlookup, hlookup, ih]
        by_cases hk : key = n
        · rw [if_pos hk, if_pos hk, if_neg fun hname : key = name => hn (hname.symm.trans hk)]
        · rw [if_neg hk, if_neg hk]

/-- The map without a name. -/
def erase (d : Dictionary α) (name : String) : Dictionary α :=
  ⟨d.entries.filter fun e => e.1 != name, d.ascending.filter _⟩

/-- Whether a name has a value. -/
def contains (d : Dictionary α) (name : String) : Bool :=
  (d.get? name).isSome

/-- The map of a list of entries, of which the last one of a name counts. -/
def ofList (entries : List (String × α)) : Dictionary α :=
  entries.foldl (fun d e => d.insert e.1 e.2) empty

/-- The names in order. -/
def names (d : Dictionary α) : List String :=
  d.entries.map (·.1)

end Dictionary

end RuleEngine
