import RuleEngine.Proofs.Service.Seed
import RuleEngine.Proofs.Store.Rewriting

/-!
# The rows of seeded rules

A seeded definition is about the rule of its tenant with its name. It redefines the row of that
rule, or a new row is added for it. Definitions are applied one after the other, so that of several
with one tenant and name the last one counts, and rows with other tenants or names are left alone.
When every definition has its row already, no row is added. If each row has the last definition for
it, only the time of its update changes.

## Main definitions

* `RuleRow.key`, `RuleSeed.key`: tenant and name.
* `RuleSeed.Defines`: the columns of a row are those of a definition.
* `RuleSeed.upsert`, `RuleSeed.upsertAll`: the rows after one definition, and after several.

## Main results

* `RuleSeed.exists_kept_of_mem`: what becomes of a row.
* `RuleSeed.mem_of_mem_upsertAll`: where a row comes from.
* `RuleSeed.exists_defines_of_last`: the last definition for a rule is that of its row.
* `RuleSeed.upsertAll_of_settled`: what the same definitions change afterwards.
-/

namespace RuleEngine

/-- The tenant and the name of a row. -/
def RuleRow.key (row : RuleRow) : TenantId × String := (row.tenant, row.name)

namespace RuleSeed

/-- The tenant and the name of the rule that a definition is about. -/
def key (s : RuleSeed) : TenantId × String := (s.tenant, s.name)

/-- The rule of a definition, with an identifier and as of an instant. -/
def rule (s : RuleSeed) (id : RuleId) (now : Timestamp) : Rule where
  id
  tenant := s.tenant
  name := s.name
  trigger := s.trigger
  combination := s.combination
  active := s.active
  delaySeconds := s.delaySeconds
  conditions := s.conditions
  actions := s.actions
  lastTick := none
  createdAt := now
  updatedAt := now

/-- Whether the columns of a row are those of a definition. -/
structure Defines (s : RuleSeed) (row : RuleRow) : Prop where
  tenant : row.tenant = s.tenant
  name : row.name = s.name
  triggerKind : row.triggerKind = s.trigger.kind.name
  trigger : row.trigger = Column.ofJson s.trigger.toJson
  combination : row.combination = s.combination.name
  active : row.active = s.active
  delaySeconds : row.delaySeconds = s.delaySeconds.map (min RuleRow.longestDelay)
  conditions : row.conditions = Column.ofJson (.arr (s.conditions.map Condition.toJson))
  actions : row.actions = Column.ofJson (.arr (s.actions.map Action.toJson))

/-- The row with a definition, if it is the one that the definition is about. -/
def overwrite (now : Timestamp) (s : RuleSeed) (row : RuleRow) : RuleRow :=
  if row.key = s.key then row.redefined (s.rule row.id now) now else row

/-- The rows after a definition: the row that it is about is redefined, or a new one is added. -/
def upsert (s : RuleSeed) (fresh : RuleId) (now : Timestamp) (rows : List RuleRow) :
    List RuleRow :=
  if s.key ∈ rows.map RuleRow.key then rows.map (s.overwrite now)
  else rows ++ [.ofRule (s.rule fresh now)]

/-- The rows after definitions one after the other. -/
def upsertAll (fresh : Nat → RuleId) (clock : Readings) :
    Nat → List RuleSeed → List RuleRow → List RuleRow
  | _, [], rows => rows
  | saved, s :: rest, rows =>
    upsertAll fresh clock (saved + 1) rest (s.upsert (fresh saved) (clock.reading saved) rows)

variable {s : RuleSeed} {seeds : List RuleSeed} {id fresh : RuleId} {now : Timestamp}
  {row row' : RuleRow} {rows : List RuleRow} {ids : Nat → RuleId} {clock : Readings} {saved : Nat}

/-! ### One definition -/

/-- A definition is built into its rule, if the rule passes the checks. -/
theorem build_eq (s : RuleSeed) (id : RuleId) (now : Timestamp) :
    s.build id now = (s.rule id now).validate.map fun _ => s.rule id now := by
  rw [build, applyAll_steps]
  rfl

/-- Neither the identifier nor the time makes a difference to the checks. -/
theorem validate_rule (s : RuleSeed) (id id' : RuleId) (now now' : Timestamp) :
    (s.rule id now).validate = (s.rule id' now').validate := rfl

/-- The rule of a definition that can be read back can be read back. -/
theorem IsStorable.rule (h : s.IsStorable) (id : RuleId) (now : Timestamp) :
    (s.rule id now).IsStorable :=
  ⟨h.cron, h.order, h.conditions, h.actions⟩

theorem defines_ofRule (s : RuleSeed) (id : RuleId) (now : Timestamp) :
    s.Defines (.ofRule (s.rule id now)) :=
  ⟨rfl, rfl, rfl, rfl, rfl, rfl, rfl, rfl, rfl⟩

theorem Defines.key_eq (h : s.Defines row) : row.key = s.key := Prod.ext h.tenant h.name

/-- To define a row as it is defined changes the time of its update only. -/
theorem Defines.redefined_eq (h : s.Defines row) :
    row.redefined (s.rule id now) now = { row with updatedAt := Column.ofInstant now } := by
  simp only [RuleRow.redefined, RuleRow.ofRule, rule, h.name, h.triggerKind, h.trigger,
    h.combination, h.active, h.delaySeconds, h.conditions, h.actions]

theorem overwrite_of_eq (h : row.key = s.key) :
    s.overwrite now row = row.redefined (s.rule row.id now) now := if_pos h

theorem overwrite_of_ne (h : row.key ≠ s.key) : s.overwrite now row = row := if_neg h

/-- A row that is overwritten has the definition. -/
theorem defines_overwrite (h : row.key = s.key) : s.Defines (s.overwrite now row) := by
  rw [overwrite_of_eq h]
  exact ⟨(Prod.mk.inj h).1, rfl, rfl, rfl, rfl, rfl, rfl, rfl, rfl⟩

/-- What a definition leaves alone in every row. -/
structure Keeps (row row' : RuleRow) : Prop where
  id : row'.id = row.id
  key : row'.key = row.key
  createdAt : row'.createdAt = row.createdAt
  lastTick : row'.lastTick = row.lastTick

theorem keeps_rfl : Keeps row row := ⟨rfl, rfl, rfl, rfl⟩

theorem Keeps.trans {row'' : RuleRow} (h : Keeps row row') (h' : Keeps row' row'') :
    Keeps row row'' :=
  ⟨h'.id.trans h.id, h'.key.trans h.key, h'.createdAt.trans h.createdAt,
    h'.lastTick.trans h.lastTick⟩

theorem keeps_overwrite (now : Timestamp) (s : RuleSeed) (row : RuleRow) :
    Keeps row (s.overwrite now row) := by
  by_cases h : row.key = s.key
  · rw [overwrite_of_eq h]
    exact ⟨rfl, Prod.ext rfl (Prod.mk.inj h).2.symm, rfl, rfl⟩
  · rw [overwrite_of_ne h]
    exact keeps_rfl

/-- A row becomes a row of the same rule, and is left alone if the definition is not about it. -/
theorem exists_kept_of_mem_upsert (s : RuleSeed) (fresh : RuleId) (now : Timestamp)
    (h : row ∈ rows) : ∃ row' ∈ s.upsert fresh now rows,
      Keeps row row' ∧ (row.key ≠ s.key → row' = row) := by
  unfold upsert
  split
  · exact ⟨_, List.mem_map_of_mem h, keeps_overwrite now s row, overwrite_of_ne⟩
  · exact ⟨row, List.mem_append_left _ h, keeps_rfl, fun _ => rfl⟩

/-- A row is the one that the definition is about, or it was there before. -/
theorem mem_of_mem_upsert (h : row ∈ s.upsert fresh now rows) :
    s.Defines row ∨ row ∈ rows ∧ row.key ≠ s.key := by
  unfold upsert at h
  split at h
  · obtain ⟨before, hm, rfl⟩ := List.mem_map.mp h
    by_cases hkey : before.key = s.key
    · exact .inl (defines_overwrite hkey)
    · rw [overwrite_of_ne hkey]
      exact .inr ⟨hm, hkey⟩
  · next hnew =>
    rcases List.mem_append.mp h with hm | hm
    · exact .inr ⟨hm, fun hkey => hnew (hkey ▸ List.mem_map_of_mem hm)⟩
    · obtain rfl := List.mem_singleton.mp hm
      exact .inl (defines_ofRule s fresh now)

/-- After a definition there is a row that it is about. -/
theorem exists_mem_upsert (s : RuleSeed) (fresh : RuleId) (now : Timestamp)
    (rows : List RuleRow) : ∃ row ∈ s.upsert fresh now rows, row.key = s.key := by
  unfold upsert
  split
  · next h =>
    obtain ⟨row, hm, hkey⟩ := List.mem_map.mp h
    exact ⟨_, List.mem_map_of_mem hm, (keeps_overwrite now s row).key.trans hkey⟩
  · exact ⟨_, List.mem_append_right _ (List.mem_singleton_self _), rfl⟩

/-! ### Several definitions -/

theorem upsertAll_append (before after : List RuleSeed) :
    upsertAll ids clock saved (before ++ after) rows =
      upsertAll ids clock (saved + before.length) after (upsertAll ids clock saved before rows) := by
  induction before generalizing saved rows with
  | nil => rfl
  | cons s before ih =>
    rw [List.cons_append, upsertAll, ih, List.length_cons, Nat.add_right_comm]
    rfl

/-- A row becomes a row of the same rule, and is left alone if no definition is about it. -/
theorem exists_kept_of_mem (h : row ∈ rows) : ∃ row' ∈ upsertAll ids clock saved seeds rows,
    Keeps row row' ∧ (row.key ∉ seeds.map key → row' = row) := by
  induction seeds generalizing saved rows row with
  | nil => exact ⟨row, h, keeps_rfl, fun _ => rfl⟩
  | cons s rest ih =>
    obtain ⟨row₁, hm₁, hkeeps₁, hsame₁⟩ := exists_kept_of_mem_upsert s (ids saved) (clock.reading saved) h
    obtain ⟨row₂, hm₂, hkeeps₂, hsame₂⟩ : ∃ row₂ ∈ upsertAll ids clock (saved + 1) rest _, _ :=
      ih hm₁
    refine ⟨row₂, hm₂, hkeeps₁.trans hkeeps₂, fun hkey => ?_⟩
    obtain ⟨hs, hrest⟩ := not_or.mp (List.mem_cons.not.mp hkey)
    rw [hsame₂ (hkeeps₁.key ▸ hrest), hsame₁ hs]

/-- A row that no definition is about was there before. -/
theorem mem_of_mem_upsertAll (h : row ∈ upsertAll ids clock saved seeds rows)
    (hkey : row.key ∉ seeds.map key) : row ∈ rows := by
  induction seeds generalizing saved rows with
  | nil => exact h
  | cons s rest ih =>
    obtain ⟨hs, hrest⟩ := not_or.mp (List.mem_cons.not.mp hkey)
    rcases mem_of_mem_upsert (ih h hrest) with hdefines | ⟨hm, -⟩
    · exact absurd hdefines.key_eq hs
    · exact hm

/-- The last definition for a rule is that of its row. -/
theorem exists_defines_of_last {before after : List RuleSeed} (h : s.key ∉ after.map key) :
    (∃ row ∈ upsertAll ids clock saved (before ++ s :: after) rows, row.key = s.key) ∧
      ∀ row ∈ upsertAll ids clock saved (before ++ s :: after) rows, row.key = s.key →
        s.Defines row := by
  rw [upsertAll_append, upsertAll]
  constructor
  · obtain ⟨row, hm, hkey⟩ := exists_mem_upsert s (ids (saved + before.length))
      (clock.reading (saved + before.length)) (upsertAll ids clock saved before rows)
    obtain ⟨row', hm', hkeeps, -⟩ := exists_kept_of_mem hm
    exact ⟨row', hm', hkeeps.key.trans hkey⟩
  · intro row hm hkey
    rcases mem_of_mem_upsert (mem_of_mem_upsertAll hm (hkey ▸ h)) with hdefines | ⟨-, hne⟩
    · exact hdefines
    · exact absurd hkey hne

/-! ### The same definitions again -/

/-- A row with the definitions that are about it, one after the other. -/
def overwriteAll (clock : Readings) : Nat → List RuleSeed → RuleRow → RuleRow
  | _, [], row => row
  | saved, s :: rest, row =>
    overwriteAll clock (saved + 1) rest (s.overwrite (clock.reading saved) row)

/-- The row after definitions each of which it had before: it is as of the last one that is about
it. -/
def touch (clock : Readings) : Nat → List RuleSeed → RuleRow → RuleRow
  | _, [], row => row
  | saved, s :: rest, row => touch clock (saved + 1) rest
      (if row.key = s.key then { row with updatedAt := Column.ofInstant (clock.reading saved) }
        else row)

theorem upsert_of_mem (h : s.key ∈ rows.map RuleRow.key) :
    s.upsert fresh now rows = rows.map (s.overwrite now) := if_pos h

theorem map_key_overwrite (now : Timestamp) (s : RuleSeed) (rows : List RuleRow) :
    (rows.map (s.overwrite now)).map RuleRow.key = rows.map RuleRow.key :=
  map_key_map (fun row => (keeps_overwrite now s row).key) rows

/-- No row is added if every definition has its row. -/
theorem upsertAll_of_mem (h : ∀ s ∈ seeds, s.key ∈ rows.map RuleRow.key) :
    upsertAll ids clock saved seeds rows = rows.map (overwriteAll clock saved seeds) := by
  induction seeds generalizing saved rows with
  | nil => exact (List.map_id rows).symm
  | cons s rest ih =>
    obtain ⟨hs, hrest⟩ := List.forall_mem_cons.mp h
    rw [upsertAll, upsert_of_mem hs, ih (by rwa [map_key_overwrite]), List.map_map]
    rfl

theorem overwriteAll_append (before after : List RuleSeed) :
    overwriteAll clock saved (before ++ after) row =
      overwriteAll clock (saved + before.length) after (overwriteAll clock saved before row) := by
  induction before generalizing saved row with
  | nil => rfl
  | cons s before ih =>
    rw [List.cons_append, overwriteAll, ih, List.length_cons, Nat.add_right_comm]
    rfl

/-- A definition counts alike whatever definitions came before it. -/
theorem redefined_overwriteAll {r : Rule} :
    (overwriteAll clock saved seeds row).redefined r now = row.redefined r now := by
  induction seeds generalizing saved row with
  | nil => rfl
  | cons s rest ih =>
    rw [overwriteAll, ih]
    by_cases h : row.key = s.key
    · rw [overwrite_of_eq h, RuleRow.redefined_redefined]
    · rw [overwrite_of_ne h]

theorem key_overwriteAll : (overwriteAll clock saved seeds row).key = row.key := by
  induction seeds generalizing saved row with
  | nil => rfl
  | cons s rest ih => exact ih.trans (keeps_overwrite _ s row).key

theorem overwriteAll_of_not_mem (h : row.key ∉ seeds.map key) :
    overwriteAll clock saved seeds row = row := by
  induction seeds generalizing saved with
  | nil => rfl
  | cons s rest ih =>
    obtain ⟨hs, hrest⟩ := not_or.mp (List.mem_cons.not.mp h)
    rw [overwriteAll, overwrite_of_ne hs, ih hrest]

theorem touch_append (before after : List RuleSeed) :
    touch clock saved (before ++ after) row =
      touch clock (saved + before.length) after (touch clock saved before row) := by
  induction before generalizing saved row with
  | nil => rfl
  | cons s before ih =>
    rw [List.cons_append, touch, ih, List.length_cons, Nat.add_right_comm]
    rfl

/-- Only the time of the update is another one. -/
theorem exists_touch_eq : ∃ t, touch clock saved seeds row = { row with updatedAt := t } := by
  induction seeds generalizing saved row with
  | nil => exact ⟨row.updatedAt, rfl⟩
  | cons s rest ih =>
    rw [touch]
    split
    · obtain ⟨t, ht⟩ : ∃ t, touch clock (saved + 1) rest _ = _ := ih
      exact ⟨t, ht⟩
    · exact ih

theorem touch_of_not_mem (h : row.key ∉ seeds.map key) : touch clock saved seeds row = row := by
  induction seeds generalizing saved with
  | nil => rfl
  | cons s rest ih =>
    obtain ⟨hs, hrest⟩ := not_or.mp (List.mem_cons.not.mp h)
    rw [touch, if_neg hs, ih hrest]

/-- Of the definitions for a rule one is the last. -/
theorem exists_last_of_mem {k : TenantId × String} (h : k ∈ seeds.map key) :
    ∃ before s after, seeds = before ++ s :: after ∧ s.key = k ∧ k ∉ after.map key := by
  induction seeds with
  | nil => cases h
  | cons s rest ih =>
    by_cases hrest : k ∈ rest.map key
    · obtain ⟨before, s', after, rfl, hkey, hafter⟩ := ih hrest
      exact ⟨s :: before, s', after, rfl, hkey, hafter⟩
    · have hs : k = s.key := (List.mem_cons.mp h).resolve_right hrest
      exact ⟨[], s, rest, rfl, hs.symm, hrest⟩

/-- Whether every row has the last of the definitions that are about it. -/
def IsSettled (seeds : List RuleSeed) (rows : List RuleRow) : Prop :=
  ∀ before s after, seeds = before ++ s :: after → s.key ∉ after.map key →
    ∀ row ∈ rows, row.key = s.key → s.Defines row

/-- A row that has the last definition for it only gets another time of its update. -/
theorem IsSettled.overwriteAll_eq (h : IsSettled seeds rows) (hm : row ∈ rows) :
    overwriteAll clock saved seeds row = touch clock saved seeds row := by
  by_cases hkey : row.key ∈ seeds.map key
  · obtain ⟨before, s, after, rfl, hs, hafter⟩ := exists_last_of_mem hkey
    have hdefines := h before s after rfl (hs ▸ hafter) row hm hs.symm
    obtain ⟨t, ht⟩ : ∃ t, touch clock saved before row = { row with updatedAt := t } :=
      exists_touch_eq
    -- the definitions after the last one are about other rows, and it undoes the ones before it
    have hover : (overwriteAll clock saved before row).key = s.key := key_overwriteAll.trans hs.symm
    have htouch : (touch clock saved before row).key = s.key := by
      rw [ht]
      exact hs.symm
    rw [overwriteAll_append, touch_append, overwriteAll, touch, overwrite_of_eq hover,
      redefined_overwriteAll, hdefines.redefined_eq, if_pos htouch, ht]
    rw [overwriteAll_of_not_mem, touch_of_not_mem]
    all_goals exact hafter
  · rw [overwriteAll_of_not_mem hkey, touch_of_not_mem hkey]

/-- Where every definition has its row, and every row the last definition for it, the definitions
change the times of updates only. -/
theorem upsertAll_of_settled (h : IsSettled seeds rows)
    (hrows : ∀ s ∈ seeds, s.key ∈ rows.map RuleRow.key) :
    upsertAll ids clock saved seeds rows = rows.map (touch clock saved seeds) := by
  rw [upsertAll_of_mem hrows]
  exact List.map_congr_left fun row hm => h.overwriteAll_eq hm

/-- After the definitions every row has the last one for it. -/
theorem isSettled_upsertAll : IsSettled seeds (upsertAll ids clock saved seeds rows) := by
  rintro before s after rfl hlast
  exact (exists_defines_of_last hlast).2

/-- After the definitions every one of them has its row. -/
theorem mem_map_key_upsertAll (h : s ∈ seeds) :
    s.key ∈ (upsertAll ids clock saved seeds rows).map RuleRow.key := by
  obtain ⟨before, s', after, rfl, hkey, hlast⟩ := exists_last_of_mem (List.mem_map_of_mem h)
  obtain ⟨⟨row, hm, hrow⟩, -⟩ := exists_defines_of_last (hkey.symm ▸ hlast)
  exact List.mem_map.mpr ⟨row, hm, hrow.trans hkey⟩

end RuleSeed

end RuleEngine
