import RuleEngine.Proofs.Store.Standard

/-!
# Rows that are written again

An operation on a rule that is stored reads its row, changes the rule, and writes the whole row
again. What the operation has not changed is written as it was read. Here that is shown to be what
stood there before: every row of a database that can be reached is that of a rule, and the columns
of such a row are what is written for the rule that is read from them. So a row that is written
again is the old one but for the columns that the operation is about.

## Main definitions

* `Database.ReachableBy`: what calls can make of an empty database if the rules that they write have
  a property.
* `RuleRow.redefined`, `RuleRow.switched`: a row with another definition, and one that is switched.
* `Database.setRow`: a database with one row changed.

## Main results

* `Database.ReachableBy.exists_rule`: every row is that of a rule with the property.
* `RuleRow.ofRule_revised`, `RuleRow.ofRule_switched`: what an operation writes for the rule that it
  has read.
* `Database.replaceRule_eq_setRow`: a rule that replaces another one changes one row.
-/

namespace RuleEngine

/-! ### Databases that rules of a kind were written to -/

namespace Database

variable {P : Rule → Prop} {d d' : Database}

/-- What calls that are answered can make of an empty database, if every rule that they write has a
property. -/
inductive ReachableBy (P : Rule → Prop) : Database → Prop
  | empty : ReachableBy P {}
  | createRule {d d' : Database} (h : ReachableBy P d) (r : Rule) (hr : P r)
      (hw : RuleStore.createRule d r = .ok d') : ReachableBy P d'
  | updateRule {d d' : Database} (h : ReachableBy P d) (r : Rule) (hr : P r)
      (hw : RuleStore.updateRule d r = .ok d') : ReachableBy P d'
  | deleteRule {d d' : Database} (h : ReachableBy P d) {id : RuleId}
      (hw : RuleStore.deleteRule d id = .ok d') : ReachableBy P d'
  | claimTick {d d' : Database} (h : ReachableBy P d) {id : RuleId} {tick : Timestamp} {b : Bool}
      (hw : RuleStore.claimTick d id tick = .ok (b, d')) : ReachableBy P d'
  | appendRecord {d d' : Database} (h : ReachableBy P d) {r : ExecutionRecord}
      (hw : ExecutionLog.appendRecord d r = .ok d') : ReachableBy P d'
  | updateRecord {d d' : Database} (h : ReachableBy P d) {r : ExecutionRecord}
      (hw : ExecutionLog.updateRecord d r = .ok d') : ReachableBy P d'
  | abandonOpen {d d' : Database} (h : ReachableBy P d) {now : Timestamp} {n : Nat}
      (hw : ExecutionLog.abandonOpen d now = .ok (n, d')) : ReachableBy P d'

theorem ReachableBy.reachable (h : d.ReachableBy P) : d.Reachable := by
  induction h with
  | empty => exact .empty
  | createRule _ r _ hw ih => exact ih.createRule r hw
  | updateRule _ r _ hw ih => exact ih.updateRule r hw
  | deleteRule _ hw ih => exact ih.deleteRule _ hw
  | claimTick _ hw ih => exact ih.claimTick _ _ _ hw
  | appendRecord _ hw ih => exact ih.appendRecord _ hw
  | updateRecord _ hw ih => exact ih.updateRecord _ hw
  | abandonOpen _ hw ih => exact ih.abandonOpen _ _ hw

theorem Reachable.reachableBy (h : d.Reachable) : d.ReachableBy fun _ => True := by
  induction h with
  | empty => exact .empty
  | createRule _ _ hw ih => exact ih.createRule _ trivial hw
  | updateRule _ _ hw ih => exact ih.updateRule _ trivial hw
  | deleteRule _ _ hw ih => exact ih.deleteRule hw
  | claimTick _ _ _ _ hw ih => exact ih.claimTick hw
  | appendRecord _ _ hw ih => exact ih.appendRecord hw
  | updateRecord _ _ hw ih => exact ih.updateRecord hw
  | abandonOpen _ _ _ hw ih => exact ih.abandonOpen hw

/-- Every row is that of a rule with the property, if the property does not hang on the minutes of
the scheduler. -/
theorem ReachableBy.exists_rule (h : d.ReachableBy P)
    (hP : ∀ r tick, P r → P { r with lastTick := some tick }) :
    ∀ row ∈ d.rules, ∃ r, P r ∧ row = .ofRule r := by
  induction h with
  | empty => exact List.forall_mem_nil _
  | @createRule d d' _ r hr hw ih =>
    obtain ⟨-, rfl⟩ := insertRule_eq_ok_iff.mp (answer_eq_ok hw)
    exact List.forall_mem_append.mpr ⟨ih, List.forall_mem_singleton.mpr ⟨r, hr, rfl⟩⟩
  | @updateRule d d' _ r hr hw ih =>
    obtain ⟨-, -, rfl⟩ := replaceRule_eq_ok_iff.mp (answer_eq_ok hw)
    refine List.forall_mem_map.mpr fun row hm => ?_
    by_cases hid : row.id = r.id
    · exact ⟨r, hr, RuleRow.replaced_of_eq hid⟩
    · rw [RuleRow.replaced_of_ne hid]
      exact ih row hm
  | deleteRule _ hw ih =>
    cases answer_eq_ok hw
    exact fun row hm => ih row (List.mem_of_mem_filter hm)
  | @claimTick d d' _ id tick b hw ih =>
    cases answer_eq_ok hw
    refine List.forall_mem_map.mpr fun row hm => ?_
    obtain ⟨r, hr, rfl⟩ := ih row hm
    split
    · exact ⟨{ r with lastTick := some tick }, hP r tick hr, rfl⟩
    · exact ⟨r, hr, rfl⟩
  | appendRecord _ hw ih =>
    obtain ⟨-, rfl⟩ := insertRecord_eq_ok_iff.mp (answer_eq_ok hw)
    exact ih
  | updateRecord _ hw ih =>
    obtain ⟨-, -, -, rfl⟩ := reviseRecord_eq_ok_iff.mp (answer_eq_ok hw)
    exact ih
  | abandonOpen _ hw ih =>
    cases answer_eq_ok hw
    exact ih

/-- Every row of a database that can be reached is that of a rule. -/
theorem Reachable.exists_rule (h : d.Reachable) : ∀ row ∈ d.rules, ∃ r, row = RuleRow.ofRule r :=
  fun row hm => (h.reachableBy.exists_rule (fun _ _ => id) row hm).imp fun _ => And.right

end Database

/-! ### Rows -/

namespace RuleRow

variable {row : RuleRow} {r stored : Rule} {now : Timestamp}

/-- The row with the definition of a rule, as of an instant. Identifier, tenant, time of creation
and noted minute stay. -/
def redefined (r : Rule) (now : Timestamp) (row : RuleRow) : RuleRow :=
  { ofRule r with
    id := row.id
    tenant := row.tenant
    lastTick := row.lastTick
    createdAt := row.createdAt
    updatedAt := Column.ofInstant now }

/-- The row switched on or off at an instant. -/
def switched (active : Bool) (now : Timestamp) (row : RuleRow) : RuleRow :=
  { row with active, updatedAt := Column.ofInstant now }

/-- The last of several definitions counts. -/
@[simp] theorem redefined_redefined {r' : Rule} {now' : Timestamp} :
    (row.redefined r now).redefined r' now' = row.redefined r' now' := rfl

/-- The times of a row are written as they were read. -/
private theorem times_of_read {w : Rule} (h : (ofRule w).read = .ok r) :
    r.lastTick.map Column.ofInstant = (ofRule w).lastTick ∧
      Column.ofInstant r.createdAt = (ofRule w).createdAt ∧
      Column.ofInstant r.updatedAt = (ofRule w).updatedAt := by
  have hreads := read_eq_ok_iff.mp h
  refine ⟨(Column.eq_map_of_optionalInstant (fun text ht => ?_) hreads.lastTick).symm,
    Column.ofInstant_of_instant hreads.createdAt, Column.ofInstant_of_instant hreads.updatedAt⟩
  obtain ⟨t, -, rfl⟩ := Option.map_eq_some_iff.mp ht
  exact ⟨t, rfl⟩

/-- A definition that is written for the rule that was read redefines the row. -/
theorem ofRule_revised (now : Timestamp) (hrow : ∃ w, row = ofRule w)
    (hread : row.read = .ok stored) (hid : row.id = r.id) (htenant : row.tenant = r.tenant) :
    ofRule (RuleService.revised r stored now) = row.redefined r now := by
  obtain ⟨w, rfl⟩ := hrow
  obtain ⟨hlast, hcreated, -⟩ := times_of_read hread
  rw [redefined, hid, htenant, ← hlast, ← hcreated]
  rfl

/-- A rule that was read is written as it stood there. -/
theorem ofRule_of_read {w : Rule} (hw : w.IsWellFormed) (h : (ofRule w).read = .ok r) :
    ofRule r = ofRule w := by
  have hreads := read_eq_ok_iff.mp h
  have hsame := hw.sameDefinition_of_read h
  obtain ⟨hlast, hcreated, hupdated⟩ := times_of_read h
  have hdelay : r.delaySeconds.map (min longestDelay) = (ofRule w).delaySeconds := by
    rw [hreads.delaySeconds, ofRule, Option.map_map]
    congr 1
    funext seconds
    exact Nat.min_eq_right (Nat.min_le_left _ _)
  have hcombination : w.combination = r.combination :=
    Option.some.inj (w.combination.lookup_name.symm.trans
      (Column.tag_eq_ok_iff.mp hreads.combination))
  rw [ofRule.eq_1 r, hlast, hcreated, hupdated, hdelay, hreads.id, hreads.tenant, hreads.name,
    ← hcombination, hreads.active, hsame.trigger, hsame.conditions, hsame.actions]
  rfl

/-- To switch the rule that was read switches the row. -/
theorem ofRule_switched {active : Bool} (hrow : ∃ w : Rule, w.IsWellFormed ∧ row = ofRule w)
    (hread : row.read = .ok stored) :
    ofRule { stored with active, updatedAt := now } = row.switched active now := by
  obtain ⟨w, hw, rfl⟩ := hrow
  rw [switched, ← ofRule_of_read hw hread]
  rfl

/-- A row that can be read can be read with another definition, if that can be read. -/
theorem exists_read_redefined (hread : row.read = .ok stored) (hs : r.IsStorable)
    (hn : now.HasFourDigitYear) : ∃ r', (row.redefined r now).read = .ok r' := by
  have hold := read_eq_ok_iff.mp hread
  have hdatable : (RuleService.created r now).IsDatable := ⟨hn, hn, fun _ ht => nomatch ht⟩
  have hnew := read_eq_ok_iff.mp (read_ofRule (r := RuleService.created r now)
    ⟨hs.cron, hs.order, hs.conditions, hs.actions⟩ hdatable)
  refine ⟨{ (RuleService.created r now).kept with
    id := stored.id
    tenant := stored.tenant
    lastTick := stored.lastTick
    createdAt := stored.createdAt }, read_eq_ok_iff.mpr ?_⟩
  exact ⟨hold.id, hold.tenant, rfl, rfl, rfl, hnew.trigger, hnew.combination, hnew.conditions,
    hnew.actions, hold.lastTick, hold.createdAt, hnew.updatedAt⟩

end RuleRow

/-! ### Databases with one row changed -/

namespace Database

variable {d d' : Database} {r stored : Rule} {row : RuleRow} {id : RuleId}

/-- The database with the row of a rule changed. -/
def setRow (d : Database) (id : RuleId) (f : RuleRow → RuleRow) : Database :=
  { d with rules := d.rules.map fun row => if row.id = id then f row else row }

/-- A rule is found in the row under its identifier. -/
theorem exists_row_of_ruleById (h : RuleStore.ruleById d id = .ok (some stored)) :
    ∃ row ∈ d.rules, row.id = id ∧ row.read = .ok stored := by
  have hfound : (d.row? id).mapM RuleRow.read = .ok (some stored) := answer_eq_ok h
  cases hrow : d.row? id with
  | none =>
    rw [hrow] at hfound
    cases hfound
  | some row =>
    refine ⟨row, List.mem_of_find?_eq_some hrow, id_of_row? hrow, ?_⟩
    rw [hrow, Option.mapM_some] at hfound
    cases hread : row.read with
    | error e => simp [hread, Functor.map, Except.map] at hfound
    | ok r => simpa [hread, Functor.map, Except.map] using hfound

/-- The rule of a row is found under its identifier. -/
theorem ruleById_of_row (hk : d.IsKeyed) (hm : row ∈ d.rules) (hid : row.id = id)
    (hread : row.read = .ok r) : RuleStore.ruleById d id = .ok (some r) := by
  have hfound : RuleStore.ruleById d id = (d.row? id).mapM RuleRow.read := hk.answer_eq _
  rw [hfound, hk.row?_eq_some_iff.mpr ⟨hm, hid⟩, Option.mapM_some, hread]
  rfl

/-- A rule replaces the one of its row, if that has its name. -/
theorem exists_updateRule (hk : d.IsKeyed) (hm : row ∈ d.rules) (hid : row.id = r.id)
    (ht : row.tenant = r.tenant) (hn : row.name = r.name) :
    ∃ d', RuleStore.updateRule d r = .ok d' := by
  have hw : RuleStore.updateRule d r = d.replaceRule r := hk.answer_eq _
  rw [hw]
  refine ⟨_, replaceRule_eq_ok_iff.mpr ⟨⟨row, hm, hid⟩, fun other ho hne hsame => hne ?_, rfl⟩⟩
  rw [hk.eq_of_name_eq ho hm (hsame.1.trans ht.symm) (hsame.2.trans hn.symm), hid]

/-- A rule that replaces another one changes its row. -/
theorem replaceRule_eq_setRow {f : RuleRow → RuleRow} (h : d.IsKeyed) (hm : row ∈ d.rules)
    (hid : row.id = r.id) (hf : .ofRule r = f row) (hw : d.replaceRule r = .ok d') :
    d' = d.setRow r.id f := by
  obtain ⟨-, -, rfl⟩ := replaceRule_eq_ok_iff.mp hw
  refine congrArg (fun rules => { d with rules }) (List.map_congr_left fun other ho => ?_)
  rw [RuleRow.replaced]
  split
  · next he => rw [h.eq_of_id_eq ho hm (he.trans hid.symm), hf]
  · rfl

end Database

end RuleEngine
