import RuleEngine.Proofs.Store.RuleRow

/-!
# Rules that were written to a database

A database accepts every rule that can be written down. Its row says what the rule is, but it is not
said that the row can be read: lists that are nested too deep and years of other than four digits
are written and not read back. So the entry of a rule is there whether it can be read or not, and a
database has entries as a store in memory has rules. The texts of minutes are in the order of the
minutes, so that a minute is claimed by text where it is due by time.

## Main definitions

* `Rule.SameDefinition`, `Rule.IsWellFormed`: what is looked at in a definition, and the definitions
  that can be written down.
* `RuleRow.IsWritten`: the rows of rules that were written.

## Main results

* `RuleRow.IsWritten.of_read`: what is read from the row of a rule that was written.
* `Database.IsWritten.activeRules_eq_storage_iff`: when the active rules of a kind cannot be listed.
-/

namespace RuleEngine

/-! ### Definitions -/

/-- Whether two rules have the same definition, as far as it is looked at when it is accepted. -/
structure Rule.SameDefinition (r r' : Rule) : Prop where
  tenant : r'.tenant = r.tenant
  name : r'.name = r.name
  trigger : r'.trigger = r.trigger
  conditions : r'.conditions = r.conditions
  actions : r'.actions = r.actions

/-- Whether the cron expression of a rule is that of a text, and the orders of its actions fit 32
bits. Only such rules can be written down. -/
structure Rule.IsWellFormed (r : Rule) : Prop where
  cron : ∀ c, r.trigger = .schedule c → c.IsRead
  order : ∀ a ∈ r.actions, a.order < wordBound

theorem Rule.SameDefinition.isWellFormed {r r' : Rule} (h : r.SameDefinition r')
    (hw : r.IsWellFormed) : r'.IsWellFormed :=
  ⟨h.trigger ▸ hw.cron, h.actions ▸ hw.order⟩

/-- What is read back from the row of a rule has its definition. -/
theorem Rule.IsWellFormed.sameDefinition_of_read {r s : Rule} (hw : s.IsWellFormed)
    (h : (RuleRow.ofRule s).read = .ok r) : s.SameDefinition r := by
  have hreads := RuleRow.read_eq_ok_iff.mp h
  refine ⟨hreads.tenant, hreads.name, ?_, ?_, ?_⟩
  · exact Except.ok.inj (hreads.trigger.symm.trans (Column.structured_trigger hw.cron))
  · exact Column.eq_of_structured_list (fun c _ => c.isWritable_toJson)
      (fun c _ => c.ofJson?_toJson) hreads.conditions
  · exact Column.eq_of_structured_list (fun a h => Action.isWritable_toJson (hw.order a h))
      (fun a h => Action.ofJson?_toJson (hw.order a h)) hreads.actions

/-! ### Rows -/

theorem Column.instant_ofInstant_eq_ok_iff {t t' : Timestamp} :
    instant (ofInstant t) = .ok t' ↔ t.HasFourDigitYear ∧ t' = t.truncMicros := by
  by_cases hy : t.HasFourDigitYear
  · rw [instant_ofInstant hy, Except.ok.injEq, eq_comm, and_iff_right hy]
  · rw [instant_eq_error hy]
    simp [hy]

namespace RuleRow

/-- Whether a row is that of a rule that can be written down, and its noted minute, if there is one,
is in a year of four digits. -/
def IsWritten (row : RuleRow) : Prop :=
  ∃ r : Rule, r.IsWellFormed ∧ (∀ t, r.lastTick = some t → t.HasFourDigitYear) ∧ row = ofRule r

variable {row : RuleRow} {r : Rule}

/-- A rule that is read from a row that was written can be written and read back again. -/
theorem IsWritten.of_read (h : row.IsWritten) (hr : row.read = .ok r) :
    r.IsWellFormed ∧ r.IsStorable ∧ r.IsDatable ∧
      r.lastTick.map Timestamp.truncMicros = r.lastTick ∧ r.trigger.kind.name = row.triggerKind := by
  obtain ⟨s, hw, hl, rfl⟩ := h
  have hreads := read_eq_ok_iff.mp hr
  have hsame := hw.sameDefinition_of_read hr
  have hw' := hsame.isWellFormed hw
  obtain ⟨hcreated, hcreated'⟩ := Column.instant_ofInstant_eq_ok_iff.mp hreads.createdAt
  obtain ⟨hupdated, hupdated'⟩ := Column.instant_ofInstant_eq_ok_iff.mp hreads.updatedAt
  have hlast : r.lastTick = s.lastTick.map Timestamp.truncMicros :=
    (Except.ok.inj ((Column.optionalInstant_map hl).symm.trans hreads.lastTick)).symm
  refine ⟨hw', ⟨hw'.cron, hw'.order, ?_, ?_⟩, ⟨?_, ?_, ?_⟩, ?_, ?_⟩
  · rw [hsame.conditions]
    exact Column.depth_le_of_structured hreads.conditions
  · rw [hsame.actions]
    exact Column.depth_le_of_structured hreads.actions
  · rw [hcreated']
    exact hcreated.truncMicros
  · rw [hupdated']
    exact hupdated.truncMicros
  · intro t ht
    rw [hlast] at ht
    obtain ⟨i, hi, rfl⟩ := Option.map_eq_some_iff.mp ht
    exact (hl i hi).truncMicros
  · have hc : Timestamp.truncMicros ∘ Timestamp.truncMicros = Timestamp.truncMicros :=
      funext Timestamp.truncMicros_truncMicros
    rw [hlast, Option.map_map, hc]
  · rw [hsame.trigger]
    rfl

/-- The noted minute of a row that was written is the one that is read, as a text. -/
theorem IsWritten.lastTick_eq (h : row.IsWritten) (hr : row.read = .ok r) :
    row.lastTick = r.lastTick.map Column.ofInstant := by
  obtain ⟨s, -, hl, rfl⟩ := h
  have hlast := (Column.optionalInstant_map hl).symm.trans (read_eq_ok_iff.mp hr).lastTick
  have hc : Column.ofInstant ∘ Timestamp.truncMicros = Column.ofInstant :=
    funext Column.ofInstant_truncMicros
  rw [← Except.ok.inj hlast, Option.map_map, hc]
  rfl

/-- A minute can be noted in a row that was written. -/
theorem IsWritten.noted {tick : Timestamp} (h : row.IsWritten) (hf : tick.HasFourDigitYear) :
    { row with lastTick := some (Column.ofInstant tick) }.IsWritten := by
  obtain ⟨s, hw, -, rfl⟩ := h
  refine ⟨{ s with lastTick := some tick }, ⟨hw.cron, hw.order⟩, fun t ht => ?_, rfl⟩
  obtain rfl : tick = t := Option.some.inj ht
  exact hf

/-- A minute that is noted is read back with the rest of the row. -/
theorem read_noted {tick : Timestamp} (hr : row.read = .ok r) (hf : tick.HasFourDigitYear)
    (hm : tick.IsMinute) : { row with lastTick := some (Column.ofInstant tick) }.read =
      .ok { r with lastTick := some tick } := by
  have hreads := read_eq_ok_iff.mp hr
  have htick : Column.optionalInstant (some (Column.ofInstant tick)) = .ok (some tick) := by
    rw [Column.optionalInstant, Column.instant_ofInstant hf, Timestamp.truncMicros_eq_self hm.2]
    rfl
  exact read_eq_ok_iff.mpr { hreads with lastTick := htick }

end RuleRow

/-! ### Tables -/

namespace Database

open RuleEntries

variable {d d' : Database} {id : RuleId} {r : Rule} {kind : TriggerKind}

/-- Whether an open database has rows of rules that were written, with distinct identifiers. -/
structure IsWritten (d : Database) : Prop where
  isOpen : d.isOpen
  nodup : (d.rules.map RuleRow.id).Nodup
  written : ∀ row ∈ d.rules, row.IsWritten

instance : RuleEntries Database where
  IsSound := IsWritten
  stored? d id := (d.row? id).map fun row => row.read.toOption
  IsWritable := Rule.IsWellFormed
  Fits := Rule.IsStorable
  FitsTime := Timestamp.HasFourDigitYear
  Accepts d ids := ids.Nodup ∧ ∀ row ∈ d.executions, row.id ∉ ids

namespace IsWritten

theorem row?_eq_some_iff (h : d.IsWritten) {row : RuleRow} :
    d.row? id = some row ↔ row ∈ d.rules ∧ row.id = id :=
  find?_key_eq_some_iff h.nodup

theorem rule?_eq_some_iff (h : d.IsWritten) :
    rule? d id = some r ↔ ∃ row ∈ d.rules, row.id = id ∧ row.read = .ok r := by
  have ht {row : RuleRow} : row.read.toOption = some r ↔ row.read = .ok r := by
    cases row.read <;> simp [Except.toOption]
  rw [RuleEntries.rule?_eq_some_iff]
  change (d.row? id).map _ = _ ↔ _
  simp only [Option.map_eq_some_iff, h.row?_eq_some_iff, ht, and_assoc]

theorem answer_eq {α : Type} (h : d.IsWritten) (a : Except EngineError α) : d.answer a = a :=
  if_pos h.isOpen

theorem map (h : d.IsWritten) {f : RuleRow → RuleRow} (hid : ∀ row, (f row).id = row.id)
    (hf : ∀ row ∈ d.rules, (f row).IsWritten) : { d with rules := d.rules.map f }.IsWritten where
  isOpen := h.isOpen
  nodup := by
    rw [map_key_map hid]
    exact h.nodup
  written := List.forall_mem_map.mpr hf

/-- To change the row under an identifier sets the entry. -/
theorem sets_map (h : d.IsWritten) (id : RuleId) {f : RuleRow → RuleRow} (hid : ∀ row, (f row).id = row.id)
    (hf : ∀ row ∈ d.rules, (f row).IsWritten) (hne : ∀ row, row.id ≠ id → f row = row)
    {row : RuleRow} (hrow : d.row? id = some row) :
    Sets d id (some (f row).read.toOption) { d with rules := d.rules.map f } where
  sound := h.map hid hf
  entry_eq := by
    change (row? _ id).map _ = _
    rw [row?_map hid, hrow]
    rfl
  entry_ne other ho := by
    change (row? _ other).map _ = (d.row? other).map _
    rw [row?_map hid]
    cases hother : d.row? other with
    | none => rfl
    | some row =>
      have hrow := (h.row?_eq_some_iff.mp hother).2
      rw [Option.map_some, hne row (hrow ▸ ho)]
  accepts _ hx := hx

/-- The guard on texts lets a minute pass that is later than the noted one. -/
theorem isBehind_of_before {row : RuleRow} {tick : Timestamp} (hrow : row.IsWritten)
    (hread : row.read = .ok r) (hf : tick.HasFourDigitYear) (hm : tick.IsMinute)
    (hl : ∀ last, r.lastTick = some last → last.before tick) :
    row.lastTick.all (· < Column.ofInstant tick) := by
  obtain ⟨-, -, hd, hkept, -⟩ := hrow.of_read hread
  rw [hrow.lastTick_eq hread]
  cases hlast : r.lastTick with
  | none => rfl
  | some last =>
    have htrunc : last.truncMicros = last := by
      rw [hlast, Option.map_some, Option.some.injEq] at hkept
      exact hkept
    rw [Option.map_some, Option.all_some, decide_eq_true_eq,
      Column.ofInstant_lt_iff (hd.lastTick last hlast) hf, htrunc,
      Timestamp.truncMicros_eq_self hm.2]
    exact hl last hlast

/-- A minute later than the noted one can be claimed. -/
theorem claim_of_before (h : d.IsWritten) {tick : Timestamp} (hr : rule? d id = some r)
    (hf : tick.HasFourDigitYear) (hm : tick.IsMinute)
    (hl : ∀ last, r.lastTick = some last → last.before tick) :
    (d.claim id tick).1 = true ∧
      Sets d id (some (some { r with lastTick := some tick })) (d.claim id tick).2 := by
  obtain ⟨row, hmem, hid, hread⟩ := h.rule?_eq_some_iff.mp hr
  have hb := isBehind_of_before (h.written row hmem) hread hf hm hl
  have hbehind : (row.id == id && row.lastTick.all (· < Column.ofInstant tick)) = true := by
    rw [hb, hid, beq_self_eq_true, Bool.and_true]
  refine ⟨List.any_eq_true.mpr ⟨row, hmem, hbehind⟩, ?_⟩
  have hsets := h.sets_map id (f := fun row =>
    if row.id == id && row.lastTick.all (· < Column.ofInstant tick) then
      { row with lastTick := some (Column.ofInstant tick) } else row) ?_ ?_ ?_
    (h.row?_eq_some_iff.mpr ⟨hmem, hid⟩)
  · simp only [hbehind, if_true, RuleRow.read_noted hread hf hm] at hsets
    exact hsets
  · intro other
    split <;> rfl
  · intro other ho
    split
    · exact (h.written other ho).noted hf
    · exact h.written other ho
  · intro other ho
    have hfalse : (other.id == id) = false := beq_eq_false_iff_ne.mpr ho
    simp only [hfalse, Bool.false_and, Bool.false_eq_true, if_false]

theorem sets_insert (h : d.IsWritten) (hr : (RuleRow.ofRule r).IsWritten)
    (hn : ∀ row ∈ d.rules, row.id ≠ r.id) :
    Sets d r.id (some (RuleRow.ofRule r).read.toOption)
      { d with rules := d.rules ++ [.ofRule r] } where
  sound := by
    refine ⟨h.isOpen, ?_, List.forall_mem_append.mpr ⟨h.written, ?_⟩⟩
    · rw [List.map_append, List.nodup_append]
      refine ⟨h.nodup, List.pairwise_singleton _ _, ?_⟩
      rintro a ha b hb rfl
      obtain ⟨row, hm, rfl⟩ := List.mem_map.mp ha
      exact hn row hm (List.mem_singleton.mp hb)
    · exact List.forall_mem_singleton.mpr hr
  entry_eq := by
    change (row? _ r.id).map _ = _
    rw [row?_append hn]
    rfl
  entry_ne other ho := by
    change (row? _ other).map _ = (d.row? other).map _
    rw [row?, List.find?_append, List.find?_singleton,
      if_neg (by simpa [RuleRow.ofRule] using ho.symm), Option.or_none]
    rfl
  accepts _ hx := hx

theorem sets_filter (h : d.IsWritten) (id : RuleId) :
    Sets d id none { d with rules := d.rules.filter fun row => row.id != id } where
  sound := by
    refine ⟨h.isOpen, (List.filter_sublist.map RuleRow.id).nodup h.nodup, fun row hm => ?_⟩
    exact h.written row (List.mem_filter.mp hm).1
  entry_eq := by
    have hnone : (d.rules.filter fun row => row.id != id).find? (fun row => row.id == id) =
        none := by
      rw [List.find?_filter, List.find?_eq_none]
      intro row _
      simp
    exact congrArg (Option.map _) hnone
  entry_ne other ho := by
    refine congrArg (Option.map _) ?_
    rw [row?, row?, List.find?_filter]
    congr 1
    funext row
    by_cases hr : row.id = other
    · simp [hr, ho]
    · simp [hr]
  accepts _ hx := hx

/-- A rule that replaces another one is set. -/
theorem sets_replaceRule (h : d.IsWritten) (hr : (RuleRow.ofRule r).IsWritten) {stored : Rule}
    (hstored : rule? d r.id = some stored) (hw : d.replaceRule r = .ok d') :
    Sets d r.id (some (RuleRow.ofRule r).read.toOption) d' := by
  obtain ⟨row, hm, hid, -⟩ := h.rule?_eq_some_iff.mp hstored
  obtain ⟨-, -, rfl⟩ := replaceRule_eq_ok_iff.mp hw
  have hsets := h.sets_map r.id (RuleRow.id_replaced r) ?_ (fun other => RuleRow.replaced_of_ne)
    (h.row?_eq_some_iff.mpr ⟨hm, hid⟩)
  · rwa [RuleRow.replaced_of_eq hid] at hsets
  · intro other ho
    unfold RuleRow.replaced
    split
    · exact hr
    · exact h.written other ho

/-- What is read of the row of a rule has its noted minute, and it is read if the rule fits. -/
theorem toOption_read_ofRule (hl : ∀ t, r.lastTick = some t → t.HasFourDigitYear) :
    (∀ k ∈ (RuleRow.ofRule r).read.toOption, k.lastTick = r.lastTick.map Timestamp.truncMicros) ∧
      (r.IsStorable → r.createdAt.HasFourDigitYear → r.updatedAt.HasFourDigitYear →
        (RuleRow.ofRule r).read.toOption ≠ none) := by
  constructor
  · intro k hk
    have hread : (RuleRow.ofRule r).read = .ok k := by
      cases h : (RuleRow.ofRule r).read with
      | ok k' => rw [h] at hk; exact congrArg Except.ok (Option.some.inj hk)
      | error e => rw [h] at hk; cases hk
    have hlast := (RuleRow.read_eq_ok_iff.mp hread).lastTick
    exact (Except.ok.inj ((Column.optionalInstant_map hl).symm.trans hlast)).symm
  · intro hs hc hu
    rw [RuleRow.read_ofRule hs ⟨hc, hu, hl⟩]
    exact Option.some_ne_none _

private theorem activeRules_eq (h : d.IsWritten) : RuleStore.activeRules d none kind =
    ((d.activeRows none kind).mergeSort RuleRow.order).mapM RuleRow.read := h.answer_eq _

/-- The active rules of a kind cannot be listed exactly if the row of one of them cannot be read. -/
theorem activeRules_eq_storage_iff (h : d.IsWritten) :
    RuleStore.activeRules d none kind = .error .storage ↔
      ∃ row ∈ d.activeRows none kind, ∀ r, row.read ≠ .ok r := by
  rw [h.activeRules_eq]
  constructor
  · intro hfault
    by_contra hnot
    push Not at hnot
    obtain ⟨rules, hrules⟩ := RuleRow.exists_mapM_read fun row hm =>
      hnot row (List.mem_mergeSort.mp hm)
    cases hfault.symm.trans hrules
  · rintro ⟨row, hm, hr⟩
    exact RuleRow.mapM_read_of_unreadable (List.mem_mergeSort.mpr hm) hr

/-- The active rules of a kind are listed once each, if their rows can be read. -/
theorem exists_listed (h : d.IsWritten)
    (hread : ∀ row ∈ d.activeRows none kind, ∃ r, row.read = .ok r) :
    ∃ rules, RuleStore.activeRules d none kind = .ok rules ∧ (rules.map Rule.id).Nodup ∧
      ∀ r, r ∈ rules ↔ rule? d r.id = some r ∧ r.active ∧ r.trigger.kind = kind := by
  obtain ⟨rules, hrules⟩ := RuleRow.exists_mapM_read fun row hm =>
    hread row (List.mem_mergeSort.mp hm)
  obtain ⟨hids, hmem⟩ := RuleRow.mem_of_mapM_read hrules
  refine ⟨rules, h.activeRules_eq.trans hrules, ?_, fun r => ?_⟩
  · rw [hids]
    refine ((List.mergeSort_perm _ _).map RuleRow.id).nodup_iff.mpr ?_
    exact (List.filter_sublist.map RuleRow.id).nodup h.nodup
  · rw [hmem, h.rule?_eq_some_iff]
    simp only [List.mem_mergeSort, mem_activeRows]
    constructor
    · rintro ⟨row, ⟨hm, ha, hk, -⟩, hr⟩
      have hreads := RuleRow.read_eq_ok_iff.mp hr
      exact ⟨⟨row, hm, hreads.id.symm, hr⟩, hreads.active.trans ha,
        TriggerKind.name_inj.mp (((h.written row hm).of_read hr).2.2.2.2.trans hk)⟩
    · rintro ⟨⟨row, hm, -, hr⟩, ha, hk⟩
      have hreads := RuleRow.read_eq_ok_iff.mp hr
      exact ⟨row, ⟨hm, hreads.active.symm.trans ha,
        ((h.written row hm).of_read hr).2.2.2.2.symm.trans (congrArg _ hk), fun _ ht => nomatch ht⟩, hr⟩

end IsWritten

instance : RuleTable Database where
  fitsTime_floorMinute h := h.hasFourDigitYear
  isWritable_congr h ht ha := ⟨ht ▸ h.cron, ha ▸ h.order⟩
  fits_congr h ht hc ha :=
    ⟨ht ▸ h.cron, ha ▸ h.order, hc ▸ h.conditions, ha ▸ h.actions⟩
  fits_stored {d id r} h hr := by
    obtain ⟨row, hm, -, hread⟩ := IsWritten.rule?_eq_some_iff h |>.mp hr
    obtain ⟨hw, hs, -⟩ := (h.written row hm).of_read hread
    exact ⟨hw, hs⟩
  id_eq {d id r} h hr := by
    obtain ⟨row, -, hid, hread⟩ := IsWritten.rule?_eq_some_iff h |>.mp hr
    exact (RuleRow.read_eq_ok_iff.mp hread).id.trans hid
  ruleById_eq_some_iff {d id r} h := by
    rw [RuleEntries.rule?_eq_some_iff]
    change d.answer ((d.row? id).mapM RuleRow.read) = _ ↔ (d.row? id).map _ = _
    rw [IsWritten.answer_eq h]
    cases d.row? id with
    | none =>
      change Except.ok none = Except.ok (some r) ↔ none = some (some r)
      simp
    | some row =>
      rw [Option.mapM_some, Option.map_some]
      cases row.read <;> simp [Except.toOption]
  activeRules_cases {d} h kind := by
    by_cases hread : ∀ row ∈ d.activeRows none kind, ∃ r, row.read = .ok r
    · exact .inl (IsWritten.exists_listed h hread)
    · push Not at hread
      refine .inr ⟨(IsWritten.activeRules_eq_storage_iff h).mpr hread, fun hreadable => ?_⟩
      obtain ⟨row, hm, hr⟩ := hread
      refine hreadable row.id ?_
      change (d.row? row.id).map _ = _
      rw [(IsWritten.row?_eq_some_iff h).mpr ⟨(mem_activeRows.mp hm).1, rfl⟩, Option.map_some]
      cases hrow : row.read with
      | ok r => exact absurd hrow (hr r)
      | error e => rfl
  exists_claim {d id r tick} h hr hf hm hl := by
    obtain ⟨htrue, hsets⟩ := IsWritten.claim_of_before h hr hf hm hl
    refine ⟨_, ?_, hsets⟩
    change d.answer (.ok (d.claim id tick)) = _
    rw [IsWritten.answer_eq h, ← htrue]
  exists_append {d} record h ha := by
    refine ⟨{ d with executions := d.executions ++ [.ofRecord record] }, ?_,
      ⟨h.isOpen, h.nodup, h.written⟩, fun _ => rfl, ?_⟩
    · change d.answer (d.insertRecord record) = _
      rw [IsWritten.answer_eq h, insertRecord, if_neg]
      intro hany
      obtain ⟨row, hm, hid⟩ := List.any_eq_true.mp hany
      exact ha.2 row hm (List.mem_singleton.mpr (beq_iff_eq.mp hid))
    · rintro ids ⟨hids, hfree⟩
      obtain ⟨hnot, hids⟩ := List.nodup_cons.mp hids
      refine ⟨hids, fun row hm => ?_⟩
      rcases List.mem_append.mp hm with hm | hm
      · exact fun hi => hfree row hm (List.mem_cons_of_mem _ hi)
      · rw [List.mem_singleton.mp hm]
        exact hnot
  accepts_sublist h hs := ⟨hs.nodup h.1, fun row hm hi => h.2 row hm (hs.subset hi)⟩
  sets_create {d d' r} h hr hl hw := by
    change d.answer (d.insertRule r) = _ at hw
    rw [IsWritten.answer_eq h] at hw
    obtain ⟨hfree, rfl⟩ := insertRule_eq_ok_iff.mp hw
    have hdated : ∀ t, r.lastTick = some t → t.HasFourDigitYear := by simp [hl]
    have hwritten : (RuleRow.ofRule r).IsWritten := ⟨r, hr, hdated, rfl⟩
    obtain ⟨hlast, hread⟩ := IsWritten.toOption_read_ofRule hdated
    refine ⟨_, IsWritten.sets_insert h hwritten fun row hm => (hfree row hm).1,
      fun k hk => ?_, hread⟩
    rw [hlast k hk, hl]
    rfl
  sets_update {d d' r stored} h hstored hr hc hl hw := by
    change d.answer (d.replaceRule r) = _ at hw
    rw [IsWritten.answer_eq h] at hw
    obtain ⟨row, hm, -, hread⟩ := (IsWritten.rule?_eq_some_iff h).mp hstored
    obtain ⟨-, -, hd, hkept, -⟩ := (h.written row hm).of_read hread
    have hdated : ∀ t, r.lastTick = some t → t.HasFourDigitYear := hl ▸ hd.lastTick
    have hwritten : (RuleRow.ofRule r).IsWritten := ⟨r, hr, hdated, rfl⟩
    obtain ⟨hlast, hread⟩ := IsWritten.toOption_read_ofRule hdated
    refine ⟨_, IsWritten.sets_replaceRule h hwritten hstored hw, fun k hk => ?_,
      fun hs hu => hread hs (hc ▸ hd.createdAt) hu⟩
    rw [hlast k hk, hl, hkept]
  sets_delete {d d' id} h hw := by
    change d.answer (.ok _) = _ at hw
    rw [IsWritten.answer_eq h] at hw
    cases hw
    exact IsWritten.sets_filter h id

end Database

end RuleEngine
