import RuleEngine.Proofs.Schedule.Exactness
import RuleEngine.Proofs.Service.Effect
import RuleEngine.Proofs.Store.Keys
import RuleEngine.Proofs.Store.RuleReading
import RuleEngine.Proofs.Store.TickLedger

/-!
# Standards for stored rules

A standard is a demand on the definition of a rule and on its times. It is met by a rule whatever
its tenant's scheduler and switches do to it, and it is met by what is read back from a row that was
written to the standard. A database in which every row is up to a standard stays so under every call
that writes a rule up to it, and what it answers is up to it.

## Main definitions

* `RuleStandard`: a demand on definitions and times.
* `RuleStandard.accepted`, `RuleStandard.legible`: the rules that are accepted, and those that can
  be read back.
* `Database.IsUpTo`: every row is that of a rule that meets a standard.

## Main results

* `RuleStandard.meets_of_read`: what is read back meets the standard.
* `RuleRow.exists_read_of_legible`: a row that is up to the legible standard can be read.
* `Database.IsUpTo.activeRules`: the active rules of a database up to a standard.
-/

namespace RuleEngine

/-! ### Standards -/

/-- Whether a definition passes the checks of a rule, its cron expression is that of a text, and the
orders of its actions fit 32 bits. -/
structure Rule.IsAccepted (r : Rule) : Prop where
  valid : r.validate = .ok ()
  cron : ∀ c, r.trigger = .schedule c → c.IsRead
  order : ∀ a ∈ r.actions, a.order < wordBound

theorem Rule.SameDefinition.validate_eq {r r' : Rule} (h : r.SameDefinition r') :
    r'.validate = r.validate := by
  rw [validate, validate, h.tenant, h.name, h.trigger, h.conditions, h.actions]

theorem Rule.SameDefinition.isAccepted {r r' : Rule} (h : r.SameDefinition r')
    (ha : r.IsAccepted) : r'.IsAccepted :=
  ⟨h.validate_eq.trans ha.valid, h.trigger ▸ ha.cron, h.actions ▸ ha.order⟩

theorem Rule.IsAccepted.isWellFormed {r : Rule} (h : r.IsAccepted) : r.IsWellFormed :=
  ⟨h.cron, h.order⟩

/-- A demand on the definition of a rule, which is accepted at least, and on its times. -/
structure RuleStandard where
  definition : Rule → Prop
  time : Timestamp → Prop
  isAccepted : ∀ r, definition r → r.IsAccepted
  congr : ∀ r r', r.SameDefinition r' → definition r → definition r'
  truncMicros : ∀ t, time t → time t.truncMicros

namespace RuleStandard

/-- The rules that are accepted, of whatever times. -/
def accepted : RuleStandard where
  definition := Rule.IsAccepted
  time _ := True
  isAccepted _ h := h
  congr _ _ h := h.isAccepted
  truncMicros _ _ := trivial

/-- The rules that are accepted and are not nested too deep, of times whose years have four
digits. -/
def legible : RuleStandard where
  definition r := r.IsAccepted ∧ r.IsStorable
  time := Timestamp.HasFourDigitYear
  isAccepted _ h := h.1
  congr _ _ h hd :=
    ⟨h.isAccepted hd.1, h.trigger ▸ hd.2.cron, h.actions ▸ hd.2.order,
      h.conditions ▸ hd.2.conditions, h.actions ▸ hd.2.actions⟩
  truncMicros _ h := h.truncMicros

variable {std : RuleStandard} {r r' s : Rule} {now : Timestamp}

/-- Whether a rule meets a standard. -/
structure Meets (std : RuleStandard) (r : Rule) : Prop where
  definition : std.definition r
  createdAt : std.time r.createdAt
  updatedAt : std.time r.updatedAt
  lastTick : ∀ t, r.lastTick = some t → std.time t

/-- A column of an instant is read as the instant, cut to the microsecond. -/
private theorem time_of_instant {t t' : Timestamp} (h : std.time t)
    (hr : Column.instant (Column.ofInstant t) = .ok t') : std.time t' := by
  by_cases hy : t.HasFourDigitYear
  · rw [Column.instant_ofInstant hy] at hr
    cases hr
    exact std.truncMicros t h
  · rw [Column.instant_eq_error hy] at hr
    cases hr

/-- What is read back from the row of a rule has its definition. -/
theorem sameDefinition_of_read (ha : s.IsAccepted) (h : (RuleRow.ofRule s).read = .ok r) :
    s.SameDefinition r :=
  ha.isWellFormed.sameDefinition_of_read h

/-- What is read back from the row of a rule meets the standard that the rule meets. -/
theorem meets_of_read (hm : std.Meets s) (h : (RuleRow.ofRule s).read = .ok r) : std.Meets r := by
  have hreads := RuleRow.read_eq_ok_iff.mp h
  refine ⟨std.congr s r (sameDefinition_of_read (std.isAccepted s hm.definition) h) hm.definition,
    time_of_instant hm.createdAt hreads.createdAt, time_of_instant hm.updatedAt hreads.updatedAt,
    fun t ht => ?_⟩
  have hlast := hreads.lastTick
  rw [ht] at hlast
  cases hs : s.lastTick with
  | none => simp [RuleRow.ofRule, hs, Column.optionalInstant] at hlast
  | some written =>
    refine time_of_instant (hm.lastTick written hs) ?_
    cases hi : Column.instant (Column.ofInstant written) with
    | error e => simp [RuleRow.ofRule, hs, Column.optionalInstant, hi, Except.map] at hlast
    | ok t' =>
      simp [RuleRow.ofRule, hs, Column.optionalInstant, hi, Except.map] at hlast
      rw [hlast]

/-! ### What a tenant and the scheduler do to a rule -/

theorem meets_created (hd : std.definition r) (hn : std.time now) :
    std.Meets (RuleService.created r now) :=
  ⟨std.congr r _ ⟨rfl, rfl, rfl, rfl, rfl⟩ hd, hn, hn, fun _ ht => nomatch ht⟩

theorem meets_revised (hd : std.definition r) (hs : std.Meets s) (hn : std.time now) :
    std.Meets (RuleService.revised r s now) :=
  ⟨std.congr r _ ⟨rfl, rfl, rfl, rfl, rfl⟩ hd, hs.createdAt, hn, hs.lastTick⟩

theorem meets_switched (hs : std.Meets s) (active : Bool) (hn : std.time now) :
    std.Meets { s with active, updatedAt := now } :=
  ⟨std.congr s _ ⟨rfl, rfl, rfl, rfl, rfl⟩ hs.definition, hs.createdAt, hn, hs.lastTick⟩

theorem meets_ticked (hs : std.Meets s) (ht : std.time now) :
    std.Meets { s with lastTick := some now } := by
  refine ⟨std.congr s _ ⟨rfl, rfl, rfl, rfl, rfl⟩ hs.definition, hs.createdAt, hs.updatedAt,
    fun t h => ?_⟩
  obtain rfl := Option.some.inj h
  exact ht

end RuleStandard

/-! ### Rows up to a standard -/

variable {std : RuleStandard}

/-- Whether a row is that of a rule that meets a standard. -/
def RuleRow.IsUpTo (std : RuleStandard) (row : RuleRow) : Prop :=
  ∃ r, std.Meets r ∧ row = .ofRule r

/-- What is read from a row that is up to a standard meets it. -/
theorem RuleRow.IsUpTo.meets {row : RuleRow} {r : Rule} (h : row.IsUpTo std)
    (hr : row.read = .ok r) : std.Meets r := by
  obtain ⟨s, hs, rfl⟩ := h
  exact RuleStandard.meets_of_read hs hr

/-- The trigger that is read from a row is of the kind that the row says. -/
theorem RuleRow.IsUpTo.kind_eq {row : RuleRow} {r : Rule} (h : row.IsUpTo std)
    (hr : row.read = .ok r) : r.trigger.kind.name = row.triggerKind := by
  obtain ⟨s, hs, rfl⟩ := h
  rw [(RuleStandard.sameDefinition_of_read (std.isAccepted s hs.definition) hr).trigger]
  rfl

/-- A row that is up to the legible standard can be read. -/
theorem RuleRow.exists_read_of_legible {row : RuleRow} (h : row.IsUpTo .legible) :
    ∃ r, row.read = .ok r := by
  obtain ⟨s, hs, rfl⟩ := h
  exact ⟨_, read_ofRule hs.definition.2 ⟨hs.createdAt, hs.updatedAt, hs.lastTick⟩⟩

namespace Database

variable {d d' : Database}

/-- Whether every row of a database is up to a standard. -/
def IsUpTo (std : RuleStandard) (d : Database) : Prop := ∀ row ∈ d.rules, row.IsUpTo std

namespace IsUpTo

theorem insertRule (h : d.IsUpTo std) {r : Rule} (hr : std.Meets r)
    (hw : d.insertRule r = .ok d') : d'.IsUpTo std := by
  obtain ⟨-, rfl⟩ := insertRule_eq_ok_iff.mp hw
  exact List.forall_mem_append.mpr ⟨h, List.forall_mem_singleton.mpr ⟨r, hr, rfl⟩⟩

theorem replaceRule (h : d.IsUpTo std) {r : Rule} (hr : std.Meets r)
    (hw : d.replaceRule r = .ok d') : d'.IsUpTo std := by
  obtain ⟨-, -, rfl⟩ := replaceRule_eq_ok_iff.mp hw
  refine List.forall_mem_map.mpr fun row hm => ?_
  unfold RuleRow.replaced
  split
  · exact ⟨r, hr, rfl⟩
  · exact h row hm

theorem filter_rules (h : d.IsUpTo std) (p : RuleRow → Bool) :
    { d with rules := d.rules.filter p }.IsUpTo std :=
  fun row hm => h row (List.mem_of_mem_filter hm)

/-- A minute is noted in the row of the rule with that minute. -/
theorem claim (h : d.IsUpTo std) (id : RuleId) {tick : Timestamp} (ht : std.time tick) :
    (d.claim id tick).2.IsUpTo std := by
  refine List.forall_mem_map.mpr fun row hm => ?_
  split
  · obtain ⟨r, hr, rfl⟩ := h row hm
    exact ⟨{ r with lastTick := some tick }, RuleStandard.meets_ticked hr ht, rfl⟩
  · exact h row hm

theorem insertRecord (h : d.IsUpTo std) {r : ExecutionRecord} (hw : d.insertRecord r = .ok d') :
    d'.IsUpTo std := by
  obtain ⟨-, rfl⟩ := insertRecord_eq_ok_iff.mp hw
  exact h

end IsUpTo

/-! ### Active rules -/

/-- The active rules of a kind are listed once each if their rows can be read, and else the storage
is at fault. -/
theorem IsUpTo.activeRules (h : d.IsUpTo std) (hk : d.IsKeyed) (tenant : Option TenantId)
    (kind : TriggerKind) :
    ((∀ row ∈ d.activeRows tenant kind, ∃ r, row.read = .ok r) →
      ∃ rules, RuleStore.activeRules d tenant kind = .ok rules ∧ (rules.map Rule.id).Nodup ∧
        ∀ r, r ∈ rules ↔ (∃ row ∈ d.rules, row.read = .ok r) ∧ r.active = true ∧
          r.trigger.kind = kind ∧ ∀ t, tenant = some t → r.tenant = t) ∧
    ((∃ row ∈ d.activeRows tenant kind, ∀ r, row.read ≠ .ok r) →
      RuleStore.activeRules d tenant kind = .error .storage) := by
  have hanswer : RuleStore.activeRules d tenant kind =
      ((d.activeRows tenant kind).mergeSort RuleRow.order).mapM RuleRow.read := hk.answer_eq _
  rw [hanswer]
  constructor
  · intro hread
    obtain ⟨rules, hrules⟩ := RuleRow.exists_mapM_read fun row hm =>
      hread row (List.mem_mergeSort.mp hm)
    obtain ⟨hids, hmem⟩ := RuleRow.mem_of_mapM_read hrules
    refine ⟨rules, hrules, ?_, fun r => ?_⟩
    · rw [hids]
      refine ((List.mergeSort_perm _ _).map RuleRow.id).nodup_iff.mpr ?_
      exact (List.filter_sublist.map RuleRow.id).nodup hk.ids
    · simp only [hmem, List.mem_mergeSort, mem_activeRows]
      constructor
      · rintro ⟨row, ⟨hm, ha, hkind, ht⟩, hr⟩
        have hreads := RuleRow.read_eq_ok_iff.mp hr
        exact ⟨⟨row, hm, hr⟩, hreads.active.trans ha,
          TriggerKind.name_inj.mp (((h row hm).kind_eq hr).trans hkind),
          fun t htenant => hreads.tenant.trans (ht t htenant)⟩
      · rintro ⟨⟨row, hm, hr⟩, ha, hkind, ht⟩
        have hreads := RuleRow.read_eq_ok_iff.mp hr
        exact ⟨row, ⟨hm, hreads.active.symm.trans ha,
          ((h row hm).kind_eq hr).symm.trans (congrArg _ hkind),
          fun t htenant => hreads.tenant.symm.trans (ht t htenant)⟩, hr⟩
  · rintro ⟨row, hm, hr⟩
    exact RuleRow.mapM_read_of_unreadable (List.mem_mergeSort.mpr hm) hr

end Database

/-! ### Two rules of every minute -/

namespace Sample

/-- The database with the rule of every minute. -/
def minutelyDatabase : Database := { rules := [.ofRule minutelyRule] }

/-- The database with the rule that is nested too deep. -/
def nestedDatabase : Database := { rules := [.ofRule nestedRule] }

/-- The rule of every minute meets the legible standard. -/
theorem meets_minutelyRule : RuleStandard.legible.Meets minutelyRule := by
  have hcron (c : CronExpression) (hc : minutelyRule.trigger = .schedule c) : c.IsRead := by
    cases hc
    exact ⟨"* * * * *", by decide +kernel⟩
  have horder : ∀ a ∈ minutelyRule.actions, a.order < wordBound := by decide
  have hepoch : Timestamp.epoch.HasFourDigitYear := by decide +kernel
  exact ⟨⟨⟨by decide +kernel, hcron, horder⟩, hcron, horder, by decide +kernel, by decide +kernel⟩,
    hepoch, hepoch, fun t ht => nomatch ht⟩

end Sample

end RuleEngine
