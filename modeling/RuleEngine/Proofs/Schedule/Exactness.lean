import RuleEngine.Proofs.Schedule.Books
import RuleEngine.Proofs.Store.WrittenRule

/-!
# Exact scheduling

The scheduler ticks and tenants manage their rules, in any order and at clock readings in any order.
Since all operations keep the books, every tick is exact, and the jobs of a rule are of later and
later minutes. A database accepts rules that it cannot read back, and while such a rule is active
and has a schedule, every tick is refused.

## Main definitions

* `Engine.SchedulesExactly`: what exact scheduling means for a sequence of operations.
* `Engine.SchedulesUnlessRefused`: what of this holds of a store that may refuse ticks.

## Main results

* `Engine.Booked.perform`: every operation keeps the books.
* `Engine.Booked.performAll`: so does every sequence of operations.
* `schedulesExactly_of_empty`: exact scheduling, for the store in memory and for a database, with the
  ticks that a database refuses.
-/

namespace RuleEngine

open RuleEntries

namespace Engine

variable {σ : Type} [RuleStore σ] [ExecutionLog σ] {e e' : Engine σ}

/-- The engine after operations one after the other. -/
def performAll (e : Engine σ) (ops : List Operation) : Engine σ := ops.foldl perform e

/-- Exact scheduling over a sequence of operations: every tick is exact; so the jobs of a rule are
of later and later minutes, with at most one in each minute of universal time, and for readings
that never go back every minute that is selected and ticked while the rule is active has exactly
one. -/
structure SchedulesExactly (e : Engine σ) (ops : List Operation) : Prop where
  tick : ∀ earlier t later, ops = earlier ++ .tick t :: later →
    (e.performAll earlier).TickIsExact t
  increasing : ∀ id, ((e.performAll ops).ticks id).Pairwise (·.before ·)
  once : ∀ id minute, ((e.performAll ops).ticks id).countP (·.second / 60 = minute) ≤ 1
  complete : (ops.filterMap Operation.reading?).Pairwise (·.notAfter ·) →
    ∀ earlier t later, ops = earlier ++ .tick t :: later →
      ∀ id r, RuleStore.ruleById (e.performAll earlier).store id = .ok (some r) →
        r.active → r.trigger.matchesTick t.floorMinute →
          ((e.performAll ops).ticks id).count t.floorMinute = 1

/-- Scheduling over a sequence of operations if ticks may be refused: every tick is exact or it is
refused; so the jobs of a rule are of later and later minutes, with at most one in each minute of
universal time, and for readings that never go back every minute that is selected and ticked,
without a refusal, while the rule is active has exactly one. -/
structure SchedulesUnlessRefused (e : Engine σ) (ops : List Operation) : Prop where
  tick : ∀ earlier t later, ops = earlier ++ .tick t :: later →
    (e.performAll earlier).TickIsExact t ∨ (e.performAll earlier).TickIsRefused t
  increasing : ∀ id, ((e.performAll ops).ticks id).Pairwise (·.before ·)
  once : ∀ id minute, ((e.performAll ops).ticks id).countP (·.second / 60 = minute) ≤ 1
  complete : (ops.filterMap Operation.reading?).Pairwise (·.notAfter ·) →
    ∀ earlier t later, ops = earlier ++ .tick t :: later →
      ¬(e.performAll earlier).TickIsRefused t →
        ∀ id r, RuleStore.ruleById (e.performAll earlier).store id = .ok (some r) →
          r.active → r.trigger.matchesTick t.floorMinute →
            ((e.performAll ops).ticks id).count t.floorMinute = 1

/-- Scheduling is exact if no tick is refused. -/
theorem SchedulesUnlessRefused.schedulesExactly {ops : List Operation}
    (h : e.SchedulesUnlessRefused ops)
    (hnot : ∀ earlier t later, ops = earlier ++ .tick t :: later →
      ¬(e.performAll earlier).TickIsRefused t) : e.SchedulesExactly ops where
  tick earlier t later heq := (h.tick earlier t later heq).resolve_right (hnot earlier t later heq)
  increasing := h.increasing
  once := h.once
  complete hpair earlier t later heq := h.complete hpair earlier t later heq
    (hnot earlier t later heq)

/-! ### Sequences of operations -/

variable [RuleTable σ] {used : List RuleId} {readings : List Timestamp}

omit [RuleTable σ] in
theorem issued_le_perform (e : Engine σ) (op : Operation) : e.issued ≤ (e.perform op).issued := by
  cases op with
  | tick t =>
    change e.issued ≤ ({ e with clock := t }.fire _).2.issued
    cases Firing.ofInstant e.store t with
    | error error => exact le_rfl
    | ok f =>
      have hf := congrArg (·.2.issued) ({ e with clock := t }.carryFiring_eq_fire f)
      exact ((Nat.le_add_right _ _).trans
        ({ e with clock := t }.issued_add_le_carryFiring f f.stepsLeft)).trans hf.le
  | _ => exact le_rfl

omit [RuleTable σ] in
theorem issued_le_performAll (e : Engine σ) (ops : List Operation) :
    e.issued ≤ (e.performAll ops).issued := by
  induction ops generalizing e with
  | nil => exact le_rfl
  | cons op rest ih => exact (e.issued_le_perform op).trans (ih (e.perform op))

/-- Whether operations are ones that may come: the readings of ticks are clock readings, created
rules have new identifiers, and what tenants give can be written down. -/
structure Admits (σ : Type) [RuleEntries σ] (used : List RuleId) (ops : List Operation) :
    Prop where
  reading : ∀ t, .tick t ∈ ops → t.IsReading
  writable : ∀ op ∈ ops, op.IsWritable σ
  nodup : (ops.filterMap Operation.created?).Nodup
  fresh : ∀ id ∈ ops.filterMap Operation.created?, id ∉ used

/-- Of operations that may come the first ones may come, and then the others. -/
theorem Admits.of_append {earlier later : List Operation}
    (h : Admits σ used (earlier ++ later)) :
    Admits σ used earlier ∧ Admits σ (used ++ earlier.filterMap Operation.created?) later := by
  obtain ⟨hreading, hwritable, hnodup, hfresh⟩ := h
  rw [List.filterMap_append] at hnodup hfresh
  obtain ⟨hearlier, hlater, hne⟩ := List.nodup_append.mp hnodup
  refine ⟨⟨fun t ht => hreading t (List.mem_append_left _ ht),
      fun op hop => hwritable op (List.mem_append_left _ hop), hearlier,
      fun id hid => hfresh id (List.mem_append_left _ hid)⟩,
    ⟨fun t ht => hreading t (List.mem_append_right _ ht),
      fun op hop => hwritable op (List.mem_append_right _ hop), hlater, fun id hid hu => ?_⟩⟩
  rcases List.mem_append.mp hu with hu | hu
  · exact hfresh id (List.mem_append_right _ hid) hu
  · exact hne id hu id hid rfl

/-- What operations come to is what the first ones come to, and then the others. -/
theorem ContinuesTo.trans {e₁ e₂ : Engine σ} {fits₁ fits₂ fits : Prop} {n : Nat}
    {used₁ used₂ : List RuleId} {readings₁ readings₂ : List Timestamp}
    (h₁ : e.ContinuesTo e₁ fits₁ n used₁ readings₁)
    (h₂ : e₁.ContinuesTo e₂ fits₂ n used₂ readings₂) (hf : fits → fits₁ ∧ fits₂) :
    e.ContinuesTo e₂ fits n used₂ readings₂ where
  booked := h₂.booked
  room := h₂.room
  ticks id := (h₁.ticks id).trans (h₂.ticks id)
  readable h hs := h₂.readable (hf h).2 (h₁.readable (hf h).1 hs)

/-- Every operation keeps the books. -/
theorem Booked.perform (h : e.Booked used readings) {op : Operation} {n : Nat}
    (hn : (e.perform op).issued ≤ n) (hr : e.HasRoom n) (hop : Admits σ used [op]) :
    e.ContinuesTo (e.perform op) (op.Fits σ) n (used ++ [op].filterMap Operation.created?)
      (readings ++ [op].filterMap Operation.reading?) := by
  cases hreading : op.reading? with
  | some t =>
    obtain rfl : op = .tick t := by
      cases op <;> simp_all [Operation.reading?]
    have htick := (h.tick (hop.reading t List.mem_cons_self) hn hr).2
    change e.ContinuesTo _ _ n (used ++ []) _
    rw [List.append_nil]
    exact htick
  | none =>
    have hnew : ∀ id, op.created? = some id → id ∉ used := fun id hc =>
      hop.fresh id (List.mem_filterMap.mpr ⟨op, List.mem_cons_self, hc⟩)
    obtain ⟨s, hs, hm⟩ := h.manages hreading (hop.writable op List.mem_cons_self) hnew
    have hcreated : op.created?.toList = [op].filterMap Operation.created? := by
      cases hc : op.created? <;> simp [hc]
    rw [hcreated] at hm
    have hbooked := h.mono (List.subset_append_left used ([op].filterMap Operation.created?))
      (List.Subset.refl readings)
    rw [hs, List.filterMap_cons_none hreading, List.filterMap_nil, List.append_nil]
    exact ⟨hbooked.of_manages hm, hr.of_manages hm, fun id => List.prefix_rfl, hm.isReadable⟩

/-- Every sequence of operations keeps the books. -/
theorem Booked.performAll (h : e.Booked used readings) {ops : List Operation} {n : Nat}
    (hn : (e.performAll ops).issued ≤ n) (hr : e.HasRoom n) (hops : Admits σ used ops) :
    e.ContinuesTo (e.performAll ops) (∀ op ∈ ops, op.Fits σ) n
      (used ++ ops.filterMap Operation.created?)
      (readings ++ ops.filterMap Operation.reading?) := by
  induction ops generalizing e used readings with
  | nil =>
    simp only [List.filterMap_nil, List.append_nil]
    exact ⟨h, hr, fun id => List.prefix_rfl, fun _ hs => hs⟩
  | cons op rest ih =>
    have hops' : Admits σ used ([op] ++ rest) := hops
    obtain ⟨hop, hrest⟩ := hops'.of_append
    have hissued : (e.perform op).issued ≤ n := (issued_le_performAll _ rest).trans hn
    have hfirst := h.perform hissued hr hop
    have hothers := ih hfirst.booked hn hfirst.room hrest
    rw [← List.singleton_append, List.filterMap_append, List.filterMap_append,
      ← List.append_assoc, ← List.append_assoc]
    exact hfirst.trans hothers fun hf => ⟨hf op List.mem_cons_self, (List.forall_mem_cons.mp hf).2⟩

omit [RuleTable σ] in
theorem performAll_append (e : Engine σ) (earlier later : List Operation) :
    e.performAll (earlier ++ later) = (e.performAll earlier).performAll later :=
  List.foldl_append

/-- What holds when a tick comes in a sequence of operations. -/
theorem Booked.exists_of_eq_append (h : e.Booked used readings) {ops earlier later : List Operation}
    {t : Timestamp} (hr : e.HasRoom (e.performAll ops).issued) (hops : Admits σ used ops)
    (heq : ops = earlier ++ .tick t :: later) :
    t.IsReading ∧
      ((e.performAll earlier).TickIsExact t ∨
        (e.performAll earlier).TickIsRefused t ∧ ¬IsReadable (e.performAll earlier).store) ∧
      e.ContinuesTo (e.performAll earlier) (∀ op ∈ earlier, op.Fits σ) (e.performAll ops).issued
        (used ++ earlier.filterMap Operation.created?)
        (readings ++ earlier.filterMap Operation.reading?) ∧
      ∀ id, ((e.performAll earlier).perform (.tick t)).ticks id <+:
        (e.performAll ops).ticks id := by
  subst heq
  rw [performAll_append] at hr ⊢
  have hlast : ((e.performAll earlier).perform (.tick t)).issued ≤
    ((e.performAll earlier).performAll (.tick t :: later)).issued := issued_le_performAll _ later
  have hfirst := (issued_le_perform (e.performAll earlier) (.tick t)).trans hlast
  obtain ⟨hearlier, hrest⟩ := hops.of_append
  have hbefore := h.performAll hfirst hr hearlier
  have ht := hrest.reading t List.mem_cons_self
  obtain ⟨hexact, htick⟩ := hbefore.booked.tick ht hlast hbefore.room
  have hrest' : Admits σ _ ([.tick t] ++ later) := hrest
  obtain ⟨-, hlater⟩ := hrest'.of_append
  have hcreated : [Operation.tick t].filterMap Operation.created? = [] := rfl
  rw [hcreated, List.append_nil] at hlater
  exact ⟨ht, hexact, hbefore, (htick.booked.performAll le_rfl htick.room hlater).ticks⟩

omit [RuleTable σ] in
/-- After an exact tick of a rule that is active and selected the minute is among those of the rule,
if no minute of the rule is later. -/
theorem TickIsExact.mem_ticks {t : Timestamp} {r : Rule} {id : RuleId} (h : e.TickIsExact t)
    (hr : RuleStore.ruleById e.store id = .ok (some r)) (ha : r.active)
    (hm : r.trigger.matchesTick t.floorMinute)
    (hle : ∀ a ∈ e.ticks id, a.before t.floorMinute ∨ a = t.floorMinute) :
    t.floorMinute ∈ (e.perform (.tick t)).ticks id := by
  obtain ⟨jobs, -, hqueue, -, hjobs, hdue⟩ := h
  have hticks : (e.perform (.tick t)).ticks id =
      e.ticks id ++ (jobs.filter fun j => j.rule.id = id).filterMap Job.tick? := by
    rw [ticks, hqueue, List.filter_append, List.filterMap_append]
    rfl
  rw [hticks]
  by_cases hmem : t.floorMinute ∈ e.ticks id
  · exact List.mem_append_left _ hmem
  · have hbefore : ∀ a ∈ e.ticks id, a.before t.floorMinute := fun a ha =>
      (hle a ha).resolve_right fun heq => hmem (heq ▸ ha)
    obtain ⟨j, hj, hid⟩ := (hdue id r hr).mpr ⟨ha, hm, hbefore⟩
    refine List.mem_append_right _ (List.mem_filterMap.mpr ⟨j, ?_, ?_⟩)
    · exact List.mem_filter.mpr ⟨hj, decide_eq_true hid⟩
    · rw [Job.tick?, (hjobs j hj).2]
      rfl

/-- An engine that keeps the books, and for whose rules no job was submitted, schedules exactly but
for the ticks that are refused. -/
theorem Booked.schedulesUnlessRefused (h : e.Booked used []) {ops : List Operation}
    (hr : e.HasRoom (e.performAll ops).issued) (hops : Admits σ used ops) :
    e.SchedulesUnlessRefused ops := by
  have hbooked := (h.performAll le_rfl hr hops).booked
  refine ⟨fun earlier t later heq => ?_, hbooked.ascending, fun id => ?_,
    fun hpair earlier t later heq hnot id r hstored ha hm => ?_⟩
  · exact (h.exists_of_eq_append hr hops heq).2.1.imp_right And.left
  · refine Timestamp.countP_minute_le_one (nodup_of_ascending (hbooked.ascending id)) fun a ha => ?_
    obtain ⟨t, -, ht, rfl⟩ := hbooked.floors id a ha
    exact ht.isMinute
  · obtain ⟨ht, hcases, hbefore, hbehind⟩ := h.exists_of_eq_append hr hops heq
    have hexact := hcases.resolve_right fun hrefused => hnot hrefused.1
    have hle : ∀ a ∈ (e.performAll earlier).ticks id,
        a.before t.floorMinute ∨ a = t.floorMinute := by
      intro a ha
      obtain ⟨t', hmem, ht', rfl⟩ := hbefore.booked.floors id a ha
      rw [List.nil_append] at hmem
      rw [heq, List.filterMap_append] at hpair
      have hreading := (List.pairwise_append.mp hpair).2.2 t' hmem t List.mem_cons_self
      have hfloor := Timestamp.notAfter_iff.mp (Timestamp.floorMinute_notAfter ht' ht hreading)
      rcases Timestamp.before_trichotomy t'.floorMinute t.floorMinute with hlt | heq | hgt
      · exact .inl hlt
      · exact .inr heq
      · exact absurd hgt hfloor
    have hmem := (hbehind id).subset (hexact.mem_ticks hstored ha hm hle)
    exact List.count_eq_one_of_mem (nodup_of_ascending (hbooked.ascending id)) hmem

/-- No tick is refused if the store can be read and what is written fits. -/
theorem Booked.schedulesExactly (h : e.Booked used []) {ops : List Operation}
    (hr : e.HasRoom (e.performAll ops).issued) (hops : Admits σ used ops)
    (hs : IsReadable e.store) (hf : ∀ op ∈ ops, op.Fits σ) : e.SchedulesExactly ops := by
  refine (h.schedulesUnlessRefused hr hops).schedulesExactly fun earlier t later heq hrefused => ?_
  obtain ⟨-, hcases, hbefore, -⟩ := h.exists_of_eq_append hr hops heq
  have hfits : ∀ op ∈ earlier, op.Fits σ := fun op hop =>
    hf op (heq ▸ List.mem_append_left _ hop)
  rcases hcases with ⟨jobs, hok, -⟩ | ⟨-, hunreadable⟩
  · rw [hrefused.2] at hok
    cases hok
  · exact hunreadable (hbefore.readable hfits hs)

/-- A tick is refused exactly if the row of an active rule with a schedule cannot be read. -/
theorem tickIsRefused_iff {e : Engine Database} (h : IsSound e.store) (t : Timestamp) :
    e.TickIsRefused t ↔ ∃ row ∈ e.store.activeRows none .schedule, ∀ r, row.read ≠ .ok r := by
  rw [← Database.IsWritten.activeRules_eq_storage_iff h]
  exact ⟨And.left, fun hfault => ⟨hfault, tick_of_error (e := { e with clock := t }) hfault⟩⟩

end Engine

open Engine in
/-- Exact scheduling: whatever ticks and operations come one after the other, at readings in any
order, and with new identifiers for created rules, an engine that starts without rules in memory and
whose queue is open schedules exactly. With a database that accepts the identifiers of all records
it schedules exactly but for the ticks that are refused, and these are the ones at which the row of
an active rule with a schedule cannot be read. There is none of them if everything that is written
can be read back. -/
theorem schedulesExactly_of_empty (ops : List Operation)
    (hreadings : ∀ t, .tick t ∈ ops → t.IsReading)
    (hfresh : (ops.filterMap Operation.created?).Nodup) :
    (∀ e : Engine MemoryStore, e.store.rules = [] → e.queue.isOpen → e.queue.jobs = [] →
      e.SchedulesExactly ops) ∧
    ∀ e : Engine Database, e.store.isOpen → e.store.rules = [] → e.queue.isOpen →
      e.queue.jobs = [] → (∀ op ∈ ops, op.IsWritable Database) →
      e.HasRoom (e.performAll ops).issued →
      e.SchedulesUnlessRefused ops ∧
      (∀ earlier t later, ops = earlier ++ .tick t :: later →
        ((e.performAll earlier).TickIsRefused t ↔
          ∃ row ∈ (e.performAll earlier).store.activeRows none .schedule,
            ∀ r, row.read ≠ .ok r)) ∧
      ((∀ op ∈ ops, op.Fits Database) → e.SchedulesExactly ops) := by
  refine ⟨fun e hrules hopen hjobs => ?_, fun e hstore hrules hopen hjobs hwritable hroom => ?_⟩
  · have hsound : IsSound e.store := by
      change (e.store.rules.map Rule.id).Nodup
      rw [hrules]
      exact List.nodup_nil
    have hnone (id : RuleId) : stored? e.store id = none := by
      change (e.store.rules.find? _).map some = none
      rw [hrules]
      rfl
    have hadmits : Admits MemoryStore [] ops := by
      refine ⟨hreadings, fun op _ => ?_, hfresh, fun id _ => List.not_mem_nil⟩
      cases op <;> exact trivial
    have hfits : ∀ op ∈ ops, op.Fits MemoryStore := by
      intro op _
      cases op <;> simp [Operation.Fits, RuleEntries.Fits, FitsTime]
    exact (Booked.of_empty hsound hopen hjobs hnone).schedulesExactly trivial hadmits
      (fun id => by simp [hnone]) hfits
  · have hsound : IsSound e.store := by
      refine ⟨hstore, ?_, ?_⟩
      · rw [hrules]
        exact List.nodup_nil
      · rw [hrules]
        exact fun row hm => nomatch hm
    have hnone (id : RuleId) : stored? e.store id = none := by
      change (e.store.rules.find? _).map _ = none
      rw [hrules]
      rfl
    have hadmits : Admits Database [] ops :=
      ⟨hreadings, hwritable, hfresh, fun id _ => List.not_mem_nil⟩
    have hbooked := Booked.of_empty hsound hopen hjobs hnone
    refine ⟨hbooked.schedulesUnlessRefused hroom hadmits, fun earlier t later heq => ?_,
      hbooked.schedulesExactly hroom hadmits fun id => by simp [hnone]⟩
    obtain ⟨-, -, hbefore, -⟩ := hbooked.exists_of_eq_append hroom hadmits heq
    exact tickIsRefused_iff hbefore.booked.sound t

/-! ### A rule of every minute -/

namespace Sample

/-- The expression that selects every minute. -/
def everyMinute : CronExpression where
  source := "* * * * *"
  minutes := List.range 60
  hours := List.range 24
  daysOfMonth := List.range' 1 31
  months := List.range' 1 12
  daysOfWeek := List.range 7
  daysOfMonthRestricted := false
  daysOfWeekRestricted := false

/-- A rule that logs a greeting every minute. -/
def minutelyRule : Rule where
  id := .numbered 1
  tenant := "acme"
  name := "greet every minute"
  trigger := .schedule everyMinute
  combination := .all
  active := true
  delaySeconds := none
  conditions := []
  actions := [⟨0, Handler.logType, Dictionary.empty.insert "message" (.string "hello")⟩]
  lastTick := none
  createdAt := .epoch
  updatedAt := .epoch

/-- A text in lists in lists. -/
def nested : Nat → Value
  | 0 => .string "hello"
  | n + 1 => .list [nested n]

/-- A rule of every minute with a parameter that is nested deeper than what can be read back. -/
def nestedRule : Rule :=
  { minutelyRule with
    id := .numbered 2
    name := "greet from the depth"
    actions := [⟨0, Handler.logType, Dictionary.empty.insert "message" (nested 62)⟩] }

/-- An instant of the first day. -/
def instant (second : Nat) : Timestamp := (Timestamp.of? second 0).getD .epoch

/-- The rule is created, ticked twice in one minute, late and again for the minute before, and then
deactivated, ticked and deleted. -/
def operations : List Operation :=
  [.create minutelyRule .epoch, .tick (instant 20), .tick (instant 40), .tick (instant 150),
    .tick (instant 119), .setActive "acme" minutelyRule.id false .epoch, .tick (instant 200),
    .delete "acme" minutelyRule.id]

/-- The two rules are created. -/
def creations : List Operation := [.create minutelyRule .epoch, .create nestedRule .epoch]

/-- The two rules are created and ticked. -/
def nestedOperations : List Operation := creations ++ [.tick (instant 20)]

/-- An engine without rules. -/
def emptyEngine : Engine MemoryStore where
  store := {}
  clock := .epoch
  allowed := 1000

/-- An engine with an empty database. -/
def databaseEngine : Engine Database where
  store := {}
  clock := .epoch
  allowed := 1000

/-- The row of the nested rule cannot be read. -/
theorem read_nestedRule (r : Rule) :
    (RuleRow.ofRule (RuleService.created nestedRule .epoch)).read ≠ .ok r := by
  intro hr
  have hdepth := Column.depth_le_of_structured (RuleRow.read_eq_ok_iff.mp hr).actions
  exact absurd hdepth (by decide +kernel)

theorem activeRules_creations :
    RuleStore.activeRules (databaseEngine.performAll creations).store none .schedule =
      .error .storage := by
  refine RuleRow.mapM_read_of_unreadable (List.mem_mergeSort.mpr ?_) read_nestedRule
  exact List.mem_of_getElem? (i := 1) rfl

/-- The tick after the creations is refused. -/
theorem performAll_nestedOperations : databaseEngine.performAll nestedOperations =
    { databaseEngine.performAll creations with clock := instant 20 } :=
  congrArg Prod.snd (Engine.tick_of_error
    (e := { databaseEngine.performAll creations with clock := instant 20 }) activeRules_creations)

end Sample

/-- The rule of every minute gets a job for the first minute and for the third one, in memory and in
a database. After a rule that is nested too deep was created, it gets one in memory only. -/
theorem schedulesExactly_operations :
    (Sample.emptyEngine.SchedulesExactly Sample.operations ∧
      (Sample.emptyEngine.performAll Sample.operations).ticks Sample.minutelyRule.id =
        [Sample.instant 0, Sample.instant 120]) ∧
    (Sample.databaseEngine.SchedulesExactly Sample.operations ∧
      (Sample.databaseEngine.performAll Sample.operations).ticks Sample.minutelyRule.id =
        [Sample.instant 0, Sample.instant 120]) ∧
    ((Sample.emptyEngine.performAll Sample.nestedOperations).ticks Sample.minutelyRule.id).count
      (Sample.instant 20).floorMinute = 1 ∧
    Sample.databaseEngine.SchedulesUnlessRefused Sample.nestedOperations ∧
      (Sample.databaseEngine.performAll Sample.creations).TickIsRefused (Sample.instant 20) ∧
      (Sample.databaseEngine.performAll Sample.nestedOperations).ticks
        Sample.minutelyRule.id = [] := by
  have hreadings : ∀ t, .tick t ∈ Sample.operations → t.IsReading := by
    intro t ht
    simp only [Sample.operations, List.mem_cons, List.not_mem_nil, reduceCtorEq, false_or,
      or_false, Operation.tick.injEq] at ht
    rcases ht with rfl | rfl | rfl | rfl | rfl <;> decide
  have hreadings' : ∀ t, .tick t ∈ Sample.nestedOperations → t.IsReading := by
    intro t ht
    simp only [Sample.nestedOperations, Sample.creations, List.cons_append, List.nil_append,
      List.mem_cons, List.not_mem_nil, reduceCtorEq, false_or, or_false,
      Operation.tick.injEq] at ht
    subst ht
    decide
  have hall := schedulesExactly_of_empty Sample.operations hreadings
    (List.pairwise_singleton _ _)
  have hnested := schedulesExactly_of_empty Sample.nestedOperations hreadings' (by decide)
  have hcron : Sample.everyMinute.IsRead := ⟨"* * * * *", by decide +kernel⟩
  have hwritable : Sample.minutelyRule.IsWellFormed :=
    ⟨fun c hc => Trigger.schedule.inj hc ▸ hcron, by decide⟩
  have hwritable' : Sample.nestedRule.IsWellFormed :=
    ⟨fun c hc => Trigger.schedule.inj hc ▸ hcron, by decide⟩
  have hstorable : Sample.minutelyRule.IsStorable :=
    ⟨hwritable.cron, hwritable.order, by decide +kernel, by decide +kernel⟩
  have hepoch : Timestamp.epoch.HasFourDigitYear := by decide +kernel
  have hwrites : ∀ op ∈ Sample.operations, op.IsWritable Database := by
    simp only [Sample.operations, List.forall_mem_cons]
    exact ⟨hwritable, trivial, trivial, trivial, trivial, trivial, trivial, trivial,
      fun _ h => nomatch h⟩
  have hwrites' : ∀ op ∈ Sample.nestedOperations, op.IsWritable Database := by
    simp only [Sample.nestedOperations, Sample.creations, List.cons_append, List.nil_append,
      List.forall_mem_cons]
    exact ⟨hwritable, hwritable', trivial, fun _ h => nomatch h⟩
  have hfits : ∀ op ∈ Sample.operations, op.Fits Database := by
    simp only [Sample.operations, List.forall_mem_cons]
    exact ⟨⟨hstorable, hepoch⟩, trivial, trivial, trivial, trivial, hepoch, trivial, trivial,
      fun _ h => nomatch h⟩
  have hroom : Sample.databaseEngine.HasRoom
      (Sample.databaseEngine.performAll Sample.operations).issued :=
    ⟨by decide +kernel, fun _ h => nomatch h⟩
  have hroom' : Sample.databaseEngine.HasRoom
      (Sample.databaseEngine.performAll Sample.nestedOperations).issued := by
    rw [Sample.performAll_nestedOperations]
    exact ⟨by decide +kernel, fun _ h => nomatch h⟩
  obtain ⟨-, -, hexact⟩ := hall.2 Sample.databaseEngine rfl rfl rfl rfl hwrites hroom
  obtain ⟨hscheduled, hrefused, -⟩ :=
    hnested.2 Sample.databaseEngine rfl rfl rfl rfl hwrites' hroom'
  have hmemory := hnested.1 Sample.emptyEngine rfl rfl rfl
  refine ⟨⟨hall.1 _ rfl rfl rfl, by decide +kernel⟩, ⟨hexact hfits, by decide +kernel⟩, ?_,
    hscheduled, ?_, ?_⟩
  · exact hmemory.complete (List.pairwise_singleton _ _) Sample.creations _ [] rfl
      Sample.minutelyRule.id (RuleService.created Sample.minutelyRule .epoch) rfl rfl
      (by decide +kernel)
  · refine (hrefused Sample.creations _ [] rfl).mpr ⟨_, ?_, Sample.read_nestedRule⟩
    exact List.mem_of_getElem? (i := 1) rfl
  · rw [Sample.performAll_nestedOperations]
    decide +kernel

end RuleEngine
