import Mathlib.Data.List.Nodup
import RuleEngine.Proofs.Schedule.Tick
import RuleEngine.Proofs.Service.Effect

/-!
# The books of the scheduler

The scheduler ticks and tenants manage their rules. A tick submits a job for a stored rule if and
only if the rule is active, its schedule selects the minute of the reading, and the minute is later
than those of all earlier jobs of the rule. What carries this through the operations in between is
that the minute noted for a stored rule is that of the last job submitted for its identifier: these
are the books that every operation keeps.

## Main definitions

* `Operation`: a tick, or an operation by which a tenant manages its rules.
* `Engine.ticks`: the minutes of the jobs that were submitted for a rule.
* `Engine.TickIsExact`, `Engine.TickIsRefused`: what a tick comes to.
* `Engine.Booked`: whether the noted minutes are those of the jobs.
* `Engine.ContinuesTo`: an engine that has come from another one and keeps the books.

## Main results

* `Engine.Booked.manages`: the operations of tenants keep the books.
* `Engine.Booked.tick`: so does a tick, which is exact or refused.
-/

namespace RuleEngine

open RuleEntries

/-- A tick of the scheduler at a clock reading, or an operation by which a tenant manages its rules
at an instant. -/
inductive Operation where
  | tick (reading : Timestamp)
  | create (r : Rule) (now : Timestamp)
  | update (r : Rule) (now : Timestamp)
  | setActive (tenant : TenantId) (id : RuleId) (active : Bool) (now : Timestamp)
  | delete (tenant : TenantId) (id : RuleId)

namespace Operation

/-- The clock reading of a tick. -/
def reading? : Operation → Option Timestamp
  | .tick t => some t
  | _ => none

/-- The identifier under which a rule is created. -/
def created? : Operation → Option RuleId
  | .create r _ => some r.id
  | _ => none

/-- Whether the rule that a tenant gives can be written down. -/
def IsWritable (σ : Type) [RuleEntries σ] : Operation → Prop
  | .create r _ | .update r _ => RuleEntries.IsWritable σ r
  | .tick _ | .setActive .. | .delete .. => True

/-- Whether what an operation writes can be read back. -/
def Fits (σ : Type) [RuleEntries σ] : Operation → Prop
  | .tick _ | .delete .. => True
  | .create r now | .update r now => RuleEntries.Fits σ r ∧ FitsTime σ now
  | .setActive _ _ _ now => FitsTime σ now

end Operation

/-- The minute of a job of the scheduler. -/
def Job.tick? (j : Job) : Option Timestamp :=
  match j.context.source with
  | .schedule tick => some tick
  | .change _ => none

namespace Engine

variable {σ : Type} [RuleStore σ] [ExecutionLog σ] {e e' : Engine σ}

/-- The engine after an operation. -/
def perform (e : Engine σ) : Operation → Engine σ
  | .tick t => { e with clock := t }.tick.2
  | .create r now => (e.manage (RuleService.create r now)).2
  | .update r now => (e.manage (RuleService.update r now)).2
  | .setActive tenant id active now => (e.manage (RuleService.setActive tenant id active now)).2
  | .delete tenant id => (e.manage (RuleService.delete tenant id)).2

omit [RuleStore σ] [ExecutionLog σ] in
/-- The minutes of the jobs that were submitted for a rule, from the first to the last. -/
def ticks (e : Engine σ) (id : RuleId) : List Timestamp :=
  (e.queue.jobs.filter fun j => j.rule.id = id).filterMap Job.tick?

/-- Whether a tick at a reading is answered with the number of its jobs, which are one for each
stored rule that is active, whose schedule selects the minute of the reading, and whose earlier
jobs are all of earlier minutes. -/
def TickIsExact (e : Engine σ) (t : Timestamp) : Prop :=
  ∃ jobs, ({ e with clock := t }.tick).1 = .ok jobs.length ∧
    (e.perform (.tick t)).queue.jobs = e.queue.jobs ++ jobs ∧
    (jobs.map (·.rule.id)).Nodup ∧
    (∀ j ∈ jobs, RuleStore.ruleById e.store j.rule.id = .ok (some j.rule) ∧
      j.context = .ofTick j.rule.tenant t.floorMinute) ∧
    ∀ id r, RuleStore.ruleById e.store id = .ok (some r) →
      ((∃ j ∈ jobs, j.rule.id = id) ↔ r.active ∧ r.trigger.matchesTick t.floorMinute ∧
        ∀ last ∈ e.ticks id, last.before t.floorMinute)

/-- Whether the active rules cannot be listed, so that a tick is refused and sets the clock only. -/
def TickIsRefused (e : Engine σ) (t : Timestamp) : Prop :=
  RuleStore.activeRules e.store none .schedule = .error .storage ∧
    { e with clock := t }.tick = (.error .storage, { e with clock := t })

/-! ### Minutes in ascending order -/

/-- Of ascending minutes all are before an instant if the last one is. -/
theorem forall_before_iff {l : List Timestamp} (h : l.Pairwise (·.before ·)) {t : Timestamp} :
    (∀ a ∈ l, a.before t) ↔ ∀ last, l.getLast? = some last → last.before t := by
  rcases List.eq_nil_or_concat l with rfl | ⟨l, last, rfl⟩
  · simp
  · rw [List.concat_eq_append] at h ⊢
    rw [List.getLast?_concat]
    constructor
    · intro ha _ hl
      cases hl
      exact ha _ (List.mem_append_right _ List.mem_cons_self)
    · intro hl a ha
      rcases List.mem_append.mp ha with ha | ha
      · have hlast := (List.pairwise_append.mp h).2.2 a ha last List.mem_cons_self
        exact Timestamp.before_trans hlast (hl last rfl)
      · rw [List.mem_singleton.mp ha]
        exact hl last rfl

theorem nodup_of_ascending {l : List Timestamp} (h : l.Pairwise (·.before ·)) : l.Nodup := by
  refine h.imp fun hab => ?_
  rintro rfl
  exact Timestamp.not_before_self hab

/-! ### The books -/

variable [RuleTable σ]

/-- Whether the minute noted for every stored rule is that of the last job submitted for it, and
these minutes ascend and are those of readings. No job was submitted for a rule whose identifier
is not among the given ones. -/
structure Booked (e : Engine σ) (used : List RuleId) (readings : List Timestamp) : Prop where
  sound : IsSound e.store
  isOpen : e.queue.isOpen
  noted : ∀ id r, rule? e.store id = some r → r.lastTick = (e.ticks id).getLast?
  stored : ∀ id r, rule? e.store id = some r → id ∈ used
  ticked : ∀ id, e.ticks id ≠ [] → id ∈ used
  ascending : ∀ id, (e.ticks id).Pairwise (·.before ·)
  floors : ∀ id, ∀ a ∈ e.ticks id, ∃ t ∈ readings, t.IsReading ∧ a = t.floorMinute

variable {used : List RuleId} {readings : List Timestamp}

/-- Without rules and without jobs there is nothing to book. -/
theorem Booked.of_empty (hs : IsSound e.store) (hq : e.queue.isOpen) (hj : e.queue.jobs = [])
    (hn : ∀ id, stored? e.store id = none) : e.Booked [] [] := by
  have hticks (id : RuleId) : e.ticks id = [] := by
    rw [ticks, hj]
    rfl
  refine ⟨hs, hq, fun id r hr => ?_, fun id r hr => ?_, fun id hne => absurd (hticks id) hne,
    fun id => ?_, fun id a ha => ?_⟩
  · cases (hn id).symm.trans (rule?_eq_some_iff.mp hr)
  · cases (hn id).symm.trans (rule?_eq_some_iff.mp hr)
  · rw [hticks]
    exact List.Pairwise.nil
  · rw [hticks] at ha
    cases ha

theorem Booked.mono (h : e.Booked used readings) {used' : List RuleId}
    {readings' : List Timestamp} (hu : used ⊆ used') (hr : readings ⊆ readings') :
    e.Booked used' readings' := by
  refine ⟨h.sound, h.isOpen, h.noted, fun id r hs => hu (h.stored id r hs),
    fun id ht => hu (h.ticked id ht), h.ascending, fun id a ha => ?_⟩
  obtain ⟨t, ht, hf⟩ := h.floors id a ha
  exact ⟨t, hr ht, hf⟩

/-! ### Operations of tenants -/

/-- Whether a store is the one of an engine, or is that with one entry set, in which nothing can be
read or a rule whose noted minute is that of the last job, or with one entry removed. An entry that
fits can be read. -/
def Manages (e : Engine σ) (used : List RuleId) (fits : Prop) (s : σ) : Prop :=
  s = e.store ∨ ∃ id entry, Sets e.store id entry s ∧
    (∀ kept, entry = some (some kept) → kept.lastTick = (e.ticks id).getLast? ∧ id ∈ used) ∧
    (fits → entry ≠ some none)

variable {fits : Prop}

/-- Such a store keeps the books. -/
theorem Booked.of_manages (h : e.Booked used readings) {s : σ} (hm : e.Manages used fits s) :
    { e with store := s }.Booked used readings := by
  rcases hm with rfl | ⟨id, entry, hs, hr, -⟩
  · exact h
  refine ⟨hs.sound, h.isOpen, fun other kept hk => ?_, fun other kept hk => ?_, h.ticked,
    h.ascending, h.floors⟩
  · by_cases ho : other = id
    · subst ho
      exact (hr kept (hs.entry_eq.symm.trans (rule?_eq_some_iff.mp hk))).1
    · exact h.noted other kept ((hs.rule_ne ho).symm.trans hk)
  · by_cases ho : other = id
    · subst ho
      exact (hr kept (hs.entry_eq.symm.trans (rule?_eq_some_iff.mp hk))).2
    · exact h.stored other kept ((hs.rule_ne ho).symm.trans hk)

theorem HasRoom.of_manages {n : Nat} (h : e.HasRoom n) {s : σ} (hm : e.Manages used fits s) :
    { e with store := s }.HasRoom n := by
  rcases hm with rfl | ⟨id, entry, hs, -⟩
  · exact h
  · exact hs.accepts _ h

/-- Such a store can be read if what is written fits. -/
theorem Manages.isReadable {s : σ} (hm : e.Manages used fits s) (hf : fits)
    (hr : IsReadable e.store) : IsReadable s := by
  rcases hm with rfl | ⟨id, entry, hs, -, he⟩
  · exact hr
  · exact hs.isReadable hr (he hf)

variable {r : Rule} {now : Timestamp} {tenant : TenantId} {id : RuleId}

theorem Booked.manages_create (h : e.Booked used readings) (hw : RuleEntries.IsWritable σ r)
    (hn : r.id ∉ used) :
    e.Manages (used ++ [r.id]) (RuleEntries.Fits σ r ∧ FitsTime σ now)
      ((RuleService.create r now).perform e.store).2 := by
  refine (RuleService.snd_perform_create e.store r now).imp_right fun hstore => ?_
  have hw' : RuleEntries.IsWritable σ (RuleService.created r now) :=
    RuleTable.isWritable_congr hw rfl rfl
  obtain ⟨kept, hs, hl, hk⟩ := RuleTable.sets_create h.sound hw' rfl hstore
  have hnone : e.ticks r.id = [] := not_not.mp fun hne => hn (h.ticked r.id hne)
  refine ⟨r.id, some kept, hs, fun k he => ?_, fun ⟨hf, ht⟩ he => ?_⟩
  · rw [hl k (Option.some.inj he), hnone]
    exact ⟨rfl, List.mem_append_right _ List.mem_cons_self⟩
  · exact hk (RuleTable.fits_congr hf rfl rfl rfl) ht ht (Option.some.inj he)

/-- A rule that replaces the stored one with its noted minute keeps the books. -/
theorem Booked.manages_update (h : e.Booked used readings) {stored : Rule} {s : σ}
    (hw : RuleEntries.IsWritable σ r)
    (hstored : RuleStore.ruleById e.store r.id = .ok (some stored))
    (hc : r.createdAt = stored.createdAt) (hl : r.lastTick = stored.lastTick)
    (hf : fits → RuleEntries.Fits σ r ∧ FitsTime σ r.updatedAt)
    (hstore : RuleStore.updateRule e.store r = .ok s) :
    e.Manages used fits s := by
  rw [RuleTable.ruleById_eq_some_iff h.sound] at hstored
  obtain ⟨kept, hs, hlast, hk⟩ := RuleTable.sets_update h.sound hstored hw hc hl hstore
  refine .inr ⟨r.id, some kept, hs, fun k he => ?_, fun hfits he => ?_⟩
  · rw [hlast k (Option.some.inj he)]
    exact ⟨h.noted r.id stored hstored, h.stored r.id stored hstored⟩
  · exact hk (hf hfits).1 (hf hfits).2 (Option.some.inj he)

/-- An operation by which a tenant manages its rules keeps the books, if the identifier of a created
rule is new. -/
theorem Booked.manages (h : e.Booked used readings) {op : Operation} (hop : op.reading? = none)
    (hw : op.IsWritable σ) (hc : ∀ id, op.created? = some id → id ∉ used) :
    ∃ s, e.perform op = { e with store := s } ∧
      e.Manages (used ++ op.created?.toList) (op.Fits σ) s := by
  cases op with
  | tick t => cases hop
  | create r now => exact ⟨_, rfl, h.manages_create hw (hc r.id rfl)⟩
  | update r now =>
    refine ⟨_, rfl, ?_⟩
    change e.Manages (used ++ []) _ _
    rw [List.append_nil]
    rcases RuleService.snd_perform_update e.store r now with hs | ⟨stored, hstored, hstore⟩
    · exact .inl hs
    · have hw' : RuleEntries.IsWritable σ (RuleService.revised r stored now) :=
        RuleTable.isWritable_congr hw rfl rfl
      exact h.manages_update hw' hstored rfl rfl
        (fun hf => ⟨RuleTable.fits_congr hf.1 rfl rfl rfl, hf.2⟩) hstore
  | setActive tenant id active now =>
    refine ⟨_, rfl, ?_⟩
    change e.Manages (used ++ []) _ _
    rw [List.append_nil]
    rcases RuleService.snd_perform_setActive e.store tenant id active now with
      hs | ⟨stored, hstored, hstore⟩
    · exact .inl hs
    · have hs := (RuleTable.ruleById_eq_some_iff h.sound).mp hstored
      obtain rfl := RuleTable.id_eq h.sound hs
      obtain ⟨hw', hf'⟩ := RuleTable.fits_stored h.sound hs
      have hswitched : RuleEntries.IsWritable σ { stored with active, updatedAt := now } :=
        RuleTable.isWritable_congr hw' rfl rfl
      exact h.manages_update hswitched hstored rfl rfl
        (fun hf => ⟨RuleTable.fits_congr hf' rfl rfl rfl, hf⟩) hstore
  | delete tenant id =>
    refine ⟨_, rfl, ?_⟩
    change e.Manages (used ++ []) _ _
    rw [List.append_nil]
    rcases RuleService.snd_perform_delete e.store tenant id with hs | hstore
    · exact .inl hs
    · refine .inr ⟨id, none, RuleTable.sets_delete h.sound hstore, fun _ hk => ?_, fun _ hk => ?_⟩
      · cases hk
      · cases hk

/-! ### Ticks -/

omit [RuleStore σ] [ExecutionLog σ] [RuleTable σ] in
private theorem filterMap_tick?_eq {jobs : List Job} {tick : Timestamp}
    (hj : ∀ j ∈ jobs, j.tick? = some tick) (hn : (jobs.map (·.rule.id)).Nodup) (id : RuleId) :
    (jobs.filter fun j => j.rule.id = id).filterMap Job.tick? =
      if id ∈ jobs.map (·.rule.id) then [tick] else [] := by
  induction jobs with
  | nil => rfl
  | cons j rest ih =>
    obtain ⟨hj, hrest⟩ := List.forall_mem_cons.mp hj
    obtain ⟨hnot, hn⟩ := List.nodup_cons.mp hn
    have ih := ih hrest hn
    by_cases hid : j.rule.id = id
    · subst hid
      rw [if_neg hnot] at ih
      rw [List.filter_cons_of_pos (by simp), List.filterMap_cons_some hj, ih, List.map_cons,
        if_pos List.mem_cons_self]
    · have hne : ¬ id = j.rule.id := Ne.symm hid
      rw [List.filter_cons_of_neg (by simpa using hid), ih]
      simp only [List.map_cons, List.mem_cons, hne, false_or]

theorem Ticked.map_id_eq {tick : Timestamp} {due : List Rule} {jobs : List Job}
    (h : e.Ticked tick due jobs e') : jobs.map (·.rule.id) = due.map Rule.id := by
  rw [← h.rules, List.map_map]
  rfl

/-- A tick adds its minute to those of the rules that were due. -/
theorem Ticked.ticks_eq {tick : Timestamp} {due : List Rule} {jobs : List Job}
    (h : e.Ticked tick due jobs e') (hn : (due.map Rule.id).Nodup) (id : RuleId) :
    e'.ticks id = if id ∈ due.map Rule.id then e.ticks id ++ [tick] else e.ticks id := by
  have hids := h.map_id_eq
  have hj : ∀ j ∈ jobs, j.tick? = some tick := by
    intro j hm
    obtain ⟨k, hk⟩ := h.job j hm
    rw [hk]
    rfl
  rw [ticks, h.queue]
  change ((e.queue.jobs ++ jobs).filter _).filterMap _ = _
  rw [List.filter_append, List.filterMap_append, filterMap_tick?_eq hj (hids ▸ hn), hids]
  by_cases hid : id ∈ due.map Rule.id
  · rw [if_pos hid, if_pos hid]
    rfl
  · rw [if_neg hid, if_neg hid, List.append_nil]
    rfl

/-- A tick adds its minute to the minutes of a rule and notes it, or leaves both as they are. -/
theorem Ticked.due_or_same {tick : Timestamp} {due : List Rule} {jobs : List Job}
    (h : e.Ticked tick due jobs e') (hn : (due.map Rule.id).Nodup) (id : RuleId) :
    (id ∈ due.map Rule.id ∧ e'.ticks id = e.ticks id ++ [tick] ∧
      rule? e'.store id = (rule? e.store id).map fun r => { r with lastTick := some tick }) ∨
    (e'.ticks id = e.ticks id ∧ rule? e'.store id = rule? e.store id) := by
  rw [h.ticks_eq hn, h.rule?_eq]
  by_cases hid : id ∈ due.map Rule.id
  · rw [if_pos hid, if_pos hid]
    exact .inl ⟨hid, rfl, rfl⟩
  · rw [if_neg hid, if_neg hid]
    exact .inr ⟨rfl, rfl⟩

/-- A stored rule is due if and only if it is active, its schedule selects the minute, and all its
earlier jobs are of earlier minutes. -/
theorem Booked.mem_due_iff (h : e.Booked used readings) {tick : Timestamp} {due : List Rule}
    (hdue : ∀ r, r ∈ due ↔ rule? e.store r.id = some r ∧ r.active ∧ r.trigger.matchesTick tick ∧
      ∀ last, r.lastTick = some last → last.before tick)
    (hr : rule? e.store id = some r) :
    id ∈ due.map Rule.id ↔ r.active ∧ r.trigger.matchesTick tick ∧
      ∀ a ∈ e.ticks id, a.before tick := by
  have hid := RuleTable.id_eq h.sound hr
  have hlast : (∀ last, r.lastTick = some last → last.before tick) ↔
      ∀ a ∈ e.ticks id, a.before tick := by
    rw [forall_before_iff (h.ascending id), h.noted id r hr]
  rw [← hlast]
  constructor
  · intro hm
    obtain ⟨r', hm, hid'⟩ := List.mem_map.mp hm
    obtain ⟨hr', hd⟩ := (hdue r').mp hm
    rw [hid', hr, Option.some.injEq] at hr'
    exact hr' ▸ hd
  · intro hd
    refine List.mem_map.mpr ⟨r, (hdue r).mpr ⟨?_, hd⟩, hid⟩
    rw [hid, hr]

/-- A tick keeps the books. -/
theorem Booked.of_ticked (h : e.Booked used readings) {t : Timestamp} (ht : t.IsReading)
    {due : List Rule} {jobs : List Job}
    (hstored : ∀ r ∈ due, rule? e.store r.id = some r)
    (hbefore : ∀ id ∈ due.map Rule.id, ∀ a ∈ e.ticks id, a.before t.floorMinute)
    (hn : (due.map Rule.id).Nodup) (hticked : e.Ticked t.floorMinute due jobs e') :
    e'.Booked used (readings ++ [t]) := by
  have hcases := hticked.due_or_same hn
  have hused : ∀ id ∈ due.map Rule.id, id ∈ used := by
    intro id hid
    obtain ⟨r, hr, rfl⟩ := List.mem_map.mp hid
    exact h.stored r.id r (hstored r hr)
  refine ⟨hticked.sound, ?_, fun id r hr => ?_, fun id r hr => ?_, fun id hne => ?_, fun id => ?_,
    fun id a ha => ?_⟩
  · rw [hticked.queue]
    exact h.isOpen
  · rcases hcases id with ⟨-, ht, hrule⟩ | ⟨ht, hrule⟩
    · rw [hrule] at hr
      obtain ⟨_, -, rfl⟩ := Option.map_eq_some_iff.mp hr
      rw [ht, List.getLast?_concat]
    · rw [ht]
      exact h.noted id r (hrule ▸ hr)
  · rcases hcases id with ⟨hid, -⟩ | ⟨-, hrule⟩
    · exact hused id hid
    · exact h.stored id r (hrule ▸ hr)
  · rcases hcases id with ⟨hid, -⟩ | ⟨ht, -⟩
    · exact hused id hid
    · exact h.ticked id (ht ▸ hne)
  · rcases hcases id with ⟨hid, ht, -⟩ | ⟨ht, -⟩
    · rw [ht, List.pairwise_append]
      refine ⟨h.ascending id, List.pairwise_singleton _ _, fun a ha b hb => ?_⟩
      rw [List.mem_singleton.mp hb]
      exact hbefore id hid a ha
    · rw [ht]
      exact h.ascending id
  · have hold : a ∈ e.ticks id → ∃ t' ∈ readings ++ [t], t'.IsReading ∧ a = t'.floorMinute := by
      intro ha
      obtain ⟨t', ht', hf⟩ := h.floors id a ha
      exact ⟨t', List.mem_append_left _ ht', hf⟩
    rcases hcases id with ⟨-, ht', -⟩ | ⟨ht', -⟩
    · rw [ht'] at ha
      rcases List.mem_append.mp ha with ha | ha
      · exact hold ha
      · exact ⟨t, List.mem_append_right _ List.mem_cons_self, ht, List.mem_singleton.mp ha⟩
    · exact hold (ht' ▸ ha)

/-- What operations come to: an engine that keeps the books and has room, at which the minutes of a
rule start with the earlier ones, and whose store can be read if it could be and what was written
fits. -/
structure ContinuesTo (e e' : Engine σ) (fits : Prop) (n : Nat) (used : List RuleId)
    (readings : List Timestamp) : Prop where
  booked : e'.Booked used readings
  room : e'.HasRoom n
  ticks : ∀ id, e.ticks id <+: e'.ticks id
  readable : fits → IsReadable e.store → IsReadable e'.store

/-- A tick that gets the list of the active rules is exact and keeps the books. -/
theorem Booked.tick_of_listed (h : e.Booked used readings) {t : Timestamp} (ht : t.IsReading)
    {n : Nat} (hn : (e.perform (.tick t)).issued ≤ n) (hr : e.HasRoom n) {rules : List Rule}
    (hlist : RuleStore.activeRules e.store none .schedule = .ok rules)
    (hnodup : (rules.map Rule.id).Nodup)
    (hrules : ∀ r, r ∈ rules ↔ rule? e.store r.id = some r ∧ r.active ∧
      r.trigger.kind = .schedule) :
    e.TickIsExact t ∧
      e.ContinuesTo (e.perform (.tick t)) True n used (readings ++ [t]) := by
  obtain ⟨due, jobs, e', htick, hn, hdue, hticked, hroom⟩ :=
    exists_ticked (e := { e with clock := t }) h.sound h.isOpen ht hn hr hlist hnodup hrules
  have he' : e.perform (.tick t) = e' := congrArg Prod.snd htick
  have h₀ : { e with clock := t }.Booked used readings :=
    ⟨h.sound, h.isOpen, h.noted, h.stored, h.ticked, h.ascending, h.floors⟩
  have hids := hticked.map_id_eq
  have hmem {r : Rule} {id : RuleId} (hr : rule? e.store id = some r) :=
    h₀.mem_due_iff hdue hr
  have hstored : ∀ r ∈ due, rule? e.store r.id = some r := fun r hr => ((hdue r).mp hr).1
  have hbefore : ∀ id ∈ due.map Rule.id, ∀ a ∈ e.ticks id, a.before t.floorMinute := by
    intro id hid
    obtain ⟨r, hr, rfl⟩ := List.mem_map.mp hid
    exact ((hmem (hstored r hr)).mp hid).2.2
  rw [he']
  refine ⟨⟨jobs, ?_, ?_, hids ▸ hn, fun j hj => ?_, fun id r hr => ?_⟩,
    h₀.of_ticked ht hstored hbefore hn hticked, hroom, fun id => ?_,
    fun _ hreadable => hticked.isReadable hreadable⟩
  · rw [htick, ← hticked.rules, List.length_map]
  · rw [he', hticked.queue]
  · have hj' : j.rule ∈ due := hticked.rules ▸ List.mem_map_of_mem hj
    obtain ⟨k, hk⟩ := hticked.job j hj
    refine ⟨(RuleTable.ruleById_eq_some_iff h.sound).mpr (hstored _ hj'), ?_⟩
    rw [hk]
    rfl
  · have hm := hmem ((RuleTable.ruleById_eq_some_iff h.sound).mp hr)
    rw [← hids, List.mem_map] at hm
    exact hm
  · rcases hticked.due_or_same hn id with ⟨-, hticks, -⟩ | ⟨hticks, -⟩
    · exact hticks ▸ List.prefix_append (e.ticks id) [t.floorMinute]
    · exact hticks ▸ List.prefix_rfl

/-- A tick at a reading is exact, or it is refused since the store cannot be read, and it keeps the
books. -/
theorem Booked.tick (h : e.Booked used readings) {t : Timestamp} (ht : t.IsReading) {n : Nat}
    (hn : (e.perform (.tick t)).issued ≤ n) (hr : e.HasRoom n) :
    (e.TickIsExact t ∨ e.TickIsRefused t ∧ ¬IsReadable e.store) ∧
      e.ContinuesTo (e.perform (.tick t)) True n used (readings ++ [t]) := by
  rcases RuleTable.activeRules_cases h.sound .schedule with
    ⟨rules, hlist, hnodup, hmem⟩ | ⟨hfault, hunreadable⟩
  · exact (h.tick_of_listed ht hn hr hlist hnodup hmem).imp_left .inl
  · have htick : { e with clock := t }.tick = (.error .storage, { e with clock := t }) :=
      tick_of_error hfault
    have hperform : e.perform (.tick t) = { e with clock := t } := congrArg Prod.snd htick
    refine ⟨.inr ⟨⟨hfault, htick⟩, hunreadable⟩, ?_⟩
    rw [hperform]
    have hbooked := h.mono (List.Subset.refl used) (List.subset_append_left readings [t])
    exact ⟨⟨hbooked.sound, hbooked.isOpen, hbooked.noted, hbooked.stored, hbooked.ticked,
      hbooked.ascending, hbooked.floors⟩, hr, fun _ => List.prefix_rfl, fun _ hs => hs⟩

end Engine

end RuleEngine
