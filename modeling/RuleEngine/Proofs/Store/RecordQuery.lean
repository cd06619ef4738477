import RuleEngine.Proofs.Store.LogRefinement
import RuleEngine.Proofs.Store.RuleTable
import RuleEngine.Service.Executions

/-!
# Queries on the log of a database

Whatever was appended, updated and abandoned, the rows of a database are those of records under
distinct identifiers, as they are kept. A filter is a test on columns there and a test on records in
memory: times are compared as texts there, but the texts of years of four digits are in the order of
the instants, and a bound that is exact to the microsecond does not fall between a start and what is
kept of it. The text of every other year starts with a sign, which comes before all digits. So the
two filters agree up to bounds after the year 9999, which as texts are before all starts. A query
finds the records that pass the filter, the latest start first, up to the limit. It is refused if one
of the records that it would answer with is nested too deep to be read, which is also what the
question for that record meets with.

## Main definitions

* `ExecutionRecord.IsDated`, `ExecutionRecord.isReadable`: the two halves of being storable.
* `Database.Holds`: the records of a database, as they are kept.
* `ExecutionQuery.inColumns`: a query as the texts of its bounds are compared.
* `ExecutionQuery.Finds`: what a query finds among records.

## Main results

* `Database.Holds.perform`: calls of the log keep to rows of records.
* `ExecutionRow.accepted_ofRecord`: the filter on rows is the filter on records, with the bounds as
  they are compared.
* `queryRecords_performAll`: what queries answer after calls of the log.
-/

namespace RuleEngine

open ExecutionLog

/-! ### Records as they are kept -/

namespace ExecutionRecord

/-- Whether a record can be kept in all but the depth of its lists: its years have four digits, and
the orders of its steps fit 32 bits. -/
structure IsDated (r : ExecutionRecord) : Prop where
  tick : ∀ t, r.trigger = .schedule t → t.HasFourDigitYear
  stepOrder : ∀ s ∈ r.steps, s.order < wordBound
  stepTimes : ∀ s ∈ r.steps, s.startedAt.HasFourDigitYear ∧ s.finishedAt.HasFourDigitYear
  delayedUntil : ∀ t, r.delayedUntil = some t → t.HasFourDigitYear
  startedAt : r.startedAt.HasFourDigitYear
  finishedAt : ∀ t, r.finishedAt = some t → t.HasFourDigitYear

/-- Whether the lists of a record are not nested too deep for their columns to be read. -/
def isReadable (r : ExecutionRecord) : Bool :=
  (Json.arr (r.conditions.map ConditionResult.toJson)).depth ≤ Json.depthLimit &&
    (Json.arr (r.steps.map ActionStep.toJson)).depth ≤ Json.depthLimit

/-- The record with the parts of another one that a new version changes. -/
def revised (r v : ExecutionRecord) : ExecutionRecord :=
  { r with
    status := v.status
    conditions := v.conditions
    steps := v.steps
    error := v.error
    delayedUntil := v.delayedUntil
    finishedAt := v.finishedAt }

variable {r v : ExecutionRecord} {now : Timestamp}

theorem IsDated.isStorable (h : r.IsDated) (hr : r.isReadable = true) : r.IsStorable := by
  simp only [isReadable, Bool.and_eq_true, decide_eq_true_eq] at hr
  exact ⟨h.tick, hr.1, hr.2, h.stepOrder, h.stepTimes, h.delayedUntil, h.startedAt, h.finishedAt⟩

theorem IsDated.kept (h : r.IsDated) : r.kept.IsDated := by
  have htrunc {o : Option Timestamp} (ho : ∀ t, o = some t → t.HasFourDigitYear) (t : Timestamp)
      (ht : o.map Timestamp.truncMicros = some t) : t.HasFourDigitYear := by
    obtain ⟨i, hi, rfl⟩ := Option.map_eq_some_iff.mp ht
    exact (ho i hi).truncMicros
  exact ⟨h.tick, h.stepOrder, h.stepTimes, htrunc h.delayedUntil, h.startedAt.truncMicros,
    htrunc h.finishedAt⟩

theorem IsDated.revised (h : r.IsDated) (hv : v.IsDated) : (r.revised v).IsDated :=
  ⟨h.tick, hv.stepOrder, hv.stepTimes, hv.delayedUntil, h.startedAt, hv.finishedAt⟩

theorem IsDated.abandon (h : r.IsDated) (hn : now.HasFourDigitYear) :
    (MemoryStore.abandon now r).IsDated := by
  by_cases ht : r.isTerminal
  · rw [abandon_of_isTerminal ht]
    exact h
  · rw [abandon_of_not_isTerminal ht]
    refine ⟨h.tick, h.stepOrder, h.stepTimes, ?_, h.startedAt, ?_⟩
    · intro t ht
      cases ht
    · intro t ht
      cases ht
      exact hn

theorem kept_kept (r : ExecutionRecord) : r.kept.kept = r.kept := by
  simp [kept, Option.map_map, Function.comp_def, Timestamp.truncMicros_truncMicros]

end ExecutionRecord

namespace ExecutionRow

variable {r v : ExecutionRecord}

/-- The row of a record is that of the record as it is kept. -/
theorem ofRecord_kept (r : ExecutionRecord) : ofRecord r.kept = ofRecord r := by
  simp [ofRecord, ExecutionRecord.kept, Option.map_map, Function.comp_def,
    Column.ofInstant_truncMicros]

theorem revise_ofRecord_revised (r v : ExecutionRecord) :
    (ofRecord r).revise v = ofRecord (r.revised v) := rfl

/-- A record as it is kept is read from its row, or is nested too deep. -/
theorem read_ofRecord_of_isDated (h : r.IsDated) (hk : r.kept = r) :
    (ofRecord r).read = if r.isReadable then .ok r else .error .storage := by
  cases hr : r.isReadable with
  | true => rw [if_pos rfl, read_ofRecord (h.isStorable hr), hk]
  | false =>
    have ht := (Column.structured_ofJson_eq_ok_iff r.trigger.isWritable_toJson).mpr
      ⟨r.trigger.depth_toJson, r.trigger.ofJson?_toJson⟩
    have hc (hd : (Json.arr (r.conditions.map ConditionResult.toJson)).depth ≤ Json.depthLimit) :=
      Column.structured_list hd (fun c _ => c.isWritable_toJson) fun c _ => c.ofJson?_toJson
    have hkind := Column.tag_eq_ok_iff.mpr r.triggerKind.lookup_name
    have hstatus := Column.tag_eq_ok_iff.mpr r.status.lookup_name
    unfold read
    simp only [ofRecord, ht, hkind, hstatus]
    simp only [ExecutionRecord.isReadable, Bool.and_eq_false_iff, decide_eq_false_iff_not] at hr
    by_cases hcd : (Json.arr (r.conditions.map ConditionResult.toJson)).depth ≤ Json.depthLimit
    · rw [hc hcd, Column.structured_ofJson_of_depth (hr.resolve_left (not_not_intro hcd))]
      rfl
    · rw [Column.structured_ofJson_of_depth hcd]
      rfl

/-- Records as they are kept are read from their rows, unless one of them is nested too deep. -/
theorem mapM_read_ofRecord {found : List ExecutionRecord} (h : ∀ r ∈ found, r.IsDated)
    (hk : ∀ r ∈ found, r.kept = r) : (found.map ofRecord).mapM read =
      if found.all (·.isReadable) then .ok found else .error .storage := by
  induction found with
  | nil => rfl
  | cons r rest ih =>
    obtain ⟨hr, hrest⟩ := List.forall_mem_cons.mp h
    obtain ⟨hkr, hkrest⟩ := List.forall_mem_cons.mp hk
    rw [List.map_cons, List.mapM_cons, read_ofRecord_of_isDated hr hkr, ih hrest hkrest,
      List.all_cons]
    cases r.isReadable <;> cases rest.all (·.isReadable) <;> rfl

end ExecutionRow

/-! ### The records of a database -/

/-- Whether the rows of an open database are those of records under distinct identifiers, as they
are kept. -/
structure Database.Holds (d : Database) (stored : List ExecutionRecord) : Prop where
  isOpen : d.isOpen
  executions : d.executions = stored.map ExecutionRow.ofRecord
  nodup : (stored.map ExecutionRecord.id).Nodup
  dated : ∀ r ∈ stored, r.IsDated
  kept : ∀ r ∈ stored, r.kept = r

/-- Whether the times of a call can be kept. -/
def LogCall.IsDated : LogCall → Prop
  | .append r | .update r => r.IsDated
  | .find _ => True
  | .abandon now => now.HasFourDigitYear

namespace Database.Holds

variable {d : Database} {stored : List ExecutionRecord} {r : ExecutionRecord}

theorem answer_eq {α : Type} (h : d.Holds stored) (a : Except EngineError α) : d.answer a = a :=
  if_pos h.isOpen

theorem row_eq (h : d.Holds stored) (id : ExecutionId) :
    d.executions.find? (fun row => row.id == id) =
      (stored.find? fun r => r.id = id).map ExecutionRow.ofRecord := by
  rw [h.executions, List.find?_map]
  congr 2

/-- Rows that are changed as records are stay rows of records. -/
theorem map (h : d.Holds stored) {f : ExecutionRecord → ExecutionRecord}
    {g : ExecutionRow → ExecutionRow}
    (hg : ∀ r, g (ExecutionRow.ofRecord r) = ExecutionRow.ofRecord (f r))
    (hid : ∀ r, (f r).id = r.id) (hd : ∀ r, r.IsDated → (f r).IsDated) :
    { d with executions := d.executions.map g }.Holds (stored.map fun r => (f r).kept) where
  isOpen := h.isOpen
  executions := by
    change d.executions.map g = _
    rw [h.executions, List.map_map, List.map_map]
    refine List.map_congr_left fun r _ => ?_
    rw [Function.comp, Function.comp, hg, ExecutionRow.ofRecord_kept]
  nodup := by
    have hcomp : (ExecutionRecord.id ∘ fun r => (f r).kept) = ExecutionRecord.id := funext hid
    rw [List.map_map, hcomp]
    exact h.nodup
  dated r' hr' := by
    obtain ⟨r, hr, rfl⟩ := List.mem_map.mp hr'
    exact (hd r (h.dated r hr)).kept
  kept r' hr' := by
    obtain ⟨r, -, rfl⟩ := List.mem_map.mp hr'
    exact (f r).kept_kept

/-- An appended record is added as it is kept, unless its identifier is in use. -/
theorem insertRecord (h : d.Holds stored) (hr : r.IsDated) {d' : Database}
    (hw : d.insertRecord r = .ok d') : d'.Holds (stored ++ [r.kept]) := by
  obtain ⟨hfree, rfl⟩ := insertRecord_eq_ok_iff.mp hw
  have hid : r.id ∉ stored.map ExecutionRecord.id := by
    intro hm
    obtain ⟨b, hb, hbid⟩ := List.mem_map.mp hm
    refine hfree (.ofRecord b) ?_ hbid
    rw [h.executions]
    exact List.mem_map_of_mem hb
  refine ⟨h.isOpen, ?_, ?_, ?_, ?_⟩
  · rw [List.map_append, ← h.executions, List.map_singleton, ExecutionRow.ofRecord_kept]
  · rw [List.map_append, List.nodup_append]
    refine ⟨h.nodup, List.pairwise_singleton _ _, fun a ha b hb hab => hid ?_⟩
    obtain rfl : b = r.id := List.mem_singleton.mp hb
    exact hab ▸ ha
  · exact List.forall_mem_append.mpr ⟨h.dated, by simpa using hr.kept⟩
  · exact List.forall_mem_append.mpr ⟨h.kept, by simpa using r.kept_kept⟩

/-- A new version changes the record under its identifier, if it has not ended. -/
theorem reviseRecord (h : d.Holds stored) (hr : r.IsDated) {d' : Database}
    (hw : d.reviseRecord r = .ok d') : ∃ stored', d'.Holds stored' := by
  obtain ⟨-, -, -, rfl⟩ := reviseRecord_eq_ok_iff.mp hw
  refine ⟨_, h.map (f := fun b => if b.id = r.id then b.revised r else b) (fun b => ?_)
    (fun b => ?_) fun b hb => ?_⟩
  · by_cases hid : b.id = r.id
    · rw [if_pos hid, if_pos (show (ExecutionRow.ofRecord b).id = r.id from hid),
        ExecutionRow.revise_ofRecord_revised]
    · rw [if_neg hid, if_neg (show ¬(ExecutionRow.ofRecord b).id = r.id from hid)]
  · split <;> rfl
  · split
    · exact hb.revised hr
    · exact hb

/-- A call of the log keeps to rows of records. -/
theorem perform (h : d.Holds stored) {c : LogCall} (hc : c.IsDated) :
    ∃ stored', (ExecutionLog.perform d c).2.Holds stored' := by
  cases c with
  | append r =>
    change ∃ stored', (settle d ((d.answer (d.insertRecord r)).map _)).2.Holds stored'
    rw [h.answer_eq]
    cases hw : d.insertRecord r with
    | error e => exact ⟨stored, h⟩
    | ok d' => exact ⟨_, h.insertRecord hc hw⟩
  | update r =>
    change ∃ stored', (settle d ((d.answer (d.reviseRecord r)).map _)).2.Holds stored'
    rw [h.answer_eq]
    cases hw : d.reviseRecord r with
    | error e => exact ⟨stored, h⟩
    | ok d' => exact h.reviseRecord hc hw
  | find id =>
    rw [ExecutionLog.perform]
    cases recordById d id <;> exact ⟨stored, h⟩
  | abandon now =>
    change ∃ stored', (settle d ((d.answer (.ok (_, { d with
      executions := d.executions.map (ExecutionRow.abandon now) }))).map _)).2.Holds stored'
    rw [h.answer_eq]
    exact ⟨_, h.map (fun r => ExecutionRow.abandon_ofRecord)
      (fun r => ExecutionRecord.sameOrigin_abandon.id) fun r hr => hr.abandon hc⟩

/-- Calls of the log keep to rows of records. -/
theorem performAll (h : d.Holds stored) {calls : List LogCall} (hc : ∀ c ∈ calls, c.IsDated) :
    ∃ stored', (ExecutionLog.performAll d calls).2.Holds stored' := by
  induction calls generalizing d stored with
  | nil => exact ⟨stored, h⟩
  | cons c rest ih =>
    obtain ⟨hfirst, hrest⟩ := List.forall_mem_cons.mp hc
    obtain ⟨stored', h'⟩ := h.perform hfirst
    exact ih h' hrest

/-- A record is read under its identifier, or is nested too deep. -/
theorem recordById_eq (h : d.Holds stored) (hr : r ∈ stored) :
    recordById d r.id = if r.isReadable then .ok (some r) else .error .storage := by
  have hfind : stored.find? (fun b => b.id = r.id) = some r :=
    (find?_key_eq_some_iff h.nodup).mpr ⟨hr, rfl⟩
  change d.answer ((d.executions.find? _).mapM ExecutionRow.read) = _
  rw [h.answer_eq, h.row_eq, hfind, Option.map_some, Option.mapM_some,
    ExecutionRow.read_ofRecord_of_isDated (h.dated r hr) (h.kept r hr)]
  cases r.isReadable <;> rfl

theorem recordById_of_not_mem (h : d.Holds stored) {id : ExecutionId}
    (hid : id ∉ stored.map ExecutionRecord.id) : recordById d id = .ok none := by
  have hfind : stored.find? (fun b => b.id = id) = none := by
    simpa [List.find?_eq_none] using hid
  change d.answer ((d.executions.find? _).mapM ExecutionRow.read) = _
  rw [h.answer_eq, h.row_eq, hfind]
  rfl

end Database.Holds

/-! ### Filters -/

namespace Column

/-- An instant before the year 0. -/
def beforeChrist : Timestamp := (Timestamp.of? (-62167219201) 0).getD .epoch

/-- The place of an instant among the years of four digits as its column has it. A year after 9999
is written with a sign, and so it is as low there as a year before 0. -/
def compared (t : Timestamp) : Timestamp := if t.date.year ≤ 9999 then t else beforeChrist

/-- A start is compared with a bound that is exact to the microsecond by what the bound is compared
as. -/
theorem ofInstant_lt_iff_compared {start t : Timestamp} (hs : start.HasFourDigitYear)
    (hk : start.truncMicros = start) (ht : t.truncMicros = t) :
    ofInstant start < ofInstant t ↔ start.before (compared t) := by
  by_cases hyear : t.HasFourDigitYear
  · rw [ofInstant_lt_iff hs hyear, hk, ht, compared, if_pos hyear.2]
  · have hlow : (compared t).date.year < 0 := by
      unfold compared
      split
      · next hle => exact lt_of_not_ge fun hge => hyear ⟨hge, hle⟩
      · decide +kernel
    have hbefore : (compared t).before start := Timestamp.before_of_year_lt (hlow.trans_le hs.1)
    have hlt : ofInstant t < ofInstant start := ofInstant_lt_of_sign hyear hs
    refine iff_of_false (String.lt_asymm hlt) fun hafter => ?_
    exact Timestamp.not_before_self (Timestamp.before_trans hbefore hafter)

end Column

namespace ExecutionQuery

variable {q : ExecutionQuery} {r : ExecutionRecord}

/-- Whether an instant is a bound of a filter. -/
def IsBound (q : ExecutionQuery) (t : Timestamp) : Prop :=
  q.since = some t ∨ q.endBefore = some t

/-- Whether the bounds of a filter are exact to the microsecond. -/
def IsExact (q : ExecutionQuery) : Prop := ∀ t, q.IsBound t → t.truncMicros = t

/-- The filter with its bounds as they are compared in columns. -/
def inColumns (q : ExecutionQuery) : ExecutionQuery :=
  { q with
    since := q.since.map Column.compared
    endBefore := q.endBefore.map Column.compared }

/-- A filter is compared as it is if no bound is after the year 9999. -/
theorem inColumns_eq_self (h : ∀ t, q.IsBound t → t.date.year ≤ 9999) : q.inColumns = q := by
  have hmap {o : Option Timestamp} (ho : ∀ t, o = some t → t.date.year ≤ 9999) :
      o.map Column.compared = o := by
    cases o with
    | none => rfl
    | some t => exact congrArg some (if_pos (ho t rfl))
  rw [inColumns, hmap fun t ht => h t (.inl ht), hmap fun t ht => h t (.inr ht)]

theorem demand_map {α β : Type} {d : Option α} {f : α → β} {test : β → Bool} :
    demand (d.map f) test = demand d (test ∘ f) := by
  cases d <;> rfl

theorem demand_congr {α : Type} {d : Option α} {test test' : α → Bool}
    (h : ∀ a, d = some a → test a = test' a) : demand d test = demand d test' := by
  cases d with
  | none => rfl
  | some a => exact h a rfl

theorem accepts_eq_false_of_schedule {tick : Timestamp} (hr : r.trigger = .schedule tick)
    (hq : q.subjectType.isSome = true ∨ q.subjectId.isSome = true) : q.accepts r = false := by
  rcases hq with hq | hq
  all_goals
    obtain ⟨subject, hs⟩ := Option.isSome_iff_exists.mp hq
    simp [accepts, hr, hs, demand]

theorem cut_map {α β : Type} (q : ExecutionQuery) (f : α → β) (l : List α) :
    q.cut (l.map f) = (q.cut l).map f := by
  unfold cut
  split
  · rfl
  · exact List.map_take.symm

theorem cut_prefix {α : Type} (q : ExecutionQuery) (l : List α) : q.cut l <+: l := by
  unfold cut
  split
  · exact List.prefix_rfl
  · exact List.take_prefix _ _

theorem length_cut {α : Type} (q : ExecutionQuery) (l : List α) :
    (q.cut l).length = match q.limit with
      | none => l.length
      | some n => min n l.length := by
  unfold cut
  cases q.limit with
  | none => rfl
  | some n => exact List.length_take

/-- What a query finds among records under distinct identifiers: records that pass the filter, each
once, the latest start first, as many as there are up to the limit. What the limit leaves out starts
no later than what is found. The scheduler's records have no subject to ask for. -/
structure Finds (q : ExecutionQuery) (stored found : List ExecutionRecord) : Prop where
  nodup : (found.map ExecutionRecord.id).Nodup
  mem : ∀ r ∈ found, r ∈ stored ∧ q.accepts r = true
  newestFirst : found.Pairwise fun a b => b.startedAt.notAfter a.startedAt = true
  omitted : ∀ r ∈ stored, q.accepts r = true → r ∉ found →
    ∀ a ∈ found, r.startedAt.notAfter a.startedAt = true
  length : found.length = match q.limit with
    | none => stored.countP q.accepts
    | some n => min n (stored.countP q.accepts)
  subject : (q.subjectType.isSome = true ∨ q.subjectId.isSome = true) →
    ∀ r ∈ found, ∀ tick, r.trigger ≠ .schedule tick

end ExecutionQuery

/-- A store in memory finds the records that a query asks for. -/
theorem MemoryStore.finds_query (m : MemoryStore) (h : (m.records.map ExecutionRecord.id).Nodup)
    (q : ExecutionQuery) : q.Finds m.records (m.query q) := by
  let newest := fun a b : ExecutionRecord => b.startedAt.notAfter a.startedAt
  let all := (m.records.filter q.accepts).mergeSort newest
  have hperm : all.Perm (m.records.filter q.accepts) := List.mergeSort_perm _ _
  have hmem {r : ExecutionRecord} : r ∈ all ↔ r ∈ m.records ∧ q.accepts r = true :=
    hperm.mem_iff.trans List.mem_filter
  have hsorted : all.Pairwise fun a b => newest a b = true := by
    refine List.pairwise_mergeSort (fun a b c hab hbc => ?_) (fun a b => ?_) _
    · simp only [newest, Timestamp.notAfter_iff, Timestamp.before_iff] at *
      omega
    · simp only [newest, Bool.or_eq_true, Timestamp.notAfter_iff, Timestamp.before_iff]
      omega
  have hnodup : (all.map ExecutionRecord.id).Nodup :=
    (hperm.map _).nodup_iff.mpr (h.sublist (List.filter_sublist.map _))
  obtain ⟨left, hleft⟩ : m.query q <+: all := q.cut_prefix all
  have hsub : (m.query q).Sublist all := hleft ▸ List.sublist_append_left _ _
  refine ⟨hnodup.sublist (hsub.map _), fun r hr => hmem.mp (hsub.subset hr), hsorted.sublist hsub,
    fun r hr ha hout a hin => ?_, ?_, fun hs r hr tick ht => ?_⟩
  · have hr : r ∈ left := by
      have := hmem.mpr ⟨hr, ha⟩
      rw [← hleft] at this
      exact (List.mem_append.mp this).resolve_left hout
    rw [← hleft] at hsorted
    exact (List.pairwise_append.mp hsorted).2.2 a hin r hr
  · rw [List.countP_eq_length_filter, ← hperm.length_eq]
    exact q.length_cut all
  · have := (hmem.mp (hsub.subset hr)).2
    rw [ExecutionQuery.accepts_eq_false_of_schedule ht hs] at this
    cases this

/-- The filter on rows is the filter on records with the bounds as they are compared, if the bounds
are exact to the microsecond. -/
theorem ExecutionRow.accepted_ofRecord {q : ExecutionQuery} {r : ExecutionRecord} (hq : q.IsExact)
    (hr : r.IsDated) (hk : r.kept = r) : accepted q (ofRecord r) = q.inColumns.accepts r := by
  have hstart : r.startedAt.truncMicros = r.startedAt := congrArg (·.startedAt) hk
  have hlt (t : Timestamp) (ht : q.IsBound t) :
      Column.ofInstant r.startedAt < Column.ofInstant t ↔
        r.startedAt.before (Column.compared t) :=
    Column.ofInstant_lt_iff_compared hr.startedAt hstart (hq t ht)
  have hsince (t : Timestamp) (ht : q.since = some t) :
      decide (Column.ofInstant t ≤ Column.ofInstant r.startedAt) =
        (Column.compared t).notAfter r.startedAt := by
    rw [Bool.eq_iff_iff, decide_eq_true_eq, ← String.not_lt, hlt t (.inl ht),
      Timestamp.notAfter_iff]
  have hend (t : Timestamp) (ht : q.endBefore = some t) :
      decide (Column.ofInstant r.startedAt < Column.ofInstant t) =
        r.startedAt.before (Column.compared t) := by
    rw [Bool.eq_iff_iff, decide_eq_true_eq, hlt t (.inr ht)]
  have hstatus (s : ExecutionStatus) : (s.name == r.status.name) = (s == r.status) := by
    rw [Bool.eq_iff_iff, beq_iff_eq, beq_iff_eq, ExecutionStatus.name_inj]
  unfold accepted ExecutionQuery.accepts ExecutionQuery.inColumns
  rw [ExecutionQuery.demand_map, ExecutionQuery.demand_map]
  refine congrArg₂ and (congrArg₂ and (congrArg₂ and (congrArg₂ and (congrArg₂ and rfl
    (ExecutionQuery.demand_congr fun s _ => hstatus s)) ?_) ?_)
    (ExecutionQuery.demand_congr hsince)) (ExecutionQuery.demand_congr hend)
  all_goals
    refine ExecutionQuery.demand_congr fun subject _ => ?_
    cases ht : r.trigger <;> simp [ofRecord, ht]

/-! ### Queries -/

namespace Database.Holds

variable {d : Database} {stored : List ExecutionRecord} {q : ExecutionQuery}

/-- The rows that a query selects are those of the records that it finds in memory. -/
theorem select_eq (h : d.Holds stored) (hq : q.IsExact) : d.select q =
    (({ records := stored } : MemoryStore).query q.inColumns).map ExecutionRow.ofRecord := by
  have hfilter : d.executions.filter (ExecutionRow.accepted q) =
      (stored.filter q.inColumns.accepts).map ExecutionRow.ofRecord := by
    rw [h.executions, List.filter_map]
    exact congrArg _ (List.filter_congr fun r hr =>
      ExecutionRow.accepted_ofRecord hq (h.dated r hr) (h.kept r hr))
  let later := fun a b : ExecutionRow => decide (b.startedAt ≤ a.startedAt)
  have horder : ∀ a ∈ stored.filter q.inColumns.accepts,
      ∀ b ∈ stored.filter q.inColumns.accepts,
      b.startedAt.notAfter a.startedAt =
        later (ExecutionRow.ofRecord a) (ExecutionRow.ofRecord b) := by
    intro a ha b hb
    have ha := (List.mem_filter.mp ha).1
    have hb := (List.mem_filter.mp hb).1
    have hka : a.startedAt.truncMicros = a.startedAt := congrArg (·.startedAt) (h.kept a ha)
    have hkb : b.startedAt.truncMicros = b.startedAt := congrArg (·.startedAt) (h.kept b hb)
    change _ = decide (Column.ofInstant b.startedAt ≤ Column.ofInstant a.startedAt)
    rw [Bool.eq_iff_iff, decide_eq_true_eq, ← String.not_lt,
      Column.ofInstant_lt_iff (h.dated a ha).startedAt (h.dated b hb).startedAt, hka, hkb,
      Timestamp.notAfter_iff]
  have hsort := List.map_mergeSort (s := later) (f := ExecutionRow.ofRecord) horder
  rw [Database.select, hfilter, MemoryStore.query, ← ExecutionQuery.cut_map, hsort]
  rfl

/-- A query answers with what it finds, or is refused since a part of that is nested too deep. -/
theorem exists_finds (h : d.Holds stored) (hq : q.IsExact) :
    ∃ found, q.inColumns.Finds stored found ∧ queryRecords d q =
      if found.all (·.isReadable) then .ok found else .error .storage := by
  have hfinds := ({ records := stored } : MemoryStore).finds_query h.nodup q.inColumns
  refine ⟨_, hfinds, ?_⟩
  change d.answer ((d.select q).mapM ExecutionRow.read) = _
  rw [h.answer_eq, h.select_eq hq]
  exact ExecutionRow.mapM_read_ofRecord (fun r hr => h.dated r (hfinds.mem r hr).1)
    fun r hr => h.kept r (hfinds.mem r hr).1

end Database.Holds

/-- Whatever calls of the log were made in a database without records, its records are under
distinct identifiers, and each is read under its own or is nested too deep. A query answers with the
records that pass its filter, the latest start first, up to its limit; it is refused if one of these
is nested too deep, and for no other reason. Its bounds are compared as columns, which is how they
are unless they are after the year 9999. So is a tenant's query, with the tenant in the place of the
one that it names. -/
theorem queryRecords_performAll {d : Database} {calls : List LogCall} (hd : d.isOpen)
    (he : d.executions = []) (hc : ∀ c ∈ calls, c.IsDated) :
    ∃ stored, (performAll d calls).2.Holds stored ∧
      (∀ r ∈ stored, recordById (performAll d calls).2 r.id =
        if r.isReadable then .ok (some r) else .error .storage) ∧
      (∀ id, id ∉ stored.map ExecutionRecord.id →
        recordById (performAll d calls).2 id = .ok none) ∧
      ∀ q : ExecutionQuery, q.IsExact →
        ((∀ t, q.IsBound t → t.date.year ≤ 9999) → q.inColumns = q) ∧
        (∃ found, q.inColumns.Finds stored found ∧ queryRecords (performAll d calls).2 q =
          if found.all (·.isReadable) then .ok found else .error .storage) ∧
        ∀ tenant, ∃ found, { q.inColumns with tenant := some tenant }.Finds stored found ∧
          ExecutionService.list (performAll d calls).2 tenant q =
            if found.all (·.isReadable) then .ok found else .error .storage := by
  have hempty : d.Holds [] := by
    refine ⟨hd, he, List.nodup_nil, ?_, ?_⟩
    all_goals
      intro r hr
      cases hr
  obtain ⟨stored, h⟩ := hempty.performAll hc
  exact ⟨stored, h, fun r hr => h.recordById_eq hr, fun id hid => h.recordById_of_not_mem hid,
    fun q hq => ⟨ExecutionQuery.inColumns_eq_self, h.exists_finds hq, fun tenant =>
      h.exists_finds (q := { q with tenant := some tenant }) hq⟩⟩

namespace Sample

/-- What is asked for: an abandoned record since 1970. -/
def abandonedQuery : ExecutionQuery :=
  { status := some .abandoned, since := some .epoch, limit := some 1 }

/-- What is asked for: the records before the year 10000. -/
def lateQuery : ExecutionQuery := { endBefore := some tenthMillennium }

end Sample

/-- The log of an execution that is abandoned is asked for the abandoned records since 1970, and has
one. It has none before the year 10000, although this record passes. -/
theorem queryRecords_performAll_logCalls :
    ∃ stored found, (performAll ({} : Database) Sample.logCalls).2.Holds stored ∧
      Sample.abandonedQuery.Finds stored found ∧
      queryRecords (performAll ({} : Database) Sample.logCalls).2 Sample.abandonedQuery =
        .ok found ∧
      found.map (fun r => (r.status, Sample.lateQuery.accepts r)) = [(.abandoned, true)] ∧
      (queryRecords (performAll ({} : Database) Sample.logCalls).2 Sample.lateQuery).map
        List.length = .ok 0 := by
  have hepoch : Timestamp.epoch.HasFourDigitYear := by decide +kernel
  have hstart : Sample.startedRecord.startedAt.HasFourDigitYear := by decide +kernel
  have hr (status : ExecutionStatus) : { Sample.startedRecord with status }.IsDated := by
    refine ⟨?_, ?_, ?_, ?_, hstart, ?_⟩
    all_goals
      intro _ h
      cases h
  have hcalls : ∀ c ∈ Sample.logCalls, c.IsDated := by
    simp only [Sample.logCalls, List.forall_mem_cons]
    exact ⟨hr .pending, hr .evaluating, hepoch, hr .completed, trivial, fun _ h => nomatch h⟩
  have hexact : Sample.abandonedQuery.IsExact := by
    rintro t (ht | ht)
    · obtain rfl := Option.some.inj ht
      decide
    · cases ht
  have hanswer : (queryRecords (performAll ({} : Database) Sample.logCalls).2
      Sample.abandonedQuery).map (List.map fun r => (r.status, Sample.lateQuery.accepts r)) =
        .ok [(.abandoned, true)] := by
    decide +kernel
  obtain ⟨stored, hholds, -, -, hquery⟩ :=
    queryRecords_performAll (d := ({} : Database)) rfl rfl hcalls
  obtain ⟨-, ⟨found, hfinds, hfound⟩, -⟩ := hquery _ hexact
  rw [hfound] at hanswer
  split at hanswer
  · next hreadable =>
    rw [if_pos hreadable] at hfound
    exact ⟨stored, found, hholds, hfinds, hfound, Except.ok.inj hanswer, by decide +kernel⟩
  · cases hanswer

end RuleEngine
