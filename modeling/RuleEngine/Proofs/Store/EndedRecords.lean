import Mathlib.Logic.Relation
import RuleEngine.Proofs.Run.History
import RuleEngine.Proofs.Store.LogRefinement

/-!
# Records that have ended

Several runs may be on their way over one log, some of them of the same job, and each holds a copy
of its record that the others do not see. The log may also be told to abandon what is open, and be
given new records. What protects a record that has ended is the guard of the log alone: a version of
it is refused whatever the run believes its status to be, and the refusal names the status in the
log. No other call reaches the record, since it is found under its own identifier only, and since
to abandon leaves it as it is. So it is final, in memory as in a database.

## Main definitions

* `EndedFinal`: the records that have ended in one log are final in another one.
* `EndingLog`: a log that guards the records that have ended.
* `LogActivity.Turn`: one call of a log, by a run or by somebody else, whoever is on the way.

## Main results

* `endedFinal_of_turns`: records that have ended are final in a log that guards them.
* `MemoryStore.endingLog`, `Database.endingLog`: both stores do.
* `ended_records_final`: records that have ended are final in both stores.
-/

namespace RuleEngine

open ExecutionLog

/-! ### Logs that guard what has ended -/

section

variable {σ : Type} [ExecutionLog σ]

/-- Whether the records that have ended in one log are final in another one: each is found there as
it is, and every new version is refused with its status. -/
def EndedFinal (s s' : σ) : Prop :=
  ∀ id r, recordById s id = .ok (some r) → r.isTerminal = true →
    recordById s' id = .ok (some r) ∧
      ∀ v : ExecutionRecord, v.id = id →
        updateRecord s' v = .error (.transition ⟨r.status, v.status⟩)

end

/-- A log that refuses new versions of records that have ended, and whose other calls leave these
records as they are. -/
class EndingLog (σ : Type) [ExecutionLog σ] : Prop where
  /-- A new version of a record that has ended is refused. -/
  update_ended {s : σ} {r v : ExecutionRecord} (h : recordById s v.id = .ok (some r))
    (ht : r.isTerminal = true) : updateRecord s v = .error (.transition ⟨r.status, v.status⟩)
  /-- A new version is of the record under its identifier only. -/
  update_other {s s' : σ} {id : ExecutionId} {r v : ExecutionRecord}
    (h : recordById s id = .ok (some r)) (hw : updateRecord s v = .ok s') (hid : v.id ≠ id) :
    recordById s' id = .ok (some r)
  /-- A new record leaves those under other identifiers as they are. -/
  append_other {s s' : σ} {id : ExecutionId} {r v : ExecutionRecord}
    (h : recordById s id = .ok (some r)) (hw : appendRecord s v = .ok s') (hid : v.id ≠ id) :
    recordById s' id = .ok (some r)
  /-- A record that has ended is not abandoned. -/
  abandon_ended {s s' : σ} {id : ExecutionId} {r : ExecutionRecord} {now : Timestamp} {n : Nat}
    (h : recordById s id = .ok (some r)) (ht : r.isTerminal = true)
    (hw : abandonOpen s now = .ok (n, s')) : recordById s' id = .ok (some r)

section

variable {σ : Type} [ExecutionLog σ]

/-- Whether every record that has ended in one log is found in another one as it is. -/
def KeepsEnded (s s' : σ) : Prop :=
  ∀ id r, recordById s id = .ok (some r) → r.isTerminal = true → recordById s' id = .ok (some r)

variable {s s' : σ}

theorem KeepsEnded.refl (s : σ) : KeepsEnded s s := fun _ _ h _ => h

theorem KeepsEnded.trans {s'' : σ} (h : KeepsEnded s s') (h' : KeepsEnded s' s'') :
    KeepsEnded s s'' :=
  fun id r hr ht => h' id r (h id r hr ht) ht

variable [EndingLog σ]

theorem KeepsEnded.endedFinal (h : KeepsEnded s s') : EndedFinal s s' := by
  intro id r hr ht
  have hr' := h id r hr ht
  refine ⟨hr', ?_⟩
  rintro v rfl
  exact EndingLog.update_ended hr' ht

theorem keepsEnded_update {v : ExecutionRecord} (hw : updateRecord s v = .ok s') :
    KeepsEnded s s' := by
  intro id r hr ht
  by_cases hid : v.id = id
  · subst hid
    cases hw.symm.trans (EndingLog.update_ended hr ht)
  · exact EndingLog.update_other hr hw hid

theorem keepsEnded_append {v : ExecutionRecord} (hf : recordById s v.id = .ok none)
    (hw : appendRecord s v = .ok s') : KeepsEnded s s' := by
  intro id r hr ht
  refine EndingLog.append_other hr hw ?_
  rintro rfl
  cases hf.symm.trans hr

/-- A step of a run keeps the records that have ended, its own one included. -/
theorem keepsEnded_stepRun (e : Engine σ) (r : Run) : KeepsEnded e.store (e.stepRun r).2.store := by
  have hstep := e.runStep_stepRun r
  generalize e.observe r = events, (e.stepRun r).1 = p, (e.stepRun r).2 = e' at hstep
  cases hstep with
  | wrote hw ho => exact keepsEnded_update ho
  | carried a t now rest o hs hc hstore hi => exact hstore ▸ .refl e.store
  | refused | unsteady | outOfTime | judged => exact .refl e.store

end

/-! ### Interleavings -/

/-- A log and the runs that are on their way over it. -/
structure LogActivity (σ : Type) where
  store : σ
  runs : List Run

namespace LogActivity

/-- One turn of what happens over a log. The run of any job begins, also of one that is being run; a
run makes its next step in an engine of its own, which is one call of the log at most; a record is
appended under a fresh identifier; or everything open is abandoned. -/
inductive Turn {σ : Type} [ExecutionLog σ] : LogActivity σ → LogActivity σ → Prop
  | begins {j : Job} {r : Run} (store : σ) (runs : List Run) (hj : Run.ofJob j = .ok r) :
      Turn ⟨store, runs⟩ ⟨store, runs ++ [r]⟩
  | goesOn {r r' : Run} (e : Engine σ) (before after : List Run)
      (h : (e.stepRun r).1 = .going r') :
      Turn ⟨e.store, before ++ r :: after⟩ ⟨(e.stepRun r).2.store, before ++ r' :: after⟩
  | ends {r : Run} {ending : RunEnding} (e : Engine σ) (before after : List Run)
      (h : (e.stepRun r).1 = .ended ending) :
      Turn ⟨e.store, before ++ r :: after⟩ ⟨(e.stepRun r).2.store, before ++ after⟩
  | appends {store store' : σ} {r : ExecutionRecord} (runs : List Run)
      (hf : recordById store r.id = .ok none) (hw : appendRecord store r = .ok store') :
      Turn ⟨store, runs⟩ ⟨store', runs⟩
  | abandons {store store' : σ} {now : Timestamp} {n : Nat} (runs : List Run)
      (hw : abandonOpen store now = .ok (n, store')) :
      Turn ⟨store, runs⟩ ⟨store', runs⟩

variable {σ : Type} [ExecutionLog σ] [EndingLog σ] {s s' : LogActivity σ}

/-- Every turn keeps the records that have ended. -/
theorem Turn.keepsEnded (h : Turn s s') : KeepsEnded s.store s'.store := by
  cases h with
  | begins store runs hj => exact .refl store
  | goesOn e before after h | ends e before after h => exact keepsEnded_stepRun e _
  | appends runs hf hw => exact keepsEnded_append hf hw
  | abandons runs hw => exact fun id r hr ht => EndingLog.abandon_ended hr ht hw

/-- Records that have ended are final, whatever turns follow. -/
theorem endedFinal_of_turns (h : Relation.ReflTransGen Turn s s') :
    EndedFinal s.store s'.store := by
  refine KeepsEnded.endedFinal ?_
  induction h with
  | refl => exact .refl s.store
  | tail _ hturn ih => exact ih.trans hturn.keepsEnded

end LogActivity

/-! ### The store in memory -/

namespace MemoryStore

variable {m : MemoryStore} {id : ExecutionId} {r : ExecutionRecord}

theorem recordById_eq_ok_iff : recordById m id = .ok (some r) ↔ m.findRecord id = some r :=
  ⟨Except.ok.inj, congrArg Except.ok⟩

instance endingLog : EndingLog MemoryStore where
  update_ended {m r v} h ht := m.updateRecord_of_isTerminal (recordById_eq_ok_iff.mp h) ht
  update_other {m m' id r v} h hw hid := by
    rw [recordById_eq_ok_iff] at h ⊢
    rw [update_eq_ok hw, findRecord_putRecord, if_neg (Ne.symm hid), h]
  append_other {m m' id r v} h hw hid := by
    rw [recordById_eq_ok_iff] at h ⊢
    cases hw
    rw [findRecord_putRecord, if_neg (Ne.symm hid), h]
  abandon_ended {m m' id r now n} h ht hw := by
    rw [recordById_eq_ok_iff] at h ⊢
    cases hw
    exact ((m.abandons now id).2 r h).1 ht

end MemoryStore

/-! ### The store of a database -/

/-- A row has the name of the status of the record that is read from it. -/
theorem ExecutionRow.status_of_read {row : ExecutionRow} {r : ExecutionRecord}
    (h : row.read = .ok r) : row.status = r.status.name := by
  unfold read at h
  simp only [bind, Except.bind] at h
  repeat' split at h
  all_goals cases h
  exact ExecutionStatus.lookup_eq_some_iff.mp
    (Column.tag_eq_ok_iff.mp ‹Column.tag ExecutionStatus.names row.status = .ok _›)

/-- A row is written to as long as the record that is read from it has not ended. -/
theorem ExecutionRow.isOpen_of_read {row : ExecutionRow} {r : ExecutionRecord}
    (h : row.read = .ok r) : row.isOpen = !r.isTerminal := by
  rw [isOpen, status_of_read h, ExecutionStatus.contains_closedTags]
  rfl

namespace Database

variable {d d' : Database} {id : ExecutionId} {r v : ExecutionRecord}

/-- A record is found if the database is open, and if it is read from the row under its
identifier. -/
theorem recordById_eq_ok_iff : recordById d id = .ok (some r) ↔ d.isOpen = true ∧
    ∃ row, d.executionRow? id = some row ∧ row.read = .ok r := by
  change d.answer ((d.executionRow? id).mapM ExecutionRow.read) = _ ↔ _
  unfold answer
  cases d.isOpen with
  | false => simp
  | true =>
    cases d.executionRow? id with
    | none => simp [pure, Except.pure]
    | some row => cases hr : row.read <;> simp [hr, Functor.map, Except.map]

instance endingLog : EndingLog Database where
  update_ended {d r v} h ht := by
    obtain ⟨ho, row, hrow, hr⟩ := recordById_eq_ok_iff.mp h
    have hopen : row.isOpen = false := by rw [ExecutionRow.isOpen_of_read hr, ht]; rfl
    have htag : Column.tag ExecutionStatus.names row.status = .ok r.status :=
      Column.tag_eq_ok_iff.mpr (ExecutionStatus.lookup_eq_some_iff.mpr
        (ExecutionRow.status_of_read hr))
    change d.answer (d.reviseRecord v) = _
    rw [answer, if_pos ho, reviseRecord, ← executionRow?, hrow]
    simp only [hopen, htag]
    rfl
  update_other {d d' id r v} h hw hid := by
    obtain ⟨ho, row, hrow, hr⟩ := recordById_eq_ok_iff.mp h
    have hw : d.reviseRecord v = .ok d' := answer_eq_ok hw
    obtain ⟨stored, -, hfound⟩ := executionRow?_reviseRecord hw
    obtain ⟨-, -, -, rfl⟩ := reviseRecord_eq_ok_iff.mp hw
    refine recordById_eq_ok_iff.mpr ⟨ho, row, ?_, hr⟩
    rw [hfound, if_neg (Ne.symm hid), hrow]
  append_other {d d' id r v} h hw hid := by
    obtain ⟨ho, row, hrow, hr⟩ := recordById_eq_ok_iff.mp h
    have hw : d.insertRecord v = .ok d' := answer_eq_ok hw
    have hfound := executionRow?_insertRecord hw id
    obtain ⟨-, rfl⟩ := insertRecord_eq_ok_iff.mp hw
    refine recordById_eq_ok_iff.mpr ⟨ho, row, ?_, hr⟩
    rw [hfound, if_neg (Ne.symm hid), hrow]
  abandon_ended {d d' id r now n} h ht hw := by
    obtain ⟨ho, row, hrow, hr⟩ := recordById_eq_ok_iff.mp h
    have hkeep (row : ExecutionRow) : (row.abandon now).id = row.id := by
      unfold ExecutionRow.abandon
      split <;> rfl
    have hopen : row.isOpen = false := by rw [ExecutionRow.isOpen_of_read hr, ht]; rfl
    have hended : row.abandon now = row := if_neg (by rw [hopen]; exact Bool.false_ne_true)
    cases answer_eq_ok hw
    refine recordById_eq_ok_iff.mpr ⟨ho, row, ?_, hr⟩
    rw [executionRow?_map hkeep, hrow, Option.map_some, hended]

end Database

/-- Records that have ended are final in both stores. However the calls of any number of runs, of
the same job or of different ones, come after each other, and whatever is abandoned and appended in
between: a record that is found with a final status is found as it is from then on, and every new
version of it is refused as a move from that status. -/
theorem ended_records_final :
    (∀ s s' : LogActivity MemoryStore, Relation.ReflTransGen LogActivity.Turn s s' →
      EndedFinal s.store s'.store) ∧
    ∀ s s' : LogActivity Database, Relation.ReflTransGen LogActivity.Turn s s' →
      EndedFinal s.store s'.store :=
  ⟨fun _ _ h => LogActivity.endedFinal_of_turns h, fun _ _ h => LogActivity.endedFinal_of_turns h⟩

/-! ### A job that is run twice -/

namespace Sample

/-- The run of the sample rule for the order, at its first step. -/
def firstRun : Run := ⟨rule, .ofChange order .epoch, record rule, .opening⟩

/-- The record of the sample rule, abandoned before it was evaluated. -/
def abandonedRecord : ExecutionRecord := (record rule).moved .abandoned .epoch

end Sample

/-- Two runs of one job find its record abandoned, and it stays so. -/
theorem ended_records_final_abandoned :
    let store := ({} : MemoryStore).putRecord Sample.abandonedRecord
    let s' : LogActivity MemoryStore := ⟨store, [Sample.firstRun]⟩
    Relation.ReflTransGen LogActivity.Turn ⟨store, []⟩ s' ∧
      recordById s'.store Sample.abandonedRecord.id = .ok (some Sample.abandonedRecord) ∧
      updateRecord s'.store { Sample.abandonedRecord with status := .completed } =
        .error (.transition ⟨.abandoned, .completed⟩) := by
  intro store s'
  let e : Engine MemoryStore := { store, clock := .epoch, allowed := 1000 }
  let j : Job := ⟨Sample.rule, .ofChange Sample.order .epoch, Sample.record Sample.rule⟩
  have hj : Run.ofJob j = .ok Sample.firstRun := rfl
  have hrefused : (e.stepRun Sample.firstRun).1 =
      .ended (.refused (.transition ⟨.abandoned, .evaluating⟩)) := rfl
  have hturns : Relation.ReflTransGen LogActivity.Turn ⟨store, []⟩ s' :=
    ((Relation.ReflTransGen.single (.begins store [] hj)).tail (.begins store _ hj)).tail
      (.ends e [] [Sample.firstRun] hrefused)
  obtain ⟨hfound, hupdate⟩ := ended_records_final.1 _ _ hturns Sample.abandonedRecord.id
    Sample.abandonedRecord rfl rfl
  exact ⟨hturns, hfound, hupdate _ rfl⟩

end RuleEngine
