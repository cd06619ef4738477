import RuleEngine.Proofs.Store.Tables
import RuleEngine.Store.Memory

/-!
# The statuses in a log

A log keeps a status for every record that it has. To append or to write a record sets its status
and no other one, and to claim a minute of the scheduler sets none; the log in memory and that of a
database agree in this.

## Main definitions

* `StatusLog`: a log whose calls set the status of the record they are about only.
-/

namespace RuleEngine

/-- A log that keeps the statuses of its records. -/
class StatusLog (σ : Type) [RuleStore σ] [ExecutionLog σ] where
  /-- The status of the record with an identifier. -/
  status? : σ → ExecutionId → Option ExecutionStatus
  /-- To append a record sets its status only. -/
  status_append {s s' : σ} {r : ExecutionRecord} (h : ExecutionLog.appendRecord s r = .ok s')
    (id : ExecutionId) : status? s' id = if id = r.id then some r.status else status? s id
  /-- To write a version of a record sets its status only. -/
  status_update {s s' : σ} {r : ExecutionRecord} (h : ExecutionLog.updateRecord s r = .ok s')
    (id : ExecutionId) : status? s' id = if id = r.id then some r.status else status? s id
  /-- To claim a minute sets no status. -/
  status_claim {s s' : σ} {rule : RuleId} {tick : Timestamp} {b : Bool}
    (h : RuleStore.claimTick s rule tick = .ok (b, s')) (id : ExecutionId) :
    status? s' id = status? s id

/-! ### In memory -/

namespace MemoryStore

theorem find?_put {α κ : Type} [DecidableEq κ] (key : α → κ) (a : α) (l : List α) (k : κ) :
    (put key a l).find? (fun b => key b = k) =
      if k = key a then some a else l.find? fun b => key b = k := by
  induction l with
  | nil => by_cases hk : k = key a <;> simp [put, hk, eq_comm]
  | cons b rest ih =>
    rw [put]
    by_cases hb : key b = key a
    · rw [if_pos hb]
      by_cases hk : k = key a
      · simp [hk]
      · have hne : key a ≠ k := Ne.symm hk
        simp [hk, hb, hne]
    · rw [if_neg hb]
      by_cases hk : key b = k
      · have hne : k ≠ key a := hk ▸ hb
        simp [hk, hne]
      · simp only [List.find?_cons, hk, decide_false, ih]

/-- To put an item adds no other one. -/
theorem mem_put {α κ : Type} [DecidableEq κ] {key : α → κ} {a b : α} {l : List α}
    (h : b ∈ put key a l) : b = a ∨ b ∈ l := by
  induction l with
  | nil => exact .inl (List.mem_singleton.mp h)
  | cons c rest ih =>
    rw [put] at h
    split at h
    · rcases List.mem_cons.mp h with h | h
      · exact .inl h
      · exact .inr (List.mem_cons_of_mem c h)
    · rcases List.mem_cons.mp h with h | h
      · exact .inr (h ▸ List.mem_cons_self)
      · exact (ih h).imp_right (List.mem_cons_of_mem c)

theorem findRecord_putRecord (s : MemoryStore) (r : ExecutionRecord) (id : ExecutionId) :
    (s.putRecord r).findRecord id = if id = r.id then some r else s.findRecord id :=
  find?_put ExecutionRecord.id r s.records id

theorem update_eq_ok {s s' : MemoryStore} {r : ExecutionRecord} (h : s.update r = .ok s') :
    s' = s.putRecord r := by
  unfold update at h
  split at h
  · cases h
  · split at h
    · cases h
    · cases h
      rfl

/-- A written version sets the status of its record. -/
private theorem status_putRecord (s : MemoryStore) (r : ExecutionRecord) (id : ExecutionId) :
    ((s.putRecord r).findRecord id).map (·.status) =
      if id = r.id then some r.status else (s.findRecord id).map (·.status) := by
  rw [findRecord_putRecord]
  split <;> rfl

instance : StatusLog MemoryStore where
  status? s id := (s.findRecord id).map (·.status)
  status_append h id := by
    cases h
    exact status_putRecord _ _ id
  status_update h id := by
    rw [update_eq_ok h]
    exact status_putRecord _ _ id
  status_claim {s s' rule tick b} h id := by
    have hs : s' = (s.claim rule tick).2 := (congrArg Prod.snd (Except.ok.inj h)).symm
    rw [hs]
    unfold claim
    split
    · rfl
    · split <;> rfl

end MemoryStore

/-! ### In a database -/

namespace Database

/-- The status in the row of a record. -/
def rowStatus (d : Database) (id : ExecutionId) : Option ExecutionStatus :=
  (d.executionRow? id).bind fun row => ExecutionStatus.names.lookup row.status

private theorem rowStatus_insertRecord {d d' : Database} {r : ExecutionRecord}
    (h : d.insertRecord r = .ok d') (id : ExecutionId) :
    d'.rowStatus id = if id = r.id then some r.status else d.rowStatus id := by
  rw [rowStatus, executionRow?_insertRecord h]
  split
  · exact r.status.lookup_name
  · rfl

private theorem rowStatus_reviseRecord {d d' : Database} {r : ExecutionRecord}
    (h : d.reviseRecord r = .ok d') (id : ExecutionId) :
    d'.rowStatus id = if id = r.id then some r.status else d.rowStatus id := by
  obtain ⟨stored, -, hrow⟩ := executionRow?_reviseRecord h
  rw [rowStatus, hrow]
  split
  · exact r.status.lookup_name
  · rfl

instance : StatusLog Database where
  status? := rowStatus
  status_append h id := rowStatus_insertRecord (answer_eq_ok h) id
  status_update h id := rowStatus_reviseRecord (answer_eq_ok h) id
  status_claim h id := by
    cases answer_eq_ok h
    rfl

end Database

end RuleEngine
