import RuleEngine.Proofs.Store.ExecutionRow
import RuleEngine.Proofs.Store.Status

/-!
# What a log keeps of its records

A log that answers calls keeps one version of every record. To append a record keeps it, and a
version of a record that has not ended is accepted and takes the place of the one that was kept.
The store in memory keeps a record as it is, and a database keeps its row.

## Main definitions

* `RecordLedger`: a log by what it keeps of its records.
-/

namespace RuleEngine

/-- A log by what it keeps of its records. -/
class RecordLedger (σ : Type) [RuleStore σ] [ExecutionLog σ] extends StatusLog σ where
  /-- What is kept of a record. -/
  Kept : Type
  /-- How a record is kept. -/
  keep : ExecutionRecord → Kept
  /-- The record that is read back. -/
  read : Kept → Except EngineError ExecutionRecord
  /-- Whether a record that is kept has ended. -/
  isTerminal : Kept → Bool
  /-- Whether a log answers calls. -/
  Answers : σ → Prop
  /-- What is kept under an identifier. -/
  kept? : σ → ExecutionId → Option Kept
  isTerminal_keep (r : ExecutionRecord) : isTerminal (keep r) = r.isTerminal
  status?_of_none {s : σ} {id : ExecutionId} (h : kept? s id = none) :
    toStatusLog.status? s id = none
  recordById_eq {s : σ} (h : Answers s) (id : ExecutionId) :
    ExecutionLog.recordById s id = (kept? s id).mapM read
  /-- A record that is appended is kept, and the others stay. -/
  kept_append {s s' : σ} {r : ExecutionRecord} (h : Answers s)
    (ha : ExecutionLog.appendRecord s r = .ok s') :
    Answers s' ∧ ∀ id, kept? s' id = if id = r.id then some (keep r) else kept? s id
  /-- A version of a record that has not ended is accepted and kept. -/
  exists_update {s : σ} {r v : ExecutionRecord} (h : Answers s)
    (hk : kept? s v.id = some (keep r)) (ho : v.SameOrigin r) (ht : r.status.isTerminal = false) :
    ∃ s', ExecutionLog.updateRecord s v = .ok s' ∧ Answers s' ∧
      ∀ id, kept? s' id = if id = v.id then some (keep v) else kept? s id
  /-- To claim a minute changes nothing of what is kept. -/
  kept_claim {s s' : σ} {rule : RuleId} {tick : Timestamp} {b : Bool} (h : Answers s)
    (hc : RuleStore.claimTick s rule tick = .ok (b, s')) : Answers s' ∧ kept? s' = kept? s

namespace MemoryStore

instance : RecordLedger MemoryStore where
  Kept := ExecutionRecord
  keep r := r
  read := .ok
  isTerminal := ExecutionRecord.isTerminal
  Answers _ := True
  kept? := findRecord
  isTerminal_keep _ := rfl
  status?_of_none h := congrArg (Option.map ExecutionRecord.status) h
  recordById_eq {s} _ id := by
    change Except.ok (s.findRecord id) = _
    cases s.findRecord id <;> rfl
  kept_append _ ha := by
    cases ha
    exact ⟨trivial, findRecord_putRecord _ _⟩
  exists_update {s r v} _ hk ho ht := by
    refine ⟨s.putRecord v, ?_, trivial, findRecord_putRecord s v⟩
    change s.update v = _
    simp only [update, hk, ExecutionRecord.isTerminal, ht, Bool.false_eq_true, if_false]
  kept_claim {s s' rule tick b} _ hc := by
    have hs : s' = (s.claim rule tick).2 := (congrArg Prod.snd (Except.ok.inj hc)).symm
    refine ⟨trivial, ?_⟩
    rw [hs]
    unfold claim
    split
    · rfl
    · split <;> rfl

end MemoryStore

namespace Database

instance : RecordLedger Database where
  Kept := ExecutionRow
  keep := .ofRecord
  read := ExecutionRow.read
  isTerminal row := !row.isOpen
  Answers d := d.isOpen = true
  kept? := executionRow?
  isTerminal_keep r := by rw [ExecutionRow.isOpen_ofRecord, Bool.not_not]
  status?_of_none {d id} h := by
    change d.rowStatus id = none
    rw [rowStatus, h, Option.bind_none]
  recordById_eq h _ := if_pos h
  kept_append {d d' r} h ha := by
    have ha : d.insertRecord r = .ok d' := answer_eq_ok ha
    refine ⟨?_, executionRow?_insertRecord ha⟩
    obtain ⟨-, rfl⟩ := insertRecord_eq_ok_iff.mp ha
    exact h
  exists_update {d r v} h hk ho ht := by
    have hrevised := reviseRecord_eq_ok_iff.mpr ⟨.ofRecord r, hk, by
      rw [ExecutionRow.isOpen_ofRecord, ExecutionRecord.isTerminal, ht]; rfl, rfl⟩
    obtain ⟨stored, hs, hfound⟩ := executionRow?_reviseRecord hrevised
    obtain rfl : stored = .ofRecord r := Option.some.inj (hs.symm.trans hk)
    refine ⟨_, (if_pos h).trans hrevised, h, fun id => ?_⟩
    rw [hfound, ExecutionRow.revise_ofRecord ho]
  kept_claim h hc := by
    cases answer_eq_ok hc
    exact ⟨h, rfl⟩

end Database

end RuleEngine
