import RuleEngine.Proofs.Store.RecordLedger
import RuleEngine.Proofs.Store.RuleRow

/-!
# Rules beside a log

A store keeps its rules beside its log: whatever is written to the log, the same rules are listed.
A record is appended if its identifier is free, and to write a version of a record touches no other
one. Both stores are so.

## Main definitions

* `RuleLedger`: a store whose log and rules are apart.
-/

namespace RuleEngine

open RecordLedger RuleView

/-- A store whose log and rules are apart. -/
class RuleLedger (σ : Type) [RuleStore σ] [ExecutionLog σ] extends RecordLedger σ,
    RuleView σ where
  /-- A record with a free identifier is appended. -/
  exists_append {s : σ} {r : ExecutionRecord} (h : Answers s) (hf : kept? s r.id = none) :
    ∃ s', ExecutionLog.appendRecord s r = .ok s'
  /-- To write a version of a record touches no other one. -/
  kept_update {s s' : σ} {r : ExecutionRecord} (h : Answers s)
    (hu : ExecutionLog.updateRecord s r = .ok s') :
    Answers s' ∧ ∀ id, id ≠ r.id → kept? s' id = kept? s id
  /-- To append a record leaves the rules as they are. -/
  activeRules_append {s s' : σ} {r : ExecutionRecord}
    (ha : ExecutionLog.appendRecord s r = .ok s') (tenant : Option TenantId) (kind : TriggerKind) :
    RuleStore.activeRules s' tenant kind = RuleStore.activeRules s tenant kind
  /-- To write a version of a record leaves the rules as they are. -/
  activeRules_update {s s' : σ} {r : ExecutionRecord}
    (hu : ExecutionLog.updateRecord s r = .ok s') (tenant : Option TenantId) (kind : TriggerKind) :
    RuleStore.activeRules s' tenant kind = RuleStore.activeRules s tenant kind
  /-- The question for active rules is answered with each of them once. -/
  exists_activeRules {s : σ} (h : IsSound s) (tenant : Option TenantId) (kind : TriggerKind) :
    ∃ rules, RuleStore.activeRules s tenant kind = .ok rules ∧ (rules.map Rule.id).Nodup ∧
      ∀ r, r ∈ rules ↔ rule? s r.id = some r ∧ r.active ∧ r.trigger.kind = kind ∧
        ∀ t ∈ tenant, r.tenant = t

instance : RuleLedger MemoryStore where
  exists_append _ _ := ⟨_, rfl⟩
  kept_update {s s' r} _ hu := by
    refine ⟨trivial, fun id hid => ?_⟩
    rw [MemoryStore.update_eq_ok hu]
    exact (MemoryStore.findRecord_putRecord s r id).trans (if_neg hid)
  activeRules_append ha _ _ := by
    cases ha
    rfl
  activeRules_update hu _ _ := by
    cases MemoryStore.update_eq_ok hu
    rfl
  exists_activeRules := MemoryStore.exists_activeRules

instance : RuleLedger Database where
  exists_append {d r} h hf := by
    have hnone : d.executionRow? r.id = none := hf
    have hfree : ∀ row ∈ d.executions, row.id ≠ r.id := by
      simpa [Database.executionRow?] using hnone
    exact ⟨_, (if_pos h).trans (Database.insertRecord_eq_ok_iff.mpr ⟨hfree, rfl⟩)⟩
  kept_update {d d' r} h hu := by
    have hrevised : d.reviseRecord r = .ok d' := Database.answer_eq_ok hu
    obtain ⟨stored, -, hfound⟩ := Database.executionRow?_reviseRecord hrevised
    refine ⟨?_, fun id hid => (hfound id).trans (if_neg hid)⟩
    obtain ⟨-, -, -, rfl⟩ := Database.reviseRecord_eq_ok_iff.mp hrevised
    exact h
  activeRules_append ha _ _ := by
    obtain ⟨-, rfl⟩ := Database.insertRecord_eq_ok_iff.mp (Database.answer_eq_ok ha)
    rfl
  activeRules_update hu _ _ := by
    obtain ⟨-, -, -, rfl⟩ := Database.reviseRecord_eq_ok_iff.mp (Database.answer_eq_ok hu)
    rfl
  exists_activeRules := Database.exists_activeRules

end RuleEngine
