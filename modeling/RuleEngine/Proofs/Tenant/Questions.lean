import Mathlib.Logic.Relation
import RuleEngine.Proofs.Run.Path
import RuleEngine.Proofs.Store.Keys
import RuleEngine.Proofs.Store.RuleReading

/-!
# Questions on behalf of a tenant

The owner of the business records is asked on behalf of the tenant that the cause of a job names. A
change fires rules of the tenant that it names, and a minute is the cause of a rule for the tenant
of the rule, so that this is the tenant of the rule wherever the job goes: from the producer into
the queue, to its run, and from its delay to the run of its actions.

## Main definitions

* `Job.IsHomely`: a job whose cause is one of the tenant of its rule.
* `Job.Fired`: the jobs that come from a firing, whatever else happens meanwhile.

## Main results

* `Job.Fired.isHomely`: every job is one of the tenant of its rule.
* `Job.Fired.tenant_of_asked`: every question of its run is asked on behalf of this tenant.
-/

namespace RuleEngine

/-! ### Questions of an evaluation -/

namespace Resolution

variable {lookup : Lookup} {context : TriggerContext} {tenant : TenantId}

theorem tenant_of_follow (entity : EntityRef) (steps : List String) :
    ∀ c ∈ (follow lookup tenant entity steps).calls, c.tenant = tenant := by
  induction steps generalizing entity with
  | nil => exact List.forall_mem_nil _
  | cons step rest ih =>
    have hone : ∀ c ∈ [LookupCall.mk tenant entity step], c.tenant = tenant :=
      List.forall_mem_singleton.mpr rfl
    unfold follow
    dsimp only
    split
    · exact hone
    · exact hone
    · next target _ _ _ => exact List.forall_mem_cons.mpr ⟨rfl, ih target⟩
    · exact hone

/-- To resolve a path, questions are asked on behalf of the tenant of the cause. -/
theorem tenant_of_resolve (path : String) :
    ∀ c ∈ (resolve lookup context path).calls, c.tenant = context.tenant := by
  have hnone (value : Option Value) : ∀ c ∈ (direct value).calls, c.tenant = context.tenant :=
    List.forall_mem_nil _
  unfold resolve
  split
  · exact hnone _
  · split
    · exact hnone _
    · dsimp only
      split
      · exact hnone _
      · exact tenant_of_follow _ _

end Resolution

/-- To evaluate a rule, questions are asked on behalf of the tenant of the cause. -/
theorem Rule.tenant_of_evaluate (r : Rule) (lookup : Lookup) (context : TriggerContext) :
    ∀ c ∈ (r.evaluate lookup context).calls, c.tenant = context.tenant := by
  intro c hc
  obtain ⟨result, hm, hc⟩ := List.mem_flatMap.mp hc
  obtain ⟨condition, -, rfl⟩ := List.mem_map.mp hm
  unfold Condition.evaluate at hc
  split at hc
  · cases hc
  · exact Resolution.tenant_of_resolve condition.field c hc

/-- A step of a run asks on behalf of the tenant of its cause. -/
theorem Engine.tenant_of_asked {σ : Type} [ExecutionLog σ] (e : Engine σ) (r : Run) :
    ∀ c ∈ e.asked r, c.tenant = r.context.tenant := by
  by_cases hs : r.stage = .evaluating
  · have hasked : e.asked r = (r.rule.evaluate e.lookup r.context).calls := by
      simp [asked, stepRun, hs, noteQuestions]
    rw [hasked]
    exact r.rule.tenant_of_evaluate e.lookup r.context
  · rw [e.asked_eq_nil r hs]
    exact List.forall_mem_nil _

/-- The rules that a database lists for a tenant are rules of this tenant. -/
theorem Database.tenant_of_activeRules {d : Database} {tenant : TenantId} {kind : TriggerKind}
    {rules : List Rule} (h : RuleStore.activeRules d (some tenant) kind = .ok rules) :
    ∀ r ∈ rules, r.tenant = tenant := by
  intro r hr
  obtain ⟨row, hm, hread⟩ := ((RuleRow.mem_of_mapM_read (answer_eq_ok h)).2 r).mp hr
  have hrow := (List.mem_filter.mp (List.mem_mergeSort.mp hm)).2
  simp only [ExecutionQuery.demand, Bool.and_eq_true, beq_iff_eq] at hrow
  exact (RuleRow.read_eq_ok_iff.mp hread).tenant.trans hrow.2.symm

/-! ### Jobs of the tenant of their rule -/

/-- Whether the cause of a job is one of the tenant of its rule. -/
def Job.IsHomely (j : Job) : Prop := j.context.tenant = j.rule.tenant

namespace Firing

variable {d : Database} {f f' : Firing}

/-- Whether a firing is to fire rules of the tenant of its cause, if this names one, and holds a job
of the tenant of its rule. -/
structure IsHomely (f : Firing) : Prop where
  candidates : ∀ context, f.cause = .change context →
    ∀ r ∈ f.candidates, r.tenant = context.tenant
  job : ∀ j, f.stage = .holding j → j.IsHomely

/-- A firing for a change starts with the rules of the tenant of the change. -/
theorem ofChange_eq_ok {σ : Type} [RuleStore σ] {s : σ} {n : ChangeNotification}
    {now : Timestamp} (h : ofChange s n now = .ok f) :
    ∃ rules, RuleStore.activeRules s (some n.tenant) .event = .ok rules ∧
      f = ⟨.change (.ofChange n now), rules.filter (·.trigger.matchesChange n), .choosing, 0⟩ := by
  unfold ofChange at h
  cases hl : RuleStore.activeRules s (some n.tenant) .event with
  | error error =>
    rw [hl] at h
    cases h
  | ok rules =>
    rw [hl] at h
    exact ⟨rules, rfl, (Except.ok.inj h).symm⟩

/-- A change fires rules of its tenant. -/
theorem isHomely_of_ofChange {n : ChangeNotification} {now : Timestamp}
    (h : ofChange d n now = .ok f) : f.IsHomely := by
  obtain ⟨rules, hl, rfl⟩ := ofChange_eq_ok h
  refine ⟨fun context hc r hr => ?_, by rintro j ⟨⟩⟩
  cases hc
  exact Database.tenant_of_activeRules hl r (List.mem_of_mem_filter hr)

/-- A minute fires rules for their own tenants. -/
theorem isHomely_of_ofInstant {now : Timestamp} (h : ofInstant d now = .ok f) : f.IsHomely := by
  unfold ofInstant at h
  cases hl : RuleStore.activeRules d none .schedule with
  | error error =>
    rw [hl] at h
    cases h
  | ok rules =>
    rw [hl] at h
    cases h
    exact ⟨by rintro context ⟨⟩, by rintro j ⟨⟩⟩

variable {σ : Type} [RuleStore σ] [ExecutionLog σ]

/-- Whether a firing goes on to another one, with whatever is in the store and in the queue then. -/
def GoesOn (σ : Type) [RuleStore σ] [ExecutionLog σ] (f f' : Firing) : Prop :=
  ∃ (fresh : ExecutionId) (now : Timestamp) (s : σ) (q : JobQueue),
    (f.step fresh now s q).1 = .going f'

omit [RuleStore σ] in
/-- The job of a candidate is one of the tenant of its rule. -/
private theorem IsHomely.of_append (h : f.IsHomely) (waiting : List Rule) (rule : Rule)
    (context : TriggerContext) (fresh : ExecutionId) (now : Timestamp) (s : σ)
    (hs : (f.append waiting rule context fresh now s).1 = .going f') (hw : waiting ⊆ f.candidates)
    (ht : context.tenant = rule.tenant) : f'.IsHomely := by
  unfold append at hs
  dsimp only at hs
  split at hs
  · cases hs
  · cases hs
    refine ⟨fun context hc r hr => h.candidates context hc r (hw hr), fun j hj => ?_⟩
    cases hj
    exact ht

/-- A firing goes on with the tenants of its rules. -/
theorem IsHomely.of_goesOn (h : f.IsHomely) (hs : GoesOn σ f f') : f'.IsHomely := by
  obtain ⟨fresh, now, s, q, hs⟩ := hs
  obtain ⟨cause, waiting, stage, submitted⟩ := f
  cases stage with
  | holding job =>
    simp only [step] at hs
    split at hs
    · cases hs
    · cases hs
      exact ⟨h.candidates, by rintro j ⟨⟩⟩
  | claimed rule =>
    have hw : waiting ⊆ rule :: waiting := List.subset_cons_self rule waiting
    cases cause with
    | tick tick => exact h.of_append waiting rule (.ofTick rule.tenant tick) fresh now s hs hw rfl
    | change context =>
      exact h.of_append waiting rule context fresh context.firedAt s hs hw
        (h.candidates context rfl rule List.mem_cons_self).symm
  | choosing =>
    cases waiting with
    | nil => cases hs
    | cons rule rest =>
      have hw : rest ⊆ rule :: rest := List.subset_cons_self rule rest
      cases cause with
      | change context =>
        exact h.of_append rest rule context fresh context.firedAt s hs hw
          (h.candidates context rfl rule List.mem_cons_self).symm
      | tick tick =>
        simp only [step] at hs
        split at hs <;> cases hs <;> exact ⟨by rintro context ⟨⟩, by rintro j ⟨⟩⟩

theorem IsHomely.of_goOn (h : f.IsHomely) (hs : Relation.ReflTransGen (GoesOn σ) f f') :
    f'.IsHomely := by
  induction hs with
  | refl => exact h
  | tail _ hs ih => exact ih.of_goesOn hs

end Firing

/-- A run that is parked comes back as a job of the same rule for the same cause. -/
theorem Run.Path.isHomely_of_deferred {σ : Type} [ExecutionLog σ] {r : Run}
    {steps : List (Engine σ × Run)} {p : RunProgress} {j : Job} {runAt : Timestamp}
    (h : Path r steps p) (hr : r.IsSteady) (hp : p = .ended (.deferred j runAt))
    (hj : r.job.IsHomely) : j.IsHomely := by
  induction h with
  | here r => cases hp
  | @on r r' later p e hstep hlater ih =>
    have hrun := e.runStep_stepRun r
    rw [hstep] at hrun
    obtain ⟨hsteady, hrule, hcontext⟩ := steady_of_runStep hrun hr
    refine ih hsteady hp ?_
    unfold Job.IsHomely Run.job at hj ⊢
    rw [hrule, hcontext]
    exact hj
  | @last r ending e hstep =>
    have hrun := e.runStep_stepRun r
    rw [hstep, hp] at hrun
    generalize e.observe r = events, (e.stepRun r).2 = e' at hrun
    cases hrun with
    | wrote hw ho =>
      rw [hw.deferred_eq.1]
      exact hj

open Relation (ReflTransGen)

/-- The jobs that come from a firing. Between the steps of a firing or of a run, whatever else
happens may change the store, the queue and the engine. -/
inductive Job.Fired : Job → Prop
  /-- A change has fired the rule. -/
  | change {d : Database} {n : ChangeNotification} {now : Timestamp} {f f' : Firing} {j : Job}
      (h : Firing.ofChange d n now = .ok f) (hs : ReflTransGen (Firing.GoesOn Database) f f')
      (hj : f'.stage = .holding j) : Fired j
  /-- A minute of the scheduler has fired the rule. -/
  | minute {d : Database} {now : Timestamp} {f f' : Firing} {j : Job}
      (h : Firing.ofInstant d now = .ok f) (hs : ReflTransGen (Firing.GoesOn Database) f f')
      (hj : f'.stage = .holding j) : Fired j
  /-- The job comes back from its delay. -/
  | back {j j' : Job} {r : Run} {steps : List (Engine Database × Run)} {runAt : Timestamp}
      (h : Fired j) (hr : Run.ofJob j = .ok r)
      (hp : Run.Path r steps (.ended (.deferred j' runAt))) : Fired j'

namespace Job

variable {j : Job}

/-- Every job is one of the tenant of its rule. -/
theorem Fired.isHomely (h : j.Fired) : j.IsHomely := by
  induction h with
  | change h hs hj => exact ((Firing.isHomely_of_ofChange h).of_goOn hs).job _ hj
  | minute h hs hj => exact ((Firing.isHomely_of_ofInstant h).of_goOn hs).job _ hj
  | back _ hr hp ih =>
    exact hp.isHomely_of_deferred (Run.isSteady_of_ofJob hr) rfl ((Run.job_of_ofJob hr).symm ▸ ih)

/-- Every question of the run of a job is asked on behalf of the tenant of its rule. -/
theorem Fired.tenant_of_asked (h : j.Fired) {r : Run} (hr : Run.ofJob j = .ok r)
    {steps : List (Engine Database × Run)} {p : RunProgress} (hp : Run.Path r steps p) :
    ∀ c ∈ Run.asked steps, c.tenant = j.rule.tenant := by
  intro c hc
  obtain ⟨x, hx, hc⟩ := List.mem_flatMap.mp hc
  have hcontext : r.context = j.context := congrArg Job.context (Run.job_of_ofJob hr)
  rw [x.1.tenant_of_asked x.2 c hc, hp.context_eq (Run.isSteady_of_ofJob hr) x hx, hcontext]
  exact h.isHomely

end Job

end RuleEngine
