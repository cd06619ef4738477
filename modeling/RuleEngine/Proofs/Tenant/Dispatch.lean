import RuleEngine.Proofs.Schedule.Tick
import RuleEngine.Proofs.Tenant.Questions
import RuleEngine.Proofs.Tenant.Requests

/-!
# Dispatching a change of a tenant

A change of a tenant fires rules of this tenant, and what the dispatcher does about it is told by
the part of the tenant alone: databases that agree on the part list the same rules, and then the
same records are appended for them under the same fresh identifiers, and the same jobs are
submitted.

## Main definitions

* `Database.Leaves`: the other tenants leave the identifiers that are to be handed out alone.

## Main results

* `Engine.actsAlike_dispatch`: a change of a tenant is dispatched alike.
-/

namespace RuleEngine

namespace Database

variable {tenant : TenantId} {d d' : Database} {n m : Nat}

/-- Whether no record of another tenant has an identifier that is handed out from the `n`-th up to
the `m`-th. -/
def Leaves (tenant : TenantId) (d : Database) (n m : Nat) : Prop :=
  ∀ row ∈ d.executions, row.tenant ≠ tenant → ∀ i, n ≤ i → i < m → row.id ≠ .numbered i

theorem Leaves.mono {n' m' : Nat} (h : d.Leaves tenant n m) (hn : n ≤ n') (hm : m' ≤ m) :
    d.Leaves tenant n' m' :=
  fun row hrow ht i hi hlt => h row hrow ht i (hn.trans hi) (hlt.trans_le hm)

/-- What spares the other tenants hands out none of their identifiers. -/
theorem Leaves.of_spares (h : d.Leaves tenant n m) (hs : d.Spares tenant d') :
    d'.Leaves tenant n m := by
  intro row hrow ht
  have hm : row ∈ d'.recordRows row.tenant := mem_recordRows.mpr ⟨hrow, rfl⟩
  rw [(hs _ ht).2] at hm
  exact h row (mem_recordRows.mp hm).1 ht

/-- The pending record of a candidate is appended alike for a cause of the tenant. -/
theorem Agree.twin_append (ha : d.Agree tenant d') (h : d.IsKeyed) (h' : d'.IsKeyed)
    {context : TriggerContext} (ht : context.tenant = tenant) (hl : d.Leaves tenant n (n + 1))
    (hl' : d'.Leaves tenant n (n + 1)) (f : Firing) (waiting : List Rule) (rule : Rule)
    (now : Timestamp) :
    Twin tenant d d' (f.append waiting rule context (.numbered n) now d)
      (f.append waiting rule context (.numbered n) now d') := by
  have hfree (x : Database) (hx : x.Leaves tenant n (n + 1)) (row : ExecutionRow)
      (hm : row ∈ x.executions) (hid : row.id = .numbered n) : row.tenant = tenant := by
    by_contra hne
    exact hx row hm hne n le_rfl n.lt_succ_self hid
  have happend (x : Database) (hx : x.IsKeyed) (r : ExecutionRecord) :
      ExecutionLog.appendRecord x r = x.insertRecord r := hx.answer_eq _
  have hinsert := ha.insertRecord (r := .pending (.numbered n) rule context now) ht (hfree d hl)
    (hfree d' hl')
  unfold Firing.append
  dsimp only
  rw [happend d h, happend d' h']
  rcases hinsert with ⟨he, he'⟩ | ⟨s, s', hs, hs', hagree, hspares, hspares'⟩
  · rw [he, he']
    exact ha.twin rfl
  · rw [hs, hs']
    exact ⟨rfl, hagree, hspares, hspares'⟩

end Database

namespace Engine

open Database

variable {tenant : TenantId} {d d' : Database} {f : Firing} {context : TriggerContext}

/-- A step of a firing for a change of the tenant is made alike. -/
theorem actsAlike_stepFiring (ha : d.Agree tenant d') (h : d.IsKeyed) (h' : d'.IsKeyed)
    (hf : f.cause = .change context) (ht : context.tenant = tenant) (e : Engine Database)
    (hl : d.Leaves tenant e.issued (e.issued + 1))
    (hl' : d'.Leaves tenant e.issued (e.issued + 1)) :
    ActsAlike tenant d d' (({ e with store := d } : Engine Database).stepFiring f)
      (({ e with store := d' } : Engine Database).stepFiring f) := by
  have htwin (waiting : List Rule) (rule : Rule) (now : Timestamp) :
      ActsAlike tenant d d'
        ((f.append waiting rule context (.numbered e.issued) now d).1, { e with
          store := (f.append waiting rule context (.numbered e.issued) now d).2
          issued := e.issued + 1 })
        ((f.append waiting rule context (.numbered e.issued) now d').1, { e with
          store := (f.append waiting rule context (.numbered e.issued) now d').2
          issued := e.issued + 1 }) :=
    .of_twin (ha.twin_append h h' ht hl hl' f waiting rule now) id
      { e with issued := e.issued + 1 }
  obtain ⟨cause, waiting, stage, submitted⟩ := f
  obtain rfl : cause = .change context := hf
  cases stage with
  | holding job =>
    rw [stepFiring, stepFiring, Firing.step, Firing.step]
    dsimp only
    split <;> exact ⟨rfl, rfl, ha, .refl tenant d, .refl tenant d'⟩
  | claimed rule => exact htwin waiting rule context.firedAt
  | choosing =>
    cases waiting with
    | nil => exact ⟨rfl, rfl, ha, .refl tenant d, .refl tenant d'⟩
    | cons rule rest => exact htwin rest rule context.firedAt

/-- A firing for a change of the tenant is carried through alike. -/
theorem actsAlike_carryFiring (ha : d.Agree tenant d') (h : d.Reachable) (h' : d'.Reachable)
    (hf : f.cause = .change context) (ht : context.tenant = tenant) (e : Engine Database)
    (fuel : Nat) {m : Nat}
    (hm : (({ e with store := d } : Engine Database).carryFiring f fuel).2.issued ≤ m)
    (hl : d.Leaves tenant e.issued m) (hl' : d'.Leaves tenant e.issued m) :
    ActsAlike tenant d d' (({ e with store := d } : Engine Database).carryFiring f fuel)
      (({ e with store := d' } : Engine Database).carryFiring f fuel) := by
  induction fuel generalizing d d' e f with
  | zero => exact ⟨rfl, rfl, ha, .refl tenant d, .refl tenant d'⟩
  | succ fuel ih =>
    have hlt : e.issued + 1 ≤ m := by
      have := issued_add_le_carryFiring { e with store := d } f (fuel + 1)
      rw [Nat.min_eq_right (Nat.le_add_left 1 fuel)] at this
      exact this.trans hm
    have hstep := actsAlike_stepFiring ha h.isKeyed h'.isKeyed hf ht e
      (hl.mono le_rfl hlt) (hl'.mono le_rfl hlt)
    have hreach (x : Database) (hx : x.Reachable) :
        (({ e with store := x } : Engine Database).stepFiring f).2.store.Reachable :=
      hx.stepFiring f _ _ _
    have hnext := hreach d h
    have hnext' := hreach d' h'
    rw [carryFiring] at hm ⊢
    rw [carryFiring]
    rcases hs : ({ e with store := d } : Engine Database).stepFiring f with ⟨p, e₁⟩
    rcases hs' : ({ e with store := d' } : Engine Database).stepFiring f with ⟨p', e₁'⟩
    rw [hs] at hm hstep hnext
    rw [hs'] at hstep hnext'
    obtain ⟨hresult, hengine, hagree, hspares, hspares'⟩ := hstep
    obtain rfl : p = p' := hresult
    cases p with
    | ended result => exact ⟨rfl, hengine, hagree, hspares, hspares'⟩
    | going g =>
      have hg : g.cause = .change context :=
        (Firing.cause_of_step (congrArg Prod.fst hs)).trans hf
      have hissued : e₁.issued = e.issued + 1 := (congrArg (·.2.issued) hs).symm
      have hle : e.issued ≤ e₁.issued := hissued ▸ Nat.le_succ _
      have hrest := ih hagree hnext hnext' hg e₁ hm
        ((hl.of_spares hspares).mono hle le_rfl) ((hl'.of_spares hspares').mono hle le_rfl)
      rw [← hengine] at hrest
      exact ⟨hrest.result, hrest.engine, hrest.agree, hspares.trans hrest.spares,
        hspares'.trans hrest.spares'⟩

/-- A change of a tenant is dispatched alike by databases that agree on its part, if the identifiers
that are handed out are not those of records of another tenant. -/
theorem actsAlike_dispatch (ha : d.Agree tenant d') (h : d.Reachable) (h' : d'.Reachable)
    (e : Engine Database) {n : ChangeNotification} (ht : n.tenant = tenant) {m : Nat}
    (hm : (({ e with store := d } : Engine Database).dispatch n).2.issued ≤ m)
    (hl : d.Leaves tenant e.issued m) (hl' : d'.Leaves tenant e.issued m) :
    ActsAlike tenant d d' (({ e with store := d } : Engine Database).dispatch n)
      (({ e with store := d' } : Engine Database).dispatch n) := by
  have hstart : Firing.ofChange d n e.clock = Firing.ofChange d' n e.clock := by
    rw [Firing.ofChange, Firing.ofChange, ht, ha.activeRules_eq h.isKeyed h'.isKeyed]
  unfold dispatch at hm ⊢
  dsimp only at hm ⊢
  rw [← hstart]
  cases hf : Firing.ofChange d n e.clock with
  | error error => exact ⟨rfl, rfl, ha, .refl tenant d, .refl tenant d'⟩
  | ok f =>
    rw [hf] at hm
    have hcarry (x : Database) := carryFiring_eq_fire { e with store := x } f
    have hcause : f.cause = .change (.ofChange n e.clock) := by
      obtain ⟨rules, -, rfl⟩ := Firing.ofChange_eq_ok hf
      rfl
    have hcarried := actsAlike_carryFiring ha h h' hcause ht e f.stepsLeft
      (by rw [hcarry d]; exact hm) hl hl'
    rw [hcarry, hcarry] at hcarried
    exact ⟨FiringProgress.ended.inj hcarried.result, hcarried.engine, hcarried.agree,
      hcarried.spares, hcarried.spares'⟩

end Engine

end RuleEngine
