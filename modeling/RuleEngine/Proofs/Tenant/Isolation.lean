import RuleEngine.Proofs.Store.Standard
import RuleEngine.Proofs.Tenant.Dispatch

/-!
# Isolation of tenants

What a tenant asks of an engine, and what its changes fire, is told by its own part of the database,
and is of no concern to the other tenants. There is one way to learn of another tenant's rule or
record: a row that cannot be read is a fault of the storage for everybody who asks for its
identifier.

## Main results

* `Engine.isolates_tenant`: requests, dispatched changes and questions of a tenant in databases that
  agree on its part.
-/

namespace RuleEngine

namespace Engine

open Database

variable {tenant : TenantId} {d d' : Database}

/-- A request of a tenant is of no concern to the other tenants. -/
theorem spares_answer (h : d.IsKeyed) {request : Request} {subject : Request.Subject}
    (hs : request.subject tenant = some subject) (e : Engine Database) (now : Timestamp) :
    d.Spares tenant (({ e with store := d } : Engine Database).answer now request).2.store := by
  by_cases hn : subject.IsHidden tenant d
  · rw [answer_of_isHidden h hs hn]
    exact .refl tenant d
  · exact (actsAlike_answer ⟨.refl _, rfl⟩ h h hs hn hn e now).spares

/-- Tenants are isolated in databases that can be reached. In two of them that agree on the part of
a tenant, a request of the tenant has the same result and leaves databases that agree, unless an
unreadable row of another tenant is hidden in one of them under the identifier that is asked for;
the other tenants have what they had in any case. An identifier of another tenant is not found, as
one that nothing has, or is a fault of the storage if the row is hidden. A change of the tenant is
dispatched alike if the identifiers that are handed out are fresh, and whatever is asked in the run
of a job, fired by a change or by a minute, is asked on behalf of the tenant of its rule. -/
theorem isolates_tenant (h : d.Reachable) (h' : d'.Reachable) (ha : d.Agree tenant d')
    (e : Engine Database) :
    (∀ now request subject, request.subject tenant = some subject →
      (¬subject.IsHidden tenant d → ¬subject.IsHidden tenant d' →
        ActsAlike tenant d d' (({ e with store := d } : Engine Database).answer now request)
          (({ e with store := d' } : Engine Database).answer now request)) ∧
      d.Spares tenant (({ e with store := d } : Engine Database).answer now request).2.store ∧
      (∀ error, subject.notFound = some error → subject.IsMissing tenant d →
        ¬subject.IsHidden tenant d →
          ({ e with store := d } : Engine Database).answer now request =
            (.error ((request.fault?.map EngineError.definition).getD error),
              { e with store := d })) ∧
      (subject.IsHidden tenant d →
        ({ e with store := d } : Engine Database).answer now request =
          (.error ((request.fault?.map EngineError.definition).getD .storage),
            { e with store := d }))) ∧
    (∀ n : ChangeNotification, n.tenant = tenant →
      d.Leaves tenant e.issued (({ e with store := d } : Engine Database).dispatch n).2.issued →
      d'.Leaves tenant e.issued (({ e with store := d } : Engine Database).dispatch n).2.issued →
        ActsAlike tenant d d' (({ e with store := d } : Engine Database).dispatch n)
          (({ e with store := d' } : Engine Database).dispatch n)) ∧
    ∀ (j : Job) (r : Run) (steps : List (Engine Database × Run)) (p : RunProgress), j.Fired →
      Run.ofJob j = .ok r → Run.Path r steps p → ∀ c ∈ Run.asked steps, c.tenant = j.rule.tenant :=
  ⟨fun now _ _ hs =>
      ⟨fun hn hn' => actsAlike_answer ha h.isKeyed h'.isKeyed hs hn hn' e now,
        spares_answer h.isKeyed hs e now,
        fun _ herror hm hn => answer_of_isMissing h.isKeyed hs herror hm hn e now,
        fun hn => answer_of_isHidden h.isKeyed hs hn e now⟩,
    fun _ ht hl hl' => actsAlike_dispatch ha h h' e ht le_rfl hl hl',
    fun _ _ _ _ hj hr hp => hj.tenant_of_asked hr hp⟩

end Engine

/-- A tenant without rules does not find the rule of another tenant, as if nothing had its
identifier. If the rule is nested too deep, the storage is at fault instead. -/
theorem Engine.isolates_tenant_newcomer :
    (Sample.databaseEngine.answer .epoch (.getRule "globex" Sample.minutelyRule.id)).1 =
      .error (.notFound .rule Sample.minutelyRule.id) ∧
    (({ Sample.databaseEngine with store := Sample.minutelyDatabase } : Engine Database).answer
      .epoch (.getRule "globex" Sample.minutelyRule.id)).1 =
        .error (.notFound .rule Sample.minutelyRule.id) ∧
    (({ Sample.databaseEngine with store := Sample.nestedDatabase } : Engine Database).answer
      .epoch (.getRule "globex" Sample.nestedRule.id)).1 = .error .storage := by
  have hcreated : Sample.minutelyDatabase.Reachable := .createRule .empty Sample.minutelyRule rfl
  have hnested : Sample.nestedDatabase.Reachable := .createRule .empty Sample.nestedRule rfl
  have hshown : ¬Sample.minutelyDatabase.HidesRule "globex" Sample.minutelyRule.id := by
    rintro ⟨row, hm, -, -, hr⟩
    obtain rfl := List.mem_singleton.mp hm
    obtain ⟨r, hread⟩ := RuleRow.exists_read_of_legible ⟨_, Sample.meets_minutelyRule, rfl⟩
    exact hr r hread
  have hhidden : Sample.nestedDatabase.HidesRule "globex" Sample.nestedRule.id :=
    ⟨_, List.mem_singleton.mpr rfl, rfl, by decide, Sample.read_nestedRule⟩
  have hnone : ¬({} : Database).HidesRule "globex" Sample.minutelyRule.id := by
    rintro ⟨row, hm, -⟩
    exact List.not_mem_nil hm
  have hagree : ({} : Database).Agree "globex" Sample.minutelyDatabase := ⟨.of_eq rfl, rfl⟩
  obtain ⟨hrequests, -⟩ := isolates_tenant .empty hcreated hagree Sample.databaseEngine
  obtain ⟨halike, -, hmissing, -⟩ :=
    hrequests .epoch (.getRule "globex" Sample.minutelyRule.id) _ rfl
  have hself : Sample.nestedDatabase.Agree "globex" Sample.nestedDatabase := ⟨.refl _, rfl⟩
  obtain ⟨hlater, -⟩ := isolates_tenant hnested hnested hself Sample.databaseEngine
  obtain ⟨-, -, -, hlost⟩ := hlater .epoch (.getRule "globex" Sample.nestedRule.id) _ rfl
  have hfirst := congrArg Prod.fst (hmissing _ rfl (List.forall_mem_nil _) hnone)
  exact ⟨hfirst, (halike hnone hshown).result.symm.trans hfirst,
    congrArg Prod.fst (hlost hhidden)⟩

end RuleEngine
