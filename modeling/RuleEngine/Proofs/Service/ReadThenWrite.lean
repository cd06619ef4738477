import RuleEngine.Service.Rules

/-!
# Rules that are read and then written

To replace the definition of a rule, or to switch it on or off, its tenant's operation reads the
stored rule by its identifier and later writes a rule under the same identifier. Between the two it
makes no other call but to look for a name. The minute of the scheduler in the rule that is written
is the one in the rule that was read, whatever has happened to the stored rule since.

## Main definitions

* `RuleScript.Writes`, `RuleScript.Reads`: what a script still does to a rule.

## Main results

* `RuleService.reads_update`, `RuleService.reads_setActive`: the operations read and then write.
-/

namespace RuleEngine

variable {α : Type}

namespace RuleScript

/-- Whether a script makes no more calls. -/
def IsDone (p : RuleScript α) : Prop := ∃ a, p = done a

/-- Whether a script at most looks for names and then writes a rule with a given minute. -/
inductive Writes (id : RuleId) (last : Option Timestamp) : RuleScript α → Prop
  | done (a : α) : Writes id last (done a)
  | search {tenant : TenantId} {name : String}
    {next : Except EngineError (Option Rule) → RuleScript α}
    (h : ∀ answer, Writes id last (next answer)) : Writes id last (call (.byName tenant name) next)
  | write {r : Rule} {next : Except EngineError Unit → RuleScript α} (hid : r.id = id)
    (hlast : r.lastTick = last) (h : ∀ answer, (next answer).IsDone) :
    Writes id last (call (.update r) next)

/-- Whether a script at most reads a rule and then writes one under its identifier, with the minute
of the rule that was read. -/
inductive Reads : RuleScript α → Prop
  | done (a : α) : Reads (done a)
  | read {id : RuleId} {next : Except EngineError (Option Rule) → RuleScript α}
    (h : ∀ r, r.id = id → Writes id r.lastTick (next (.ok (some r))))
    (hnone : (next (.ok none)).IsDone) (herror : ∀ e, (next (.error e)).IsDone) :
    Reads (call (.byId id) next)

end RuleScript

namespace RuleService

open RuleScript

variable {tenant : TenantId} {id : RuleId} {last : Option Timestamp} {r : Rule}

/-- An operation that starts by reading the rule of a tenant. -/
theorem reads_get_bind {k : Rule → RuleOperation α}
    (h : ∀ stored, stored.id = id → Writes id stored.lastTick (ExceptT.run (k stored))) :
    Reads (ExceptT.run (get tenant id >>= k)) := by
  refine .read (fun stored hid => ?_) ⟨_, rfl⟩ fun e => ⟨_, rfl⟩
  change Writes id stored.lastTick (RuleScript.bind (ExceptT.run
    (if stored.tenant = tenant then pure stored else throw (.notFound .rule id)))
    (ExceptT.bindCont k))
  split
  · exact h stored hid
  · exact .done _

/-- An operation that looks for another rule with the name. -/
theorem writes_ensureNameFree_bind {k : Unit → RuleOperation α}
    (h : Writes id last (ExceptT.run (k ()))) :
    Writes id last (ExceptT.run (ensureNameFree r >>= k)) := by
  refine .search fun answer => ?_
  cases answer with
  | error e => exact .done _
  | ok found =>
    cases found with
    | none => exact h
    | some other =>
      change Writes id last (RuleScript.bind (ExceptT.run
        (if other.id = r.id then pure () else throw (.conflict .rule r.name)))
        (ExceptT.bindCont k))
      split
      · exact h
      · exact .done _

/-- An operation that ends by writing a rule. -/
theorem writes_ask_update (hid : r.id = id) (hlast : r.lastTick = last) :
    Writes id last (ExceptT.run (do
      RuleOperation.ask (.update r)
      return r)) := by
  refine .write hid hlast fun answer => ?_
  cases answer with
  | error e => exact ⟨_, rfl⟩
  | ok _ => exact ⟨_, rfl⟩

/-- To replace a definition, the stored rule is read and then written. -/
theorem reads_update (r : Rule) (now : Timestamp) : Reads (ExceptT.run (update r now)) := by
  rw [update, check]
  cases r.validate with
  | error fault => exact .done _
  | ok _ =>
    refine reads_get_bind fun stored hid => ?_
    dsimp only
    split
    · exact writes_ensureNameFree_bind (writes_ask_update rfl rfl)
    · exact writes_ask_update rfl rfl

/-- To switch a rule on or off, the stored rule is read and then written. -/
theorem reads_setActive (tenant : TenantId) (id : RuleId) (active : Bool) (now : Timestamp) :
    Reads (ExceptT.run (setActive tenant id active now)) := by
  refine reads_get_bind fun stored hid => ?_
  dsimp only
  split
  · exact .done _
  · exact writes_ask_update hid rfl

end RuleService

end RuleEngine
