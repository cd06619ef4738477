import RuleEngine.Store.Interface

/-!
# Scripts of store calls

An operation on rules is a script: it makes one call of the rule store, and goes on depending on
the answer. A script can be run at once, or one call at a time between the calls of others.
-/

namespace RuleEngine

/-- A call of a rule store. -/
inductive RuleCall where
  | create (r : Rule)
  | update (r : Rule)
  | delete (id : RuleId)
  | byId (id : RuleId)
  | byName (tenant : TenantId) (name : String)
  | list (tenant : TenantId)

namespace RuleCall

/-- What a call answers if it is not refused. -/
abbrev Answer : RuleCall → Type
  | .create _ | .update _ | .delete _ => Unit
  | .byId _ | .byName .. => Option Rule
  | .list _ => List Rule

/-- A changed store as the answer of a call, or the store unchanged beside the refusal. -/
def written {σ : Type} (s : σ) : Except EngineError σ → Except EngineError Unit × σ
  | .ok s => (.ok (), s)
  | .error e => (.error e, s)

/-- Makes a call. -/
def perform {σ : Type} [RuleStore σ] (s : σ) : (c : RuleCall) → Except EngineError c.Answer × σ
  | .create r => written s (RuleStore.createRule s r)
  | .update r => written s (RuleStore.updateRule s r)
  | .delete id => written s (RuleStore.deleteRule s id)
  | .byId id => (RuleStore.ruleById s id, s)
  | .byName tenant name => (RuleStore.ruleByName s tenant name, s)
  | .list tenant => (RuleStore.rulesOf s tenant, s)

end RuleCall

/-- A script of store calls with a result. -/
inductive RuleScript (α : Type) where
  | done (a : α)
  | call (c : RuleCall) (next : Except EngineError c.Answer → RuleScript α)

namespace RuleScript

variable {α β σ : Type}

/-- A script that goes on with another one. -/
def bind : RuleScript α → (α → RuleScript β) → RuleScript β
  | done a, f => f a
  | call c next, f => call c fun answer => (next answer).bind f

instance : Monad RuleScript where
  pure := done
  bind := bind

/-- The script after its next call. -/
def step [RuleStore σ] (s : σ) : RuleScript α → RuleScript α × σ
  | done a => (done a, s)
  | call c next =>
    let (answer, s) := c.perform s
    (next answer, s)

/-- Runs a script to its end. -/
def run [RuleStore σ] (s : σ) : RuleScript α → α × σ
  | done a => (a, s)
  | call c next =>
    let answered := c.perform s
    (next answered.1).run answered.2

end RuleScript

/-- A script that may be refused. -/
abbrev RuleOperation (α : Type) := ExceptT EngineError RuleScript α

namespace RuleOperation

/-- The operation that makes one call. -/
def ask (c : RuleCall) : RuleOperation c.Answer :=
  ExceptT.mk (.call c .done)

end RuleOperation

end RuleEngine
