import RuleEngine.Proofs.Schedule.Interleaving
import RuleEngine.Proofs.Service.Careful

/-!
# Rules in a shared database

Clients create, replace, switch, delete and seed rules in one database, while ticks of the scheduler
note minutes in it. They take turns, and each turn is one call of the database or of the queue. In
whichever order they come, the rules in the database have distinct identifiers, and distinct names
for each tenant, every one of them is accepted, and the kind in its row is that of its trigger. What
a call would do to a name that is taken is refused, and nothing is written.

The active rules of a kind can be listed as long as their rows can be read. A row cannot be read if
its lists are nested too deep, or if one of its times is of a year that has not four digits: the
scheduler notes the minute of any clock reading.

## Main definitions

* `RuleTask`: what a client asks to be done with rules.
* `SharedDatabase`, `RuleTurn`: a database on which tasks and ticks take turns.
* `Database.KeepsRules`: what holds of the rules in every state.

## Main results

* `Database.perform_of_doubles`: a name that is taken is refused.
* `SharedDatabase.Orderly.performAll`: every sequence of turns keeps the database up to a standard.
* `keepsRules_of_empty`: the rules in a database that was empty.
-/

namespace RuleEngine

open RuleScript

variable {std : RuleStandard}

/-! ### Tasks -/

/-- What a client whose clock shows `now` asks to be done with rules. -/
inductive RuleTask where
  | create (r : Rule) (now : Timestamp)
  | update (r : Rule) (now : Timestamp)
  | setActive (tenant : TenantId) (id : RuleId) (active : Bool) (now : Timestamp)
  | delete (tenant : TenantId) (id : RuleId)
  | seed (fresh : Nat → RuleId) (clock : Readings) (seeds : List RuleSeed)

namespace RuleTask

/-- What a task comes to. -/
abbrev Result : RuleTask → Type
  | create .. | update .. | setActive .. => Except EngineError Rule
  | delete .. => Except EngineError Unit
  | seed .. => Except SeedError Nat

/-- The calls of a task. -/
def script : (t : RuleTask) → RuleScript t.Result
  | create r now => ExceptT.run (RuleService.create r now)
  | update r now => ExceptT.run (RuleService.update r now)
  | setActive tenant id active now => ExceptT.run (RuleService.setActive tenant id active now)
  | delete tenant id => ExceptT.run (RuleService.delete tenant id)
  | seed fresh clock seeds => ExceptT.run (RuleSeed.saveAll fresh clock 0 seeds)

/-- Whether a task has come to a refusal; that of seeding names the definition that is refused. -/
def Refused : (t : RuleTask) → EngineError → t.Result → Prop
  | create .., e, a | update .., e, a | setActive .., e, a => a = .error e
  | delete .., e, a => a = .error e
  | seed .., e, a => ∃ name, a = .error (.refused name e)

/-- Whether what a task is given meets a standard, as far as it is accepted. -/
def Fits (std : RuleStandard) : RuleTask → Prop
  | create r now | update r now => (r.validate = .ok () → std.definition r) ∧ std.time now
  | setActive _ _ _ now => std.time now
  | delete .. => True
  | seed _ clock seeds =>
    (∀ s ∈ seeds, ∀ id n r, s.build id (clock.reading n) = .ok r → std.definition r) ∧
      ∀ n, std.time (clock.reading n)

/-- Every task is careful. -/
theorem careful_script {t : RuleTask} (h : t.Fits std) :
    Careful std t.Refused (fun _ => True) t.script := by
  cases t with
  | create r now => exact (RuleService.careful_create h.1 h.2).weaken
  | update r now => exact (RuleService.careful_update h.1 h.2).weaken
  | setActive tenant id active now =>
    exact (RuleService.careful_setActive tenant id active h).weaken
  | delete tenant id => exact (RuleService.careful_delete tenant id).weaken
  | seed fresh clock seeds => exact RuleSeed.careful_saveAll h.1 h.2 0

end RuleTask

/-- A task with the calls that it still makes. -/
structure OngoingTask where
  task : RuleTask
  script : RuleScript task.Result

/-! ### Names that are taken -/

namespace Database

variable {d : Database} {c : RuleCall}

/-- The rows of the rules as a call would write them, whatever names are taken. -/
def writtenRows (d : Database) : RuleCall → List RuleRow
  | .create r => d.rules ++ [.ofRule r]
  | .update r => d.rules.map fun row => if row.id = r.id then .ofRule r else row
  | .delete _ | .byId _ | .byName .. | .list _ => d.rules

/-- A call that would give a tenant two rules of one name is refused, and nothing is written. -/
theorem perform_of_doubles (h : d.IsKeyed)
    (hn : ¬((d.writtenRows c).map fun row => (row.tenant, row.name)).Nodup) :
    ∃ r, c.written? = some r ∧ c.perform d = (.error (.conflict .rule r.name), d) := by
  cases c with
  | create r =>
    refine ⟨r, rfl, ?_⟩
    have hw : RuleStore.createRule d r = d.insertRule r := h.answer_eq _
    rw [RuleCall.perform, hw, insertRule_eq]
    split
    · rfl
    · next hfree =>
      have hwritten : d.insertRule r = .ok { d with rules := d.rules ++ [.ofRule r] } :=
        (insertRule_eq d r).trans (if_neg hfree)
      exact absurd (h.insertRule hwritten).names hn
  | update r =>
    refine ⟨r, rfl, ?_⟩
    have hw : RuleStore.updateRule d r = d.replaceRule r := h.answer_eq _
    rw [RuleCall.perform, hw, replaceRule_eq]
    split
    · next hnone =>
      -- without a row to write nothing would change
      have hsame : d.writtenRows (.update r) = d.rules :=
        (List.map_congr_left fun row hm => if_neg (hnone row hm)).trans (List.map_id _)
      exact absurd (hsame ▸ h.names) hn
    · next hthere =>
      split
      · rfl
      · next hfree =>
        have hwritten := (replaceRule_eq d r).trans ((if_neg hthere).trans (if_neg hfree))
        exact absurd (h.replaceRule hwritten).names hn
  | delete | byId | byName | list => exact absurd h.names hn

end Database

/-! ### A shared database -/

/-- A database with the firings and the tasks that go on. -/
structure SharedDatabase extends Engine Database where
  firings : List FiringProgress := []
  tasks : List OngoingTask := []

/-- A turn: a task is begun, a task makes its next call, the scheduler looks at the clock, or a
firing makes its next step. -/
inductive RuleTurn where
  | begin (t : RuleTask)
  | call (i : Nat)
  | look (reading : Timestamp)
  | fire (i : Nat)

/-- Whether what a turn brings along meets a standard: a task, or the minute of a clock reading. -/
def RuleTurn.Fits (std : RuleStandard) : RuleTurn → Prop
  | .begin t => t.Fits std
  | .look reading => std.time reading.floorMinute
  | .call _ | .fire _ => True

namespace SharedDatabase

/-- The database after the next call of a task. -/
def call (e : SharedDatabase) (i : Nat) : SharedDatabase :=
  match e.tasks[i]? with
  | some o => { e with
      store := (o.script.step e.store).2
      tasks := e.tasks.set i ⟨o.task, (o.script.step e.store).1⟩ }
  | none => e

/-- The database after the next step of a firing. -/
def fire (e : SharedDatabase) (i : Nat) : SharedDatabase :=
  match e.firings[i]? with
  | some (.going f) =>
    let (progress, engine) := e.toEngine.stepFiring f
    { e with toEngine := engine, firings := e.firings.set i progress }
  | _ => e

/-- The database after a turn. -/
def perform (e : SharedDatabase) : RuleTurn → SharedDatabase
  | .begin t => { e with tasks := e.tasks ++ [⟨t, t.script⟩] }
  | .call i => e.call i
  | .look reading =>
    { e with
      clock := reading
      firings := e.firings ++ [SharedEngine.opening e.store reading] }
  | .fire i => e.fire i

/-- The database after turns one after the other. -/
def performAll (e : SharedDatabase) (turns : List RuleTurn) : SharedDatabase :=
  turns.foldl perform e

variable {e : SharedDatabase}

/-- Whether the rows of a database that can be reached are up to a standard, and so is all that is
still to be written: the rules of the tasks and the minutes of the firings. -/
structure Orderly (std : RuleStandard) (e : SharedDatabase) : Prop where
  reachable : e.store.Reachable
  rows : e.store.IsUpTo std
  tasks : ∀ o ∈ e.tasks, Careful std o.task.Refused (fun _ => True) o.script
  ticks : ∀ f, .going f ∈ e.firings → ∃ tick, f.cause = .tick tick ∧ std.time tick

theorem call_eq {i : Nat} {o : OngoingTask} (ho : e.tasks[i]? = some o) :
    e.call i = { e with
      store := (o.script.step e.store).2
      tasks := e.tasks.set i ⟨o.task, (o.script.step e.store).1⟩ } := by
  rw [call, ho]

/-- A call of a task keeps the order. -/
theorem Orderly.call (h : e.Orderly std) (i : Nat) : (e.call i).Orderly std := by
  cases ho : e.tasks[i]? with
  | none =>
    rw [SharedDatabase.call, ho]
    exact h
  | some o =>
    rw [call_eq ho]
    obtain ⟨hreachable, hrows, hcareful⟩ :=
      (h.tasks o (List.mem_of_getElem? ho)).step h.reachable h.rows
    refine ⟨hreachable, hrows, fun o' ho' => ?_, h.ticks⟩
    rcases List.mem_or_eq_of_mem_set ho' with ho' | rfl
    · exact h.tasks o' ho'
    · exact hcareful

/-- A task that would give a tenant two rules of one name is refused, and ends with the refusal. -/
theorem Orderly.refuses (h : e.Orderly std) {i : Nat} {o : OngoingTask} {c : RuleCall}
    {next : Except EngineError c.Answer → RuleScript o.task.Result}
    (ho : e.tasks[i]? = some o) (hc : o.script = .call c next)
    (hn : ¬((e.store.writtenRows c).map fun row => (row.tenant, row.name)).Nodup) :
    ∃ r result, c.written? = some r ∧ o.task.Refused (.conflict .rule r.name) result ∧
      (e.call i).store = e.store ∧ (e.call i).tasks[i]? = some ⟨o.task, .done result⟩ := by
  have hcareful := h.tasks o (List.mem_of_getElem? ho)
  rw [hc] at hcareful
  obtain ⟨r, hr, hperform⟩ := Database.perform_of_doubles h.reachable.isKeyed hn
  cases hcareful with
  | call hw _ =>
    obtain ⟨-, hend⟩ := hw r hr
    obtain ⟨result, hresult, hrefused⟩ := hend (.conflict .rule r.name)
    have hstep : o.script.step e.store = (.done result, e.store) := by
      rw [hc, RuleScript.step, hperform, ← hresult]
    have hi : i < e.tasks.length := (List.getElem?_eq_some_iff.mp ho).1
    refine ⟨r, result, hr, hrefused, ?_⟩
    rw [call_eq ho, hstep]
    exact ⟨rfl, List.getElem?_set_self hi⟩

/-- A step of the firing of a minute keeps the rows up to a standard that the minute meets. -/
theorem isUpTo_of_tickStep {d d' : Database} {q q' : JobQueue} {f : Firing} {tick : Timestamp}
    {progress : FiringProgress} (h : d.IsUpTo std) (ht : std.time tick)
    (hs : TickStep tick d q f progress d' q') : d'.IsUpTo std := by
  have hclaim {id : RuleId} {b : Bool} (hc : RuleStore.claimTick d id tick = .ok (b, d')) :
      d'.IsUpTo std := by
    have hd : d' = (d.claim id tick).2 :=
      (congrArg Prod.snd (Except.ok.inj (Database.answer_eq_ok hc))).symm
    exact hd ▸ h.claim id ht
  cases hs with
  | stop | submit => exact h
  | pass _ hc => exact hclaim hc
  | claim _ hc => exact hclaim hc
  | append _ ha => exact h.insertRecord (Database.answer_eq_ok ha)

theorem fire_eq {i : Nat} {f : Firing} (hf : e.firings[i]? = some (.going f)) :
    e.fire i = { e with
      store := (f.step e.nextId e.clock e.store e.queue).2.1
      queue := (f.step e.nextId e.clock e.store e.queue).2.2
      issued := e.issued + 1
      firings := e.firings.set i (f.step e.nextId e.clock e.store e.queue).1 } := by
  rw [fire, hf]
  rfl

/-- A step of a firing keeps the order. -/
theorem Orderly.fire (h : e.Orderly std) (i : Nat) : (e.fire i).Orderly std := by
  cases hfiring : e.firings[i]? with
  | none =>
    rw [SharedDatabase.fire, hfiring]
    exact h
  | some progress =>
    cases progress with
    | ended result =>
      rw [SharedDatabase.fire, hfiring]
      exact h
    | going f =>
      obtain ⟨tick, hcause, ht⟩ := h.ticks f (List.mem_of_getElem? hfiring)
      have hstep := tickStep_step hcause e.nextId e.clock e.store e.queue
      rw [fire_eq hfiring]
      refine ⟨h.reachable.stepFiring f _ _ _, isUpTo_of_tickStep h.rows ht hstep, h.tasks,
        fun f' hf' => ?_⟩
      rcases List.mem_or_eq_of_mem_set hf' with hf' | hf'
      · exact h.ticks f' hf'
      · rw [← hf'] at hstep
        exact ⟨tick, hstep.cause_eq.trans hcause, ht⟩

/-- A turn keeps the order, if what it brings along meets the standard. -/
theorem Orderly.perform (h : e.Orderly std) {turn : RuleTurn} (ht : turn.Fits std) :
    (e.perform turn).Orderly std := by
  cases turn with
  | begin t =>
    refine ⟨h.reachable, h.rows, fun o ho => ?_, h.ticks⟩
    rcases List.mem_append.mp ho with ho | ho
    · exact h.tasks o ho
    · obtain rfl := List.mem_singleton.mp ho
      exact RuleTask.careful_script ht
  | call i => exact h.call i
  | look reading =>
    refine ⟨h.reachable, h.rows, h.tasks, fun f hf => ?_⟩
    rcases List.mem_append.mp hf with hf | hf
    · exact h.ticks f hf
    · exact ⟨_, SharedEngine.opening_cause e.store reading (List.mem_singleton.mp hf).symm, ht⟩
  | fire i => exact h.fire i

/-- Every sequence of turns keeps the order. -/
theorem Orderly.performAll (h : e.Orderly std) {turns : List RuleTurn}
    (ht : ∀ turn ∈ turns, turn.Fits std) : (e.performAll turns).Orderly std := by
  induction turns generalizing e with
  | nil => exact h
  | cons turn rest ih =>
    obtain ⟨hturn, hrest⟩ := List.forall_mem_cons.mp ht
    exact ih (h.perform hturn) hrest

end SharedDatabase

/-! ### What is kept -/

/-- What holds of the rules of a database: their identifiers are distinct, and their names are for
each tenant; they are accepted, as they were written and as they are read back; and their rows tell
the kind of the stored trigger. The active rules of a kind are listed, each of them once, if all of
their rows can be read, and else the storage is at fault. -/
structure Database.KeepsRules (d : Database) : Prop where
  ids : (d.rules.map RuleRow.id).Nodup
  names : (d.rules.map fun row => (row.tenant, row.name)).Nodup
  written : ∀ row ∈ d.rules, ∃ r, r.validate = .ok () ∧ row = .ofRule r
  read : ∀ row ∈ d.rules, ∀ r, row.read = .ok r → r.validate = .ok ()
  kind : ∀ row ∈ d.rules, ∃ t, Column.structured Trigger.ofJson? row.trigger = .ok t ∧
    row.triggerKind = t.kind.name
  listed : ∀ tenant kind, (∀ row ∈ d.activeRows tenant kind, ∃ r, row.read = .ok r) →
    ∃ rules, RuleStore.activeRules d tenant kind = .ok rules ∧ (rules.map Rule.id).Nodup ∧
      ∀ r, r ∈ rules ↔ (∃ row ∈ d.rules, row.read = .ok r) ∧ r.active = true ∧
        r.trigger.kind = kind ∧ ∀ t, tenant = some t → r.tenant = t
  refused : ∀ tenant kind, (∃ row ∈ d.activeRows tenant kind, ∀ r, row.read ≠ .ok r) →
    RuleStore.activeRules d tenant kind = .error .storage

/-- A database up to the standard of accepted rules keeps them. -/
theorem Database.IsUpTo.keepsRules {d : Database} (h : d.IsUpTo .accepted) (hk : d.IsKeyed) :
    d.KeepsRules where
  ids := hk.ids
  names := hk.names
  written row hm := by
    obtain ⟨r, hr, rfl⟩ := h row hm
    exact ⟨r, hr.definition.valid, rfl⟩
  read row hm r hr := ((h row hm).meets hr).definition.valid
  kind row hm := by
    obtain ⟨r, hr, rfl⟩ := h row hm
    exact ⟨r.trigger, Column.structured_trigger hr.definition.cron, rfl⟩
  listed tenant kind := (h.activeRules hk tenant kind).1
  refused tenant kind := (h.activeRules hk tenant kind).2

/-- Rules in a database that was empty. Whichever tasks and ticks take turns on it, and in whichever
order, the rules are kept in every state. A write that would give a tenant two rules of one name is
refused as a conflict, the database is left as it is, and the task ends with this refusal. All rows
can be read, so that the active rules of every kind can be listed, as long as no rule is nested too
deep and all clocks, that of the scheduler included, show years of four digits. -/
theorem keepsRules_of_empty (e : SharedDatabase) (hs : e.store = {}) (hf : e.firings = [])
    (ht : e.tasks = []) (turns : List RuleTurn) (h : ∀ turn ∈ turns, turn.Fits .accepted) :
    (e.performAll turns).store.KeepsRules ∧
    ((∀ turn ∈ turns, turn.Fits .legible) →
      ∀ row ∈ (e.performAll turns).store.rules, ∃ r, row.read = .ok r) ∧
    ∀ i o c next, (e.performAll turns).tasks[i]? = some o → o.script = .call c next →
      ¬(((e.performAll turns).store.writtenRows c).map fun row => (row.tenant, row.name)).Nodup →
        ∃ r result, c.written? = some r ∧ o.task.Refused (.conflict .rule r.name) result ∧
          ((e.performAll turns).call i).store = (e.performAll turns).store ∧
          ((e.performAll turns).call i).tasks[i]? = some ⟨o.task, .done result⟩ := by
  have hstart (std : RuleStandard) : e.Orderly std := by
    refine ⟨hs ▸ .empty, ?_, ?_, ?_⟩
    · rw [Database.IsUpTo, hs]
      exact List.forall_mem_nil _
    · rw [ht]
      exact List.forall_mem_nil _
    · simp [hf]
  have horder := (hstart .accepted).performAll h
  refine ⟨horder.rows.keepsRules horder.reachable.isKeyed, fun hl row hm => ?_,
    fun i o c next ho hc hn => horder.refuses ho hc hn⟩
  exact RuleRow.exists_read_of_legible (((hstart .legible).performAll hl).rows row hm)

namespace Sample

/-- The rule of every minute under another identifier. -/
def rivalRule : Rule := { minutelyRule with id := .numbered 2 }

/-- A shared database without rules. -/
def sharedDatabase : SharedDatabase := { toEngine := databaseEngine }

/-- Two clients create a rule of one name: both find the name free, and one of them writes. -/
def race : List RuleTurn :=
  [.begin (.create minutelyRule .epoch), .begin (.create rivalRule .epoch), .call 0, .call 1,
    .call 0]

/-- A rule that is nested too deep is created. -/
def nestedCreation : List RuleTurn := [.begin (.create nestedRule .epoch), .call 0, .call 0]

end Sample

/-- Of two clients that create a rule of one name, the second one is refused. A rule that is nested
too deep is kept, but the active rules cannot be listed any more. -/
theorem keepsRules_of_empty_race :
    ((Sample.sharedDatabase.performAll Sample.race).call 1).tasks[1]? =
      some ⟨.create Sample.rivalRule .epoch,
        .done (.error (.conflict .rule "greet every minute"))⟩ ∧
    (Sample.sharedDatabase.performAll Sample.nestedCreation).store.KeepsRules ∧
      RuleStore.activeRules (Sample.sharedDatabase.performAll Sample.nestedCreation).store none
        .schedule = .error .storage := by
  have hminutely : Sample.minutelyRule.IsAccepted := Sample.meets_minutelyRule.definition.1
  have hrival : Sample.rivalRule.IsAccepted := ⟨by decide +kernel, hminutely.cron, hminutely.order⟩
  have hrace : ∀ turn ∈ Sample.race, turn.Fits .accepted := by
    simp only [Sample.race, List.forall_mem_cons]
    exact ⟨⟨fun _ => hminutely, trivial⟩, ⟨fun _ => hrival, trivial⟩, trivial, trivial, trivial,
      List.forall_mem_nil _⟩
  have hnested : Sample.nestedRule.IsAccepted := ⟨by decide +kernel, hminutely.cron, by decide⟩
  have hcreation : ∀ turn ∈ Sample.nestedCreation, turn.Fits .accepted := by
    simp only [Sample.nestedCreation, List.forall_mem_cons]
    exact ⟨⟨fun _ => hnested, trivial⟩, trivial, trivial, List.forall_mem_nil _⟩
  obtain ⟨-, -, hrefuses⟩ := keepsRules_of_empty Sample.sharedDatabase rfl rfl rfl _ hrace
  obtain ⟨hkeeps, -⟩ := keepsRules_of_empty Sample.sharedDatabase rfl rfl rfl _ hcreation
  refine ⟨?_, hkeeps, hkeeps.refused none .schedule ?_⟩
  · obtain ⟨r, result, hr, hrefused, -, hdone⟩ := hrefuses 1 _ _ _ rfl rfl (by decide +kernel)
    obtain rfl : RuleService.created Sample.rivalRule .epoch = r := Option.some.inj hr
    obtain rfl : result = .error (.conflict .rule "greet every minute") := hrefused
    exact hdone
  · exact ⟨_, List.mem_of_getElem? (i := 0) rfl, Sample.read_nestedRule⟩

end RuleEngine
