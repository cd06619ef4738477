import RuleEngine.Proofs.Run.Acceptance

/-!
# Actions one after the other

The actions of a rule are tried in ascending order, those of the same order in the order in which
the rule lists them, and the first one that does not succeed is the last one that is tried. What a
try comes to depends on the engine in which it is made, which may be another one each time: no
assumption is made on how the handlers, the clock or the log have changed in between. A run that
reaches its actions and whose writes are accepted leaves the steps of exactly these tries in its
record, calls the handlers of exactly these actions, and ends with the last of them. The numbers in
parameters are finite.

## Main definitions

* `Engine.ComesTo`: what the try of an action in an engine comes to.
* `Tried`: actions that are tried one after the other, up to the first that does not succeed.
* `ExecutionRecord.EndsWith`: a record that ends with the steps of such tries.
* `Job.IsDue`: a job that comes to its actions when it is run.

## Main results

* `Run.Path.tried`: a run that is at its actions tries them.
* `Job.tries_actions`: every job that reaches its actions tries them.
-/

namespace RuleEngine

/-! ### Tries of actions -/

section Tries

variable {σ : Type} (e : Engine σ) (context : TriggerContext) (a : Action)

/-- The call of the handler of an action in an engine, if there is a handler for its type. -/
def Engine.call? : Option HandlerCall :=
  (e.registry.get? a.actionType).map fun handler => (handler a.parameters context).madeAt e.clock

/-- What the try of an action in an engine comes to. What the handler reports counts if it reports
in time; everything else is a failure with a message that tells what it was. -/
inductive Engine.ComesTo : ActionOutcome → Prop
  | noHandler (h : e.call? context a = none) :
      ComesTo (.failure ("handler not found: " ++ a.actionType))
  | timeout {call : HandlerCall} (h : e.call? context a = some call)
      (ht : e.allowed < call.runtime) : ComesTo (.failure "timeout")
  | reported {call : HandlerCall} {o : ActionOutcome} (h : e.call? context a = some call)
      (ht : call.runtime ≤ e.allowed) (hr : call.reply = .outcome o) : ComesTo o
  | fault {call : HandlerCall} {message : String} (h : e.call? context a = some call)
      (ht : call.runtime ≤ e.allowed) (hr : call.reply = .fault message) :
      ComesTo (.failure message)
  | panicked {call : HandlerCall} (h : e.call? context a = some call)
      (ht : call.runtime ≤ e.allowed) (hr : call.reply = .crash) :
      ComesTo (.failure "handler panicked")

/-- Whether a step is that of the try of an action in an engine. -/
structure Engine.Tries (s : ActionStep) : Prop where
  action : s.action = a
  outcome : ∃ o, e.ComesTo context a o ∧ s.succeeded = o.succeeded ∧
    s.message = some o.message ∧ s.effect = o.effect
  startedAt : s.startedAt = e.clock

/-- The calls of handlers that the try of an action at a position comes to: one, if there is a
handler. -/
def Engine.callsFor (id : ExecutionId) (position : Nat) : List Invocation :=
  if (e.registry.get? a.actionType).isSome then [⟨id, position, a.actionType, a.parameters⟩] else []

/-- Actions that are tried one after the other from a position on, each in an engine of its own, up
to the first that does not succeed: the engines in which they are tried, their steps, and the calls
of handlers. -/
inductive Tried (context : TriggerContext) (id : ExecutionId) :
    Nat → List Action → List (Engine σ) → List ActionStep → List Invocation → Prop
  | none (position : Nat) : Tried context id position [] [] [] []
  | failed {position : Nat} {a : Action} (rest : List Action) {e : Engine σ} {s : ActionStep}
      (h : e.Tries context a s) (hs : s.succeeded = false) :
      Tried context id position (a :: rest) [e] [s] (e.callsFor a id position)
  | succeeded {position : Nat} {a : Action} {rest : List Action} {e : Engine σ} {s : ActionStep}
      {engines : List (Engine σ)} {steps : List ActionStep} {calls : List Invocation}
      (h : e.Tries context a s) (hs : s.succeeded = true)
      (later : Tried context id (position + 1) rest engines steps calls) :
      Tried context id position (a :: rest) (e :: engines) (s :: steps)
        (e.callsFor a id position ++ calls)

variable {e} {a}

/-- The reply to an action is what its try comes to. -/
theorem Engine.comesTo_reply (e : Engine σ) (r : Run) (a : Action) :
    e.ComesTo r.context a (e.reply r a) := by
  rw [reply_eq]
  cases h : e.registry.get? a.actionType with
  | none => exact .noHandler (by rw [call?, h, Option.map_none])
  | some handler =>
    have hcall : e.call? r.context a = some ((handler a.parameters r.context).madeAt e.clock) := by
      rw [call?, h, Option.map_some]
    dsimp only
    generalize (handler a.parameters r.context).madeAt e.clock = call at hcall
    unfold HandlerCall.outcome
    split
    · next ht => exact .timeout hcall ht
    · next ht =>
      have ht : call.runtime ≤ e.allowed := Nat.le_of_not_lt ht
      cases hr : call.reply with
      | outcome o => exact .reported hcall ht hr
      | fault message => exact .fault hcall ht hr
      | crash => exact .panicked hcall ht hr

theorem Engine.tries_reply (e : Engine σ) (r : Run) (a : Action) (now : Timestamp) :
    e.Tries r.context a (a.step (e.reply r a) e.clock now) where
  action := a.action_step _ _ _
  outcome := ⟨e.reply r a, e.comesTo_reply r a, a.succeeded_step _ _ _, rfl, rfl⟩
  startedAt := rfl

end Tries

/-- Whether a record ends with the steps of tries that came after a version: as completed if all
of them succeeded, and else as failed, with the message of the one that did not. -/
structure ExecutionRecord.EndsWith (v before : ExecutionRecord) (tried : List ActionStep) :
    Prop where
  steps : v.steps = before.steps ++ tried
  completed : v.status = .completed ↔ ∀ s ∈ tried, s.succeeded = true
  noError : v.status = .completed → v.error = before.error
  failed : ∀ s ∈ tried, s.succeeded = false → v.status = .failed ∧ v.error = s.message

namespace ExecutionRecord

/-- A record that ends without a further try is completed. -/
theorem endsWith_nil (v : ExecutionRecord) (now : Timestamp) :
    (v.moved .completed now).EndsWith v [] :=
  ⟨by simp, by simp, by simp, by simp⟩

/-- A try that succeeds comes before those that the record ends with. -/
theorem EndsWith.cons {v before : ExecutionRecord} {s : ActionStep} {tried : List ActionStep}
    (h : v.EndsWith { before with steps := before.steps ++ [s] } tried)
    (hs : s.succeeded = true) : v.EndsWith before (s :: tried) where
  steps := h.steps.trans (List.append_assoc _ _ _)
  completed := by rw [h.completed, List.forall_mem_cons, and_iff_right hs]
  noError := h.noError
  failed := List.forall_mem_cons.mpr ⟨fun hn => (nomatch hs.symm.trans hn), h.failed⟩

/-- A try that does not succeed is the last one, and its message is the error. -/
theorem endsWith_singleton (v : ExecutionRecord) {s : ActionStep} {message : String}
    (hs : s.succeeded = false) (hm : s.message = some message) (now : Timestamp) :
    ({ v with steps := v.steps ++ [s], error := some message }.moved .failed now).EndsWith v
      [s] where
  steps := rfl
  completed := by simp [hs]
  noError hn := nomatch hn
  failed := List.forall_mem_singleton.mpr fun _ => ⟨rfl, hm.symm⟩

end ExecutionRecord

namespace Run

variable {σ : Type} [ExecutionLog σ] {r : Run} {steps : List (Engine σ × Run)} {ending : RunEnding}

/-- The engine of a step in which an action is tried. -/
def caller? (x : Engine σ × Run) : Option (Engine σ) :=
  match x.2.stage with
  | .calling _ _ => some x.1
  | _ => none

/-- The engines in which the actions of a run are tried. -/
def callers (steps : List (Engine σ × Run)) : List (Engine σ) :=
  steps.filterMap caller?

/-- The calls of handlers in the steps of a run. -/
def calls (steps : List (Engine σ × Run)) : List Invocation :=
  (observed steps).filterMap RunEvent.call?

/-- Whether no write of the steps of a run is refused. -/
def IsAccepted (steps : List (Engine σ × Run)) : Prop :=
  ∀ v error, RunEvent.refused v error ∉ observed steps

/-- Whether a run reaches its actions. -/
def ReachesActions (steps : List (Engine σ × Run)) : Prop :=
  ∃ x ∈ steps, x.2.stage = .starting

theorem IsAccepted.tail {x : Engine σ × Run} (h : IsAccepted (x :: steps)) : IsAccepted steps :=
  fun v error hn => h v error (List.mem_append_right _ hn)

omit [ExecutionLog σ] in
theorem forall_mem_callers {P : Engine σ → Prop} (h : ∀ x ∈ steps, P x.1) :
    ∀ e ∈ callers steps, P e := by
  intro e he
  obtain ⟨x, hx, hcaller⟩ := List.mem_filterMap.mp he
  unfold caller? at hcaller
  split at hcaller
  · cases hcaller
    exact h x hx
  · cases hcaller

theorem calls_cons (x : Engine σ × Run) (steps : List (Engine σ × Run)) :
    calls (x :: steps) = (x.1.observe x.2).filterMap RunEvent.call? ++ calls steps :=
  List.filterMap_append

omit [ExecutionLog σ] in
theorem callers_cons (x : Engine σ × Run) (steps : List (Engine σ × Run)) :
    callers (x :: steps) = (caller? x).toList ++ callers steps := by
  cases h : caller? x <;> simp [callers, h]

/-- A run that ends makes a step, and goes on after it or ends with it. -/
theorem Path.exists_step (h : Path r steps (.ended ending)) :
    ∃ e later, steps = (e, r) :: later ∧
      ((∃ r', (e.stepRun r).1 = .going r' ∧ Path r' later (.ended ending)) ∨
        (e.stepRun r).1 = .ended ending ∧ later = []) := by
  cases h with
  | on e hstep later => exact ⟨e, _, rfl, .inl ⟨_, hstep, later⟩⟩
  | last e hstep => exact ⟨e, [], rfl, .inr ⟨hstep, rfl⟩⟩

/-! ### The steps of a run at its actions -/

/-- A run that has come to a write after its conditions, no write of which is refused, makes this
write in its next step. No action is tried in it. -/
theorem Path.exists_write (h : Path r steps (.ended ending)) (hr : r.IsSteady)
    (ha : IsAccepted steps)
    (hs : r.stage = .starting ∨ (∃ failure rest, r.stage = .noting failure rest) ∨
      ∃ failure, r.stage = .closing failure) :
    ∃ now later v p, r.Writes now v p ∧ calls steps = calls later ∧
      callers steps = callers later ∧ IsAccepted later ∧
      ((∃ r', p = .going r' ∧ Path r' later (.ended ending)) ∨ p = .ended ending ∧ later = []) := by
  obtain ⟨e, later, rfl, hnext⟩ := h.exists_step
  have hcaller : callers ((e, r) :: later) = callers later := by
    rw [callers_cons]
    rcases hs with hs | ⟨failure, rest, hs⟩ | ⟨failure, hs⟩ <;> simp [caller?, hs]
  have hobserved : ∀ v error, RunEvent.refused v error ∉ e.observe r :=
    fun v error hn => ha v error (List.mem_append_left _ hn)
  have hwrite : ∃ v, r.Writes e.clock v (e.stepRun r).1 ∧
      (e.observe r).filterMap RunEvent.call? = [] := by
    have hstep := e.runStep_stepRun r
    generalize e.observe r = events at hstep hobserved ⊢
    generalize (e.stepRun r).1 = p at hstep ⊢
    generalize (e.stepRun r).2 = e' at hstep
    cases hstep with
    | wrote hw => exact ⟨_, hw, rfl⟩
    | refused => exact absurd (List.mem_singleton_self _) (hobserved _ _)
    | unsteady fault hn => exact absurd hr hn
    | outOfTime ho | judged ho => simp [ho] at hs
    | carried a t now rest o ho => rcases ho with ho | ⟨u, ho⟩ <;> simp [ho] at hs
  obtain ⟨v, hw, hcalls⟩ := hwrite
  refine ⟨e.clock, later, v, _, hw, ?_, hcaller, ha.tail, hnext⟩
  rw [calls_cons, hcalls, List.nil_append]

/-- A run that closes its record ends with it. -/
theorem Path.closed {failure : Option String} (h : Path r steps (.ended ending)) (hr : r.IsSteady)
    (ha : IsAccepted steps) (hs : r.stage = .closing failure) :
    ∃ now, ending = .finished (({ r.record with error := failure <|> r.record.error }).moved
        (finalStatus failure) now) ∧ calls steps = [] ∧ callers steps = [] := by
  obtain ⟨now, later, v, p, hw, hcalls, hcallers, -, hnext⟩ :=
    h.exists_write hr ha (.inr (.inr ⟨failure, hs⟩))
  cases hw with
  | closing failure' hs' =>
    cases hs.symm.trans hs'
    obtain ⟨r', hp, -⟩ | ⟨hp, rfl⟩ := hnext
    · cases hp
    · cases hp
      exact ⟨now, rfl, hcalls, hcallers⟩
  | opening hs' | declining hs' | accepting hs' | parking _ _ hs' | starting hs' | noting _ _ hs' =>
    cases hs.symm.trans hs'

/-- A run that has noted the step of an action goes on with the next action, or closes. -/
theorem Path.noted {failure : Option String} {rest : List Action}
    (h : Path r steps (.ended ending)) (hr : r.IsSteady) (ha : IsAccepted steps)
    (hs : r.stage = .noting failure rest) :
    ∃ later, Path { r with stage := if failure.isSome then .closing failure else .before rest }
        later (.ended ending) ∧
      calls steps = calls later ∧ callers steps = callers later ∧ IsAccepted later := by
  obtain ⟨now, later, v, p, hw, hcalls, hcallers, hlater, hnext⟩ :=
    h.exists_write hr ha (.inr (.inl ⟨failure, rest, hs⟩))
  cases hw with
  | noting failure' rest' hs' =>
    cases hs.symm.trans hs'
    obtain ⟨r', hp, hpath⟩ | ⟨hp, -⟩ := hnext
    · cases hp
      exact ⟨later, hpath, hcalls, hcallers, hlater⟩
    · cases hp
  | opening hs' | declining hs' | accepting hs' | parking _ _ hs' | starting hs' | closing _ hs' =>
    cases hs.symm.trans hs'

/-- A run that has come to an action tries it, in the engine of its next step. -/
theorem Path.called {a : Action} {rest : List Action} (h : Path r steps (.ended ending))
    (ha : IsAccepted steps) (hs : r.stage = .calling a rest) :
    ∃ e now later, Path (r.answered a e.clock rest (e.reply r a) now) later (.ended ending) ∧
      calls steps = e.callsFor a r.record.id r.record.steps.length ++ calls later ∧
      callers steps = e :: callers later ∧ IsAccepted later := by
  obtain ⟨e, later, rfl, hnext⟩ := h.exists_step
  have hcalls : (e.observe r).filterMap RunEvent.call? =
      e.callsFor a r.record.id r.record.steps.length := by
    have hn : r.version? e.clock = none := by simp only [version?, hs]
    simp only [Engine.observe, hn, Engine.stepRun, hs, Engine.callsFor, Engine.callHandler]
    cases e.registry.get? a.actionType <;> simp [RunEvent.call?]
  rw [Engine.stepRun_calling hs] at hnext
  obtain ⟨r', hp, hpath⟩ | ⟨hp, -⟩ := hnext
  · cases hp
    refine ⟨e, _, later, hpath, ?_, ?_, ha.tail⟩
    · rw [calls_cons, hcalls]
    · rw [callers_cons, caller?, hs]
      rfl
  · cases hp

/-- A run that is at the first of several actions tries them one after the other. By induction on
the actions: the step of a try that succeeded is noted before the next one. -/
theorem Path.tried {actions : List Action} (h : Path r steps (.ended ending)) (hr : r.IsSteady)
    (ha : IsAccepted steps) (hs : r.stage = .before actions) :
    ∃ v tried, ending = .finished v ∧ v.EndsWith r.record tried ∧
      Tried r.context r.record.id r.record.steps.length actions (callers steps) tried
        (calls steps) := by
  induction actions generalizing r steps with
  | nil =>
    obtain ⟨now, rfl, hcalls, hcallers⟩ := h.closed hr ha hs
    refine ⟨_, [], rfl, r.record.endsWith_nil now, ?_⟩
    rw [hcalls, hcallers]
    exact .none _
  | cons a rest ih =>
    obtain ⟨e, now, later, hpath, hcalls, hcallers, hlater⟩ := h.called ha hs
    have hrun : r.record.status = .runningActions := hr.trans (by rw [hs]; rfl)
    have htries := e.tries_reply r a now
    have hsucceeded := a.succeeded_step (e.reply r a) e.clock now
    have hanswered := IsSteady.answered hrun a e.clock rest (e.reply r a) now
    obtain ⟨noted, hnoted, hcalls', hcallers', hlater⟩ := hpath.noted hanswered hlater rfl
    rw [hcalls, hcallers, hcalls', hcallers']
    cases ho : (e.reply r a).succeeded with
    | true =>
      simp only [ho, if_true, Option.isSome_none, Bool.false_eq_true, if_false] at hnoted
      have hsteady := hrun.trans (RunStage.status_before rest).symm
      obtain ⟨v, tried, rfl, hv, htried⟩ := ih hnoted hsteady hlater rfl
      refine ⟨v, _, rfl, hv.cons (hsucceeded.trans ho), .succeeded htries (hsucceeded.trans ho) ?_⟩
      simpa [answered] using htried
    | false =>
      simp only [ho, Bool.false_eq_true, if_false, Option.isSome_some, if_true] at hnoted
      obtain ⟨now', rfl, hcalls, hcallers⟩ := hnoted.closed hrun hlater rfl
      refine ⟨_, [_], rfl, r.record.endsWith_singleton (hsucceeded.trans ho) rfl now', ?_⟩
      rw [hcalls, hcallers, List.append_nil]
      exact .failed rest htries (hsucceeded.trans ho)

/-! ### The way to the actions -/

/-- A run that starts its actions tries all of them, in their order. -/
theorem Path.tried_of_starting (h : Path r steps (.ended ending)) (hr : r.IsSteady)
    (ha : IsAccepted steps) (hs : r.stage = .starting) :
    ∃ v tried, ending = .finished v ∧ v.EndsWith r.record tried ∧
      Tried r.context r.record.id r.record.steps.length r.rule.orderedActions (callers steps)
        tried (calls steps) := by
  obtain ⟨now, later, v, p, hw, hcalls, hcallers, hlater, hnext⟩ := h.exists_write hr ha (.inl hs)
  cases hw with
  | starting =>
    obtain ⟨r', hp, hpath⟩ | ⟨hp, -⟩ := hnext
    · cases hp
      obtain ⟨v, tried, hfinished, hv, htried⟩ :=
        hpath.tried (RunStage.status_before _).symm hlater rfl
      rw [hcalls, hcallers]
      exact ⟨v, tried, hfinished, ⟨hv.steps, hv.completed, hv.noError, hv.failed⟩, htried⟩
    · cases hp
  | opening hn | declining hn | accepting hn | parking _ _ hn | noting _ _ hn | closing _ hn =>
    cases hs.symm.trans hn

/-- Whether a run has come as far as another one that has not tried any action yet. -/
structure HasUntried (q r : Run) : Prop where
  stage : q.stage.isActing = false ∨ q.stage = .starting
  rule : q.rule = r.rule
  context : q.context = r.context
  id : q.record.id = r.record.id
  steps : q.record.steps = r.record.steps
  error : q.record.error = r.record.error

theorem HasUntried.refl (hs : r.stage.isActing = false ∨ r.stage = .starting) : r.HasUntried r :=
  ⟨hs, rfl, rfl, rfl, rfl, rfl⟩

theorem HasUntried.trans {q r r' : Run} (h : q.HasUntried r') (h' : r'.HasUntried r) :
    q.HasUntried r where
  stage := h.stage
  rule := h.rule.trans h'.rule
  context := h.context.trans h'.context
  id := h.id.trans h'.id
  steps := h.steps.trans h'.steps
  error := h.error.trans h'.error

/-- A step before the actions tries none and calls no handler. -/
theorem hasUntried_of_runStep {e e' : Engine σ} {r' : Run} {events : List RunEvent}
    (h : e.RunStep r events (.going r') e') (hs : r.stage.isActing = false) :
    r'.HasUntried r ∧ events.filterMap RunEvent.call? = [] := by
  generalize hp : RunProgress.going r' = p at h
  cases h with
  | wrote hw =>
    refine ⟨?_, rfl⟩
    cases hw with
    | opening => cases hp; exact ⟨.inl rfl, rfl, rfl, rfl, rfl, rfl⟩
    | accepting => cases hp; exact ⟨.inr rfl, rfl, rfl, rfl, rfl, rfl⟩
    | declining | parking | closing => cases hp
    | starting ho | noting _ _ ho =>
      rw [ho] at hs
      cases hs
  | refused | unsteady | outOfTime => cases hp
  | judged =>
    cases hp
    refine ⟨⟨?_, rfl, rfl, rfl, rfl, rfl⟩, rfl⟩
    unfold judged
    cases (r.rule.evaluate e.lookup r.context).passed <;> exact .inl rfl
  | carried a t now rest o ho =>
    rcases ho with ho | ⟨u, ho⟩ <;> rw [ho] at hs <;> cases hs

omit [ExecutionLog σ] in
theorem caller?_eq_none {x : Engine σ × Run} (hs : x.2.stage.isActing = false) :
    caller? x = none := by
  unfold caller?
  split
  · next h => rw [h] at hs; cases hs
  · rfl

/-- A run that reaches its actions is there after some steps in which nothing was tried. -/
theorem Path.exists_starting {p : RunProgress} (h : Path r steps p) (hr : r.IsSteady)
    (hs : r.stage.isActing = false ∨ r.stage = .starting) (hreach : ReachesActions steps)
    (ha : IsAccepted steps) :
    ∃ q later, Path q later p ∧ q.IsSteady ∧ q.stage = .starting ∧ q.HasUntried r ∧
      IsAccepted later ∧ calls steps = calls later ∧ callers steps = callers later := by
  induction h with
  | here r =>
    obtain ⟨x, hx, -⟩ := hreach
    cases hx
  | @on r r' later p e hstep hlater ih =>
    rcases hs with hs | hs
    · have hrun := e.runStep_stepRun r
      rw [hstep] at hrun
      obtain ⟨huntried, hcalls⟩ := hasUntried_of_runStep hrun hs
      have hreach : ReachesActions later := by
        obtain ⟨x, hx, hstarting⟩ := hreach
        rcases List.mem_cons.mp hx with rfl | hx
        · rw [hstarting] at hs
          cases hs
        · exact ⟨x, hx, hstarting⟩
      obtain ⟨q, last, hq, hsteady, hstarting, huntried', hlast, hcalls', hcallers⟩ :=
        ih (steady_of_runStep hrun hr).1 huntried.stage hreach ha.tail
      refine ⟨q, last, hq, hsteady, hstarting, huntried'.trans huntried, hlast, ?_, ?_⟩
      · rw [calls_cons, hcalls, List.nil_append, hcalls']
      · rw [callers_cons, caller?_eq_none hs, Option.toList_none, List.nil_append, hcallers]
    · exact ⟨r, _, .on e hstep hlater, hr, hs, .refl (.inr hs), ha, rfl, rfl⟩
  | @last r ending e hstep =>
    obtain ⟨x, hx, hstarting⟩ := hreach
    rw [List.mem_singleton] at hx
    subst hx
    exact ⟨r, _, .last e hstep, hr, hstarting, .refl (.inr hstarting), ha, rfl, rfl⟩

/-- Whether a run is bound for its actions: it has only writes before them, and conditions that are
met by what a lookup finds, and no delay. -/
def IsBound (lookup : Lookup) (r : Run) : Prop :=
  match r.stage with
  | .opening | .evaluating =>
    (r.rule.evaluate lookup r.context).passed = true ∧ r.rule.executionDelay = .none
  | .accepting => r.rule.executionDelay = .none
  | .starting => True
  | .declining | .calling .. | .awaiting .. | .noting .. | .closing _ => False

/-- A step of a run that is bound for its actions, with no refused write, leads on to them. -/
theorem IsBound.of_runStep {e e' : Engine σ} {events : List RunEvent} {p : RunProgress}
    (h : e.RunStep r events p e') (hr : r.IsSteady)
    (ha : ∀ v error, RunEvent.refused v error ∉ events) (hb : r.IsBound e.lookup)
    (hs : r.stage ≠ .starting) : ∃ r', p = .going r' ∧ r'.IsBound e.lookup := by
  unfold IsBound at hb
  cases h with
  | wrote hw =>
    cases hw with
    | opening ho =>
      rw [ho] at hb
      exact ⟨_, rfl, hb⟩
    | accepting ho hd => exact ⟨_, rfl, trivial⟩
    | parking d runAt ho hd =>
      rw [ho] at hb
      cases hd.symm.trans hb
    | starting ho => exact absurd ho hs
    | declining ho | noting failure rest ho | closing failure ho =>
      rw [ho] at hb
      exact hb.elim
  | refused => exact absurd (List.mem_singleton_self _) (ha _ _)
  | unsteady fault hn => exact absurd hr hn
  | outOfTime ho hd =>
    rw [ho] at hb
    exact absurd (.inl hb) hd
  | judged ho =>
    rw [ho] at hb
    refine ⟨_, rfl, ?_⟩
    simp only [judged, hb.1, if_true]
    exact hb.2
  | carried a t now rest o ho => rcases ho with ho | ⟨u, ho⟩ <;> rw [ho] at hb <;> exact hb.elim

/-- A run that is bound for its actions and ends, with no refused write, reaches them. -/
theorem Path.reachesActions {lookup : Lookup} {p : RunProgress} (h : Path r steps p)
    (hp : p = .ended ending) (hr : r.IsSteady) (ha : IsAccepted steps) (hb : r.IsBound lookup)
    (hl : ∀ x ∈ steps, x.1.lookup = lookup) : ReachesActions steps := by
  induction h with
  | here => cases hp
  | @on r r' later p e hstep hlater ih =>
    by_cases hs : r.stage = .starting
    · exact ⟨(e, r), .head _, hs⟩
    · obtain rfl := hl _ (.head _)
      have hrun := e.runStep_stepRun r
      rw [hstep] at hrun
      obtain ⟨q, hq, hbound⟩ := hb.of_runStep hrun hr
        (fun v error hn => ha v error (List.mem_append_left _ hn)) hs
      cases hq
      obtain ⟨x, hx, hstarting⟩ := ih hp (steady_of_runStep hrun hr).1 ha.tail hbound
        fun x hx => hl x (.tail _ hx)
      exact ⟨x, .tail _ hx, hstarting⟩
  | @last r ending e hstep =>
    refine ⟨(e, r), .head _, ?_⟩
    by_contra hs
    obtain rfl := hl _ (.head _)
    have hrun := e.runStep_stepRun r
    rw [hstep] at hrun
    obtain ⟨q, hq, -⟩ := hb.of_runStep hrun hr
      (fun v error hn => ha v error (List.mem_append_left _ hn)) hs
    cases hq

end Run

/-! ### Jobs -/

/-- Whether a job is to come to its actions in its next run: it has waited for them already, or its
conditions are met by what a lookup finds, and it need not wait. -/
def Job.IsDue (j : Job) (lookup : Lookup) : Prop :=
  j.record.status = .conditionsMet ∨
    j.record.status = .pending ∧ (j.rule.evaluate lookup j.context).passed = true ∧
      j.rule.executionDelay = .none

namespace Run

variable {σ : Type} [ExecutionLog σ] {r : Run} {steps : List (Engine σ × Run)} {ending : RunEnding}
  {j : Job}

theorem isBound_of_isDue (hj : Run.ofJob j = .ok r) {lookup : Lookup} (h : j.IsDue lookup) :
    r.IsBound lookup := by
  rcases ofJob_eq_ok_iff.mp hj with ⟨hs, rfl⟩ | ⟨hs, rfl⟩
  · rcases h with h | ⟨-, h⟩
    · cases hs.symm.trans h
    · exact h
  · trivial

/-- The run of a job that reaches its actions, with no refused write, tries them. -/
theorem Path.tried_of_job (hj : Run.ofJob j = .ok r) (h : Path r steps (.ended ending))
    (ha : IsAccepted steps) (hreach : ReachesActions steps) :
    ∃ v tried, ending = .finished v ∧ v.EndsWith j.record tried ∧
      Tried j.context j.record.id j.record.steps.length j.rule.orderedActions (callers steps)
        tried (calls steps) := by
  have hstage : r.stage.isActing = false ∨ r.stage = .starting := by
    rcases ofJob_eq_ok_iff.mp hj with ⟨-, rfl⟩ | ⟨-, rfl⟩
    · exact .inl rfl
    · exact .inr rfl
  obtain ⟨q, later, hq, hsteady, hstarting, huntried, hlater, hcalls, hcallers⟩ :=
    h.exists_starting (isSteady_of_ofJob hj) hstage hreach ha
  obtain ⟨v, tried, hfinished, hv, htried⟩ := hq.tried_of_starting hsteady hlater hstarting
  obtain rfl := job_of_ofJob hj
  rw [huntried.context, huntried.id, huntried.steps, huntried.rule] at htried
  rw [hcalls, hcallers]
  exact ⟨v, tried, hfinished, ⟨huntried.steps ▸ hv.steps, hv.completed, huntried.error ▸ hv.noError,
    hv.failed⟩, htried⟩

end Run

/-- An engine whose log holds the record of a job open, and that runs the job when it is due, makes
the steps of a path to its actions, no write of which is refused. -/
theorem Engine.exists_path_due {σ : Type} [ExecutionLog σ] [OpenLog σ] {e : Engine σ} {j : Job}
    (ho : OpenLog.HoldsOpen e.store j.record.id) (hdue : j.IsDue e.lookup) :
    ∃ r steps, Run.ofJob j = .ok r ∧ Run.Path r steps (.ended (e.run j).1) ∧
      Run.IsAccepted steps ∧ Run.ReachesActions steps ∧ (∀ x ∈ steps, e.SameMeans x.1) ∧
      (e.run j).2.invocations = e.invocations ++ Run.calls steps := by
  obtain ⟨r, hj⟩ : ∃ r, Run.ofJob j = .ok r := by
    rcases hdue with hs | ⟨hs, -⟩
    · exact ⟨_, Run.ofJob_eq_ok_iff.mpr (.inr ⟨hs, rfl⟩)⟩
    · exact ⟨_, Run.ofJob_eq_ok_iff.mpr (.inl ⟨hs, rfl⟩)⟩
  obtain ⟨steps, hpath, hengines, haccounts, -⟩ := e.exists_path_run hj
  have hsteady := Run.isSteady_of_ofJob hj
  have haccepted : Run.IsAccepted steps := hpath.accepted hsteady fun error hn =>
    (e.run_accepted hj ho).1 error (RunProgress.ended.inj hn)
  have hreach := hpath.reachesActions rfl hsteady haccepted (Run.isBound_of_isDue hj hdue)
    fun x hx => (hengines x hx).1.lookup
  exact ⟨r, steps, hj, hpath, haccepted, hreach, fun x hx => (hengines x hx).1, haccounts.2⟩

/-- The actions of every job. They are put in ascending order, those of the same order as the rule
lists them. However the handlers, the clock, the lookup and the log change between the steps of a
run, one that reaches its actions and none of whose writes is refused tries them in this order, up
to the first that does not succeed, and calls the handlers of no others; it ends with a record of
the steps of these tries, which is completed if all of them succeeded, and else failed with the
message of the last. An engine whose log holds the record of the job open comes to such an end, with
the handlers that it has. -/
theorem Job.tries_actions {σ : Type} [ExecutionLog σ] [OpenLog σ] (j : Job) :
    Action.IsOrdering j.rule.actions j.rule.orderedActions ∧
    (∀ (r : Run) (steps : List (Engine σ × Run)) (ending : RunEnding), Run.ofJob j = .ok r →
      Run.Path r steps (.ended ending) → Run.IsAccepted steps → Run.ReachesActions steps →
      ∃ v tried, ending = .finished v ∧ v.EndsWith j.record tried ∧
        Tried j.context j.record.id j.record.steps.length j.rule.orderedActions
          (Run.callers steps) tried (Run.calls steps)) ∧
    ∀ e : Engine σ, OpenLog.HoldsOpen e.store j.record.id → j.IsDue e.lookup →
      ∃ v tried calls engines, (e.run j).1 = .finished v ∧ v.EndsWith j.record tried ∧
        Tried j.context j.record.id j.record.steps.length j.rule.orderedActions engines tried
          calls ∧
        (∀ e' ∈ engines, e.SameMeans e') ∧ (e.run j).2.invocations = e.invocations ++ calls := by
  refine ⟨j.rule.isOrdering_orderedActions, fun r steps ending hj h ha hreach =>
    h.tried_of_job hj ha hreach, fun e ho hdue => ?_⟩
  obtain ⟨r, steps, hj, hpath, haccepted, hreach, hengines, hcalls⟩ :=
    Engine.exists_path_due ho hdue
  obtain ⟨v, tried, hv, hend, htried⟩ := hpath.tried_of_job hj haccepted hreach
  exact ⟨v, tried, _, _, hv, hend, htried, Run.forall_mem_callers hengines, hcalls⟩

/-! ### An action without a handler -/

namespace Sample

/-- A job that is to write a letter before it logs a greeting. -/
def letterJob : Job :=
  let rule := { rule with actions := [⟨1, Handler.logType, .empty⟩, ⟨0, "letter", .empty⟩] }
  ⟨rule, .ofChange order .epoch, record rule⟩

/-- An engine with the record of the job in its log, which has no handler that writes letters. -/
def letterless : Engine MemoryStore where
  store := ({} : MemoryStore).putRecord letterJob.record
  clock := .epoch
  registry := Dictionary.empty.insert Handler.logType Handler.log
  allowed := 1000

theorem orderedActions_letterJob :
    letterJob.rule.orderedActions = [⟨0, "letter", .empty⟩, ⟨1, Handler.logType, .empty⟩] := by
  simp [letterJob, Rule.orderedActions, List.mergeSort]

/-- The letter is the only action that is tried where nobody can write it. -/
theorem error_of_tried {engines : List (Engine MemoryStore)} {tried : List ActionStep}
    {calls : List Invocation} {v : ExecutionRecord} (hv : v.EndsWith letterJob.record tried)
    (h : Tried letterJob.context letterJob.record.id 0 letterJob.rule.orderedActions engines tried
      calls) (he : ∀ e ∈ engines, letterless.SameMeans e) :
    v.status = .failed ∧ v.error = some "handler not found: letter" ∧ calls = [] := by
  rw [orderedActions_letterJob] at h
  have hnone (e : Engine MemoryStore) (hm : letterless.SameMeans e) :
      e.registry.get? "letter" = none := by
    rw [hm.registry]
    rfl
  have hcomes {e : Engine MemoryStore} (hm : letterless.SameMeans e) {o : ActionOutcome}
      (ho : e.ComesTo letterJob.context ⟨0, "letter", .empty⟩ o) :
      o = .failure "handler not found: letter" := by
    have hcall : e.call? letterJob.context ⟨0, "letter", .empty⟩ = none := by
      rw [Engine.call?, hnone e hm, Option.map_none]
    cases ho with
    | noHandler => rfl
    | timeout h | reported h | fault h | panicked h => cases hcall.symm.trans h
  cases h with
  | @failed _ _ _ e s h hs =>
    have hm := he e (.head _)
    obtain ⟨o, ho, -, hmessage, -⟩ := h.outcome
    obtain ⟨hstatus, herror⟩ := hv.failed s (.head _) hs
    rw [herror, hmessage, hcomes hm ho, Engine.callsFor, hnone e hm]
    exact ⟨hstatus, rfl, rfl⟩
  | succeeded h hs =>
    obtain ⟨o, ho, hsucceeded, -⟩ := h.outcome
    rw [hcomes (he _ (.head _)) ho, hs] at hsucceeded
    cases hsucceeded

end Sample

/-- The greeting is not logged if nobody can write the letter, and the record tells why. -/
theorem Job.tries_actions_letterless :
    (∃ v, (Sample.letterless.run Sample.letterJob).1 = .finished v ∧ v.status = .failed ∧
      v.error = some "handler not found: letter") ∧
    (Sample.letterless.run Sample.letterJob).2.invocations = [] := by
  have ho : OpenLog.HoldsOpen Sample.letterless.store Sample.letterJob.record.id := ⟨_, rfl, rfl⟩
  have hdue : Sample.letterJob.IsDue Sample.letterless.lookup := .inr ⟨rfl, rfl, rfl⟩
  obtain ⟨-, hpaths, hengines⟩ := Job.tries_actions (σ := MemoryStore) Sample.letterJob
  constructor
  · obtain ⟨r, steps, hj, hpath, haccepted, hreach, hmeans, -⟩ := Engine.exists_path_due ho hdue
    obtain ⟨v, tried, hv, hend, htried⟩ := hpaths r steps _ hj hpath haccepted hreach
    have herror := Sample.error_of_tried hend htried (Run.forall_mem_callers hmeans)
    exact ⟨v, hv, herror.1, herror.2.1⟩
  · obtain ⟨v, tried, calls, engines, hv, hend, htried, hsame, hcalls⟩ :=
      hengines Sample.letterless ho hdue
    rw [hcalls, (Sample.error_of_tried hend htried hsame).2.2]
    rfl

end RuleEngine
