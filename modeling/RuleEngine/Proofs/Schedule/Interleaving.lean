import RuleEngine.Proofs.Schedule.ClaimAccount
import RuleEngine.Proofs.Schedule.Exactness

/-!
# Scheduling while rules are written

Ticks of the scheduler and the operations that replace the definition of a rule or switch it on or
off take turns, and each turn is one call of a store or of the queue. An operation writes the rule
that it has read, with the minute that was noted then. If a minute was claimed in between, the
minute noted before comes back, and the same minute can be claimed again. This is the only way to
come to two jobs for one minute: without it the jobs of a rule are of distinct minutes.

## Main definitions

* `TickStep`: what a step of the firing of a minute may do.
* `SharedEngine`, `Turn`: an engine on which ticks and operations take turns.
* `SharedEngine.Counted`: whether every job is of a claimed minute.

## Main results

* `SharedEngine.Counted.performAll`: every sequence of turns keeps the count.
* `firesOnce_or_claimedAgain`: jobs of distinct minutes, or a minute claimed again after its claim
  was overwritten.
-/

namespace RuleEngine

/-! ### The steps of a tick -/

section Tick

variable {σ : Type} [RuleStore σ] [ExecutionLog σ]
variable {s s' : σ} {q q' : JobQueue} {f : Firing} {tick : Timestamp}

/-- What a step of the firing of a minute may do. -/
inductive TickStep (tick : Timestamp) (s : σ) (q : JobQueue) (f : Firing) :
    FiringProgress → σ → JobQueue → Prop
  | stop (result : Except EngineError Nat) : TickStep tick s q f (.ended result) s q
  | pass {rule : Rule} {rest : List Rule} {s' : σ} (hs : f.stage = .choosing)
    (hc : RuleStore.claimTick s rule.id tick = .ok (false, s')) :
    TickStep tick s q f (.going { f with waiting := rest }) s' q
  | claim {rule : Rule} {rest : List Rule} {s' : σ} (hs : f.stage = .choosing)
    (hc : RuleStore.claimTick s rule.id tick = .ok (true, s')) :
    TickStep tick s q f (.going { f with waiting := rest, stage := .claimed rule }) s' q
  | append {rule : Rule} {job : Job} {s' : σ} (hs : f.stage = .claimed rule)
    (ha : ExecutionLog.appendRecord s job.record = .ok s') (hrule : job.rule = rule)
    (htick : job.tick? = some tick) :
    TickStep tick s q f (.going { f with stage := .holding job }) s' q
  | submit {job : Job} (hs : f.stage = .holding job) :
    TickStep tick s q f (.going { f with stage := .choosing, submitted := f.submitted + 1 }) s
      { q with jobs := q.jobs ++ [job] }

theorem tickStep_step (hf : f.cause = .tick tick) (fresh : ExecutionId) (now : Timestamp) (s : σ)
    (q : JobQueue) : TickStep tick s q f (f.step fresh now s q).1 (f.step fresh now s q).2.1
      (f.step fresh now s q).2.2 := by
  obtain ⟨cause, waiting, stage, submitted⟩ := f
  obtain rfl : cause = .tick tick := hf
  cases stage with
  | choosing =>
    cases waiting with
    | nil => exact .stop _
    | cons rule rest =>
      simp only [Firing.step]
      split
      · exact .stop _
      · next hc => exact .pass rfl hc
      · next hc => exact .claim rfl hc
  | claimed rule =>
    simp only [Firing.step, Firing.append]
    split
    · exact .stop _
    · next ha => exact .append rfl ha rfl rfl
  | holding job =>
    simp only [Firing.step, JobQueue.submit]
    by_cases ho : q.isOpen
    · rw [if_pos ho]
      exact .submit rfl
    · rw [if_neg ho]
      exact .stop _

/-- The minutes of a rule that a firing has claimed and not submitted. -/
def Firing.pending (id : RuleId) (f : Firing) : List Timestamp :=
  match f.stage, f.cause with
  | .claimed rule, .tick tick => if rule.id = id then [tick] else []
  | .holding job, _ => if job.rule.id = id then job.tick?.toList else []
  | _, _ => []

/-- The minutes of a rule that are claimed and not submitted. -/
def FiringProgress.pending (id : RuleId) : FiringProgress → List Timestamp
  | .going f => f.pending id
  | .ended _ => []

/-- To put one firing in the place of another changes the count by what they have pending. -/
theorem FiringProgress.count_flatMap_set {progress : FiringProgress}
    {firings : List FiringProgress} {i : Nat} (h : firings[i]? = some progress)
    (progress' : FiringProgress) (id : RuleId) (t : Timestamp) :
    ((firings.set i progress').flatMap (·.pending id)).count t + (progress.pending id).count t =
      (firings.flatMap (·.pending id)).count t + (progress'.pending id).count t := by
  induction firings generalizing i with
  | nil => cases h
  | cons first rest ih =>
    cases i with
    | zero =>
      cases h
      simp only [List.set_cons_zero, List.flatMap_cons, List.count_append]
      omega
    | succ i =>
      have := ih h
      simp only [List.set_cons_succ, List.flatMap_cons, List.count_append]
      omega

/-- What a step of a firing claims. -/
def Firing.claims (f : Firing) : FiringProgress → List Access
  | .going f' => match f.stage, f.cause, f'.stage with
    | .choosing, .tick tick, .claimed rule => [.claimed rule.id tick]
    | _, _, _ => []
  | .ended _ => []

/-- The minutes of the jobs for a rule. -/
def minutesOf (id : RuleId) (jobs : List Job) : List Timestamp :=
  (jobs.filter fun j => j.rule.id = id).filterMap Job.tick?

omit [RuleStore σ] [ExecutionLog σ] in
theorem Engine.ticks_eq_minutesOf (e : Engine σ) (id : RuleId) :
    e.ticks id = minutesOf id e.queue.jobs := rfl

/-- What a step submits was claimed before, and what it claims goes on to be submitted. -/
theorem TickStep.count_le {progress : FiringProgress} (h : TickStep tick s q f progress s' q')
    (hf : f.cause = .tick tick) (id : RuleId) (t : Timestamp) :
    (minutesOf id q'.jobs).count t + (progress.pending id).count t ≤
      (minutesOf id q.jobs).count t + (f.pending id).count t +
        (claimsOf id (f.claims progress)).count t := by
  cases h with
  | stop result =>
    rw [FiringProgress.pending, List.count_nil]
    omega
  | pass hs hc => simp [FiringProgress.pending, Firing.pending, hs]
  | @claim rule rest _ hs hc =>
    by_cases hid : rule.id = id <;>
      simp [FiringProgress.pending, Firing.pending, Firing.claims, claimsOf, hs, hf, hid]
  | @append rule job _ hs ha hrule htick =>
    by_cases hid : rule.id = id <;>
      simp [FiringProgress.pending, Firing.pending, hs, hf, hrule, htick, hid]
  | @submit job hs =>
    by_cases hid : job.rule.id = id
    · cases hj : job.tick? <;>
        simp [FiringProgress.pending, Firing.pending, minutesOf, hs, hid, hj]
    · simp [FiringProgress.pending, Firing.pending, minutesOf, hs, hid]

omit [RuleStore σ] [ExecutionLog σ] in
theorem Firing.eq_of_mem_claims {progress : FiringProgress} {id : RuleId} {t : Timestamp}
    (hf : f.cause = .tick tick) (h : .claimed id t ∈ f.claims progress) : t = tick := by
  unfold Firing.claims at h
  split at h
  · split at h
    · next hc _ =>
      cases hc.symm.trans hf
      cases List.mem_singleton.mp h
      rfl
    · cases h
  · cases h

theorem TickStep.cause_eq {f' : Firing} (h : TickStep tick s q f (.going f') s' q') :
    f'.cause = f.cause := by
  cases h <;> rfl

/-- A step of a firing keeps the account. -/
theorem Traced.tickStep [TickLedger σ] {α : Type} {progress : FiringProgress}
    {operations : List (RuleScript α)} {account : List Access} (h : Traced s operations account)
    (hstep : TickStep tick s q f progress s' q') (hf : f.cause = .tick tick) :
    Traced s' operations (account ++ f.claims progress) := by
  have hnone (h' : Traced s' operations account) (hc : f.claims progress = []) :
      Traced s' operations (account ++ f.claims progress) := by
    rw [hc, List.append_nil]
    exact h'
  cases hstep with
  | stop result => exact hnone h rfl
  | pass hs hc =>
    obtain ⟨hsound, hnoted⟩ := TickLedger.noted_claim_false h.sound hc
    exact hnone (h.of_noted_eq hsound hnoted) (by simp [Firing.claims, hs])
  | @claim rule rest _ hs hc =>
    have hone : f.claims (.going { f with waiting := rest, stage := .claimed rule }) =
        [.claimed rule.id tick] := by
      simp [Firing.claims, hs, hf]
    rw [hone]
    exact h.claim hc
  | append hs ha hrule htick =>
    obtain ⟨hsound, hnoted⟩ := TickLedger.noted_append h.sound ha
    exact hnone (h.of_noted_eq hsound hnoted) (by simp [Firing.claims, hs])
  | submit hs => exact hnone h (by simp [Firing.claims, hs])

end Tick

/-! ### Turns -/

/-- An engine with the firings and the operations that go on, and the account of them. -/
structure SharedEngine (σ : Type) extends Engine σ where
  firings : List FiringProgress := []
  operations : List (RuleScript (Except EngineError Rule)) := []
  account : List Access := []

/-- A turn: the scheduler looks at the clock, a firing makes its next step, an operation is started,
or an operation makes its next call. -/
inductive Turn where
  | look (reading : Timestamp)
  | fire (i : Nat)
  | update (r : Rule) (now : Timestamp)
  | setActive (tenant : TenantId) (id : RuleId) (active : Bool) (now : Timestamp)
  | manage (i : Nat)

/-- The clock reading of a look at the clock. -/
def Turn.reading? : Turn → Option Timestamp
  | .look reading => some reading
  | _ => none

namespace SharedEngine

variable {σ : Type} [RuleStore σ] [ExecutionLog σ]

/-- The firing of a clock reading as it starts. -/
def opening (s : σ) (reading : Timestamp) : FiringProgress :=
  match Firing.ofInstant s reading with
  | .ok f => .going f
  | .error error => .ended (.error error)

/-- The engine after a firing was started. -/
def look (e : SharedEngine σ) (reading : Timestamp) : SharedEngine σ :=
  { e with clock := reading, firings := e.firings ++ [opening e.store reading] }

/-- The engine after the next step of a firing. -/
def fire (e : SharedEngine σ) (i : Nat) : SharedEngine σ :=
  match e.firings[i]? with
  | some (.going f) =>
    let (progress, engine) := e.toEngine.stepFiring f
    { e with
      toEngine := engine
      firings := e.firings.set i progress
      account := e.account ++ f.claims progress }
  | _ => e

/-- The engine after an operation was started. -/
def start (e : SharedEngine σ) (operation : RuleOperation Rule) : SharedEngine σ :=
  { e with operations := e.operations ++ [ExceptT.run operation] }

/-- The engine after the next call of an operation. -/
def manage (e : SharedEngine σ) (i : Nat) : SharedEngine σ :=
  match e.operations[i]? with
  | some p =>
    { e with
      store := (p.step e.store).2
      operations := e.operations.set i (p.step e.store).1
      account := e.account ++ accesses i e.store p }
  | none => e

/-- The engine after a turn. -/
def perform (e : SharedEngine σ) : Turn → SharedEngine σ
  | .look reading => e.look reading
  | .fire i => e.fire i
  | .update r now => e.start (RuleService.update r now)
  | .setActive tenant id active now => e.start (RuleService.setActive tenant id active now)
  | .manage i => e.manage i

/-- The engine after turns one after the other. -/
def performAll (e : SharedEngine σ) (turns : List Turn) : SharedEngine σ := turns.foldl perform e

/-- Whether the jobs of a rule are of distinct minutes; for readings that a clock may show, at most
one is in each minute of universal time. -/
structure FiresOnce (e : SharedEngine σ) (readings : List Timestamp) (id : RuleId) : Prop where
  nodup : (e.ticks id).Nodup
  once : (∀ reading ∈ readings, reading.IsReading) →
    ∀ minute : Int, (e.ticks id).countP (·.second / 60 = minute) ≤ 1

variable [TickLedger σ] {e : SharedEngine σ} {readings : List Timestamp} {id : RuleId}
  {t : Timestamp}

/-- Whether the account is kept, every submitted or pending minute was claimed, and every minute is
that of a reading. -/
structure Counted (e : SharedEngine σ) (readings : List Timestamp) : Prop where
  traced : Traced e.store e.operations e.account
  counted : ∀ id t, (e.ticks id).count t + (e.firings.flatMap (·.pending id)).count t ≤
    (claimsOf id e.account).count t
  cause : ∀ f, .going f ∈ e.firings → ∃ reading ∈ readings, f.cause = .tick reading.floorMinute
  floors : ∀ id t, .claimed id t ∈ e.account → ∃ reading ∈ readings, t = reading.floorMinute

omit [ExecutionLog σ] [TickLedger σ] in
theorem pending_opening (s : σ) (reading : Timestamp) (id : RuleId) :
    (opening s reading).pending id = [] := by
  unfold opening Firing.ofInstant
  cases RuleStore.activeRules s none .schedule <;> rfl

omit [ExecutionLog σ] [TickLedger σ] in
theorem opening_cause (s : σ) (reading : Timestamp) {f : Firing}
    (h : opening s reading = .going f) : f.cause = .tick reading.floorMinute := by
  unfold opening Firing.ofInstant at h
  cases hl : RuleStore.activeRules s none .schedule with
  | error error =>
    rw [hl] at h
    cases h
  | ok rules =>
    rw [hl] at h
    cases h
    rfl

/-- A firing that starts has nothing pending. -/
theorem Counted.look (h : e.Counted readings) {reading : Timestamp} (hr : reading ∈ readings) :
    (e.look reading).Counted readings := by
  refine ⟨h.traced, fun id t => ?_, fun f hf => ?_, h.floors⟩
  · have hp := pending_opening e.store reading id
    change (e.ticks id).count t +
      ((e.firings ++ [opening e.store reading]).flatMap (·.pending id)).count t ≤ _
    rw [List.flatMap_append, List.flatMap_singleton, hp, List.append_nil]
    exact h.counted id t
  · rcases List.mem_append.mp hf with hf | hf
    · exact h.cause f hf
    · exact ⟨reading, hr, opening_cause e.store reading (List.mem_singleton.mp hf).symm⟩

omit [TickLedger σ] in
theorem fire_eq {i : Nat} {f : Firing} (hf : e.firings[i]? = some (.going f)) :
    e.fire i = { e with
      store := (f.step e.nextId e.clock e.store e.queue).2.1
      queue := (f.step e.nextId e.clock e.store e.queue).2.2
      issued := e.issued + 1
      firings := e.firings.set i (f.step e.nextId e.clock e.store e.queue).1
      account := e.account ++ f.claims (f.step e.nextId e.clock e.store e.queue).1 } := by
  rw [fire, hf]
  rfl

/-- A step of a firing keeps the count. -/
theorem Counted.fire (h : e.Counted readings) (i : Nat) : (e.fire i).Counted readings := by
  cases hfiring : e.firings[i]? with
  | none =>
    rw [SharedEngine.fire, hfiring]
    exact h
  | some progress =>
    cases progress with
    | ended result =>
      rw [SharedEngine.fire, hfiring]
      exact h
    | going f =>
      obtain ⟨reading, hr, hcause⟩ := h.cause f (List.mem_of_getElem? hfiring)
      have hstep := tickStep_step hcause e.nextId e.clock e.store e.queue
      rw [fire_eq hfiring]
      refine ⟨h.traced.tickStep hstep hcause, fun id t => ?_, fun f' hf' => ?_, fun id t ht => ?_⟩
      · have hcount := hstep.count_le hcause id t
        have hset := FiringProgress.count_flatMap_set hfiring
          (f.step e.nextId e.clock e.store e.queue).1 id t
        have hold := h.counted id t
        rw [FiringProgress.pending] at hset
        rw [Engine.ticks_eq_minutesOf] at hold
        rw [Engine.ticks_eq_minutesOf, claimsOf_append, List.count_append]
        dsimp only
        omega
      · rcases List.mem_or_eq_of_mem_set hf' with hf' | hf'
        · exact h.cause f' hf'
        · rw [← hf'] at hstep
          exact ⟨reading, hr, hstep.cause_eq.trans hcause⟩
      · rcases List.mem_append.mp ht with ht | ht
        · exact h.floors id t ht
        · exact ⟨reading, hr, Firing.eq_of_mem_claims hcause ht⟩

/-- An operation that starts with reading keeps the count. -/
theorem Counted.start (h : e.Counted readings) {operation : RuleOperation Rule}
    (hp : (ExceptT.run operation).Reads) : (e.start operation).Counted readings :=
  ⟨h.traced.start hp, h.counted, h.cause, h.floors⟩

/-- An operation claims nothing, so that its calls keep the count. -/
theorem Counted.manage (h : e.Counted readings) (i : Nat) : (e.manage i).Counted readings := by
  unfold SharedEngine.manage
  split
  · next p hp =>
    refine ⟨h.traced.manage hp, fun id t => ?_, h.cause, fun id t ht => ?_⟩
    · rw [claimsOf_append, claimsOf_accesses, List.append_nil]
      exact h.counted id t
    · rcases List.mem_append.mp ht with ht | ht
      · exact h.floors id t ht
      · exact absurd ht claimed_notMem_accesses
  · exact h

theorem Counted.perform (h : e.Counted readings) {turn : Turn}
    (hr : ∀ reading, turn = .look reading → reading ∈ readings) :
    (e.perform turn).Counted readings := by
  cases turn with
  | look reading => exact h.look (hr reading rfl)
  | fire i => exact h.fire i
  | update r now => exact h.start (RuleService.reads_update r now)
  | setActive tenant id active now =>
    exact h.start (RuleService.reads_setActive tenant id active now)
  | manage i => exact h.manage i

/-- Every sequence of turns keeps the count. -/
theorem Counted.performAll (h : e.Counted readings) {turns : List Turn}
    (hr : ∀ reading, .look reading ∈ turns → reading ∈ readings) :
    (e.performAll turns).Counted readings := by
  induction turns generalizing e with
  | nil => exact h
  | cons turn turns ih =>
    refine ih (h.perform fun reading ht => hr reading ?_) fun reading hmem => hr reading ?_
    · rw [ht]
      exact List.mem_cons_self
    · exact List.mem_cons_of_mem _ hmem

/-- Without jobs, firings and operations there is nothing to count. -/
theorem Counted.of_empty {engine : Engine σ} (hs : TickLedger.IsSound engine.store)
    (hj : engine.queue.jobs = []) (readings : List Timestamp) :
    Counted ({ toEngine := engine } : SharedEngine σ) readings where
  traced := by
    refine ⟨hs, fun _ _ h => ?_, fun _ _ h => ?_, fun _ => .inl List.nodup_nil⟩
    · cases h
    · cases h
  counted id t := by
    rw [Engine.ticks, hj]
    exact Nat.le_refl 0
  cause _ h := by cases h
  floors _ _ h := by cases h

/-- The jobs of a rule are of minutes that were claimed for it. -/
theorem Counted.count_ticks_le (h : e.Counted readings) (id : RuleId) (t : Timestamp) :
    (e.ticks id).count t ≤ (claimsOf id e.account).count t :=
  (Nat.le_add_right _ _).trans (h.counted id t)

theorem Counted.exists_reading (h : e.Counted readings) (ht : t ∈ e.ticks id) :
    ∃ reading ∈ readings, t = reading.floorMinute := by
  have hc := (List.count_pos_iff.mpr ht).trans_le (h.count_ticks_le id t)
  exact h.floors id t (mem_claimsOf.mp (List.count_pos_iff.mp hc))

/-- The jobs of a rule are of distinct minutes, unless a minute was claimed again. -/
theorem Counted.firesOnce_or (h : e.Counted readings) (id : RuleId) :
    e.FiresOnce readings id ∨ ClaimedAgain e.account id := by
  refine (h.traced.once id).imp_left fun hn => ?_
  have hnodup : (e.ticks id).Nodup := List.nodup_iff_count_le_one.mpr fun t =>
    (h.count_ticks_le id t).trans (List.nodup_iff_count_le_one.mp hn t)
  refine ⟨hnodup, fun hr => Timestamp.countP_minute_le_one hnodup fun t ht => ?_⟩
  obtain ⟨reading, hm, rfl⟩ := h.exists_reading ht
  exact (hr reading hm).isMinute

end SharedEngine

/-- Ticks and operations on rules take turns, in any order, from an engine without jobs. The jobs of
a rule are of distinct minutes, with at most one in each minute of universal time; or else a minute
was claimed again, after an operation that had looked before the first claim wrote the rule. This
holds in memory and in a database. -/
theorem firesOnce_or_claimedAgain (turns : List Turn) (id : RuleId) :
    (∀ e : Engine MemoryStore, e.queue.jobs = [] →
      (SharedEngine.performAll { toEngine := e } turns).FiresOnce
        (turns.filterMap Turn.reading?) id ∨
      ClaimedAgain (SharedEngine.performAll { toEngine := e } turns).account id) ∧
    ∀ e : Engine Database, e.store.KeepsTicks → e.queue.jobs = [] →
      (SharedEngine.performAll { toEngine := e } turns).FiresOnce
        (turns.filterMap Turn.reading?) id ∨
      ClaimedAgain (SharedEngine.performAll { toEngine := e } turns).account id := by
  have hreadings : ∀ reading, .look reading ∈ turns → reading ∈ turns.filterMap Turn.reading? :=
    fun reading hm => List.mem_filterMap.mpr ⟨_, hm, rfl⟩
  refine ⟨fun e hj => ?_, fun e hs hj => ?_⟩
  · exact ((SharedEngine.Counted.of_empty trivial hj _).performAll
      hreadings).firesOnce_or id
  · exact ((SharedEngine.Counted.of_empty hs hj _).performAll
      hreadings).firesOnce_or id

/-! ### A rule that is replaced during a tick -/

namespace Sample

/-- An engine that keeps the rule of every minute in memory. -/
def minutelyEngine : Engine MemoryStore := emptyEngine.perform (.create minutelyRule .epoch)

/-- An engine that keeps the rule of every minute in a database. -/
def minutelyDatabaseEngine : Engine Database :=
  databaseEngine.perform (.create minutelyRule .epoch)

/-- The rule of every minute is read to be replaced, a tick submits a job for it, the rule that was
read is written, and the clock is read again in the same minute. -/
def staleWrite : List Turn :=
  [.update minutelyRule (instant 10), .manage 0, .look (instant 20), .fire 0, .fire 0, .fire 0,
    .manage 0, .look (instant 40), .fire 1, .fire 1, .fire 1]

end Sample

/-- The rule of every minute gets two jobs for the first minute, in memory and in a database, and
this minute was claimed again. -/
theorem firesOnce_or_claimedAgain_staleWrite :
    ((SharedEngine.performAll { toEngine := Sample.minutelyEngine } Sample.staleWrite).ticks
        Sample.minutelyRule.id = [Sample.instant 0, Sample.instant 0] ∧
      ClaimedAgain (SharedEngine.performAll { toEngine := Sample.minutelyEngine }
        Sample.staleWrite).account Sample.minutelyRule.id) ∧
    (SharedEngine.performAll { toEngine := Sample.minutelyDatabaseEngine } Sample.staleWrite).ticks
        Sample.minutelyRule.id = [Sample.instant 0, Sample.instant 0] ∧
      ClaimedAgain (SharedEngine.performAll { toEngine := Sample.minutelyDatabaseEngine }
        Sample.staleWrite).account Sample.minutelyRule.id := by
  have hall := firesOnce_or_claimedAgain Sample.staleWrite Sample.minutelyRule.id
  have hmemory : (SharedEngine.performAll { toEngine := Sample.minutelyEngine }
      Sample.staleWrite).ticks Sample.minutelyRule.id =
      [Sample.instant 0, Sample.instant 0] := by decide +kernel
  have hdatabase : (SharedEngine.performAll { toEngine := Sample.minutelyDatabaseEngine }
      Sample.staleWrite).ticks Sample.minutelyRule.id =
      [Sample.instant 0, Sample.instant 0] := by decide +kernel
  have htwice : ¬ [Sample.instant 0, Sample.instant 0].Nodup := by decide
  have hkeeps : Sample.minutelyDatabaseEngine.store.KeepsTicks := by
    have hids : Sample.minutelyDatabaseEngine.store.rules.map RuleRow.id =
        [Sample.minutelyRule.id] := by decide +kernel
    have hnone : Sample.minutelyDatabaseEngine.store.rules.map RuleRow.lastTick = [none] := by
      decide +kernel
    refine ⟨?_, fun row hm text ht => ?_⟩
    · rw [hids]
      exact List.nodup_singleton _
    · have hrow : row.lastTick ∈ [none] := hnone ▸ List.mem_map_of_mem hm
      cases (List.mem_singleton.mp hrow).symm.trans ht
  refine ⟨⟨hmemory, (hall.1 _ (by decide +kernel)).resolve_left fun h => htwice ?_⟩, hdatabase,
    (hall.2 _ hkeeps (by decide +kernel)).resolve_left fun h => htwice ?_⟩
  · exact hmemory ▸ h.nodup
  · exact hdatabase ▸ h.nodup

end RuleEngine
