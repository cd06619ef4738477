import Mathlib.Data.List.InsertIdx
import RuleEngine.Proofs.Live.AtMostOnce
import RuleEngine.Proofs.Live.Trace

/-!
# The pool

A job passes from the queue into the hand of the pool, from there into a slot, and from a slot to
its end or to a sleeper, which submits it again. However the parts of an engine take turns, and
whenever it is told to stop or its queue is closed, the pool keeps its order: no more jobs are run
at once than there are slots, one that sleeps has no slot, jobs are received in the order in which
they were submitted, and each of them is handed to a run once. What the pool leaves behind is not
run any more, and its records keep their statuses. The pool is gone when it has its slots back. It
asks back as many as 32 bits count and no more, so with more slots it may be gone while jobs are
still being run.

## Main definitions

* `Places`, `Places.Step`: where a job is on its way, and what a move does to these places.
* `LiveEngine.receipts`, `LiveEngine.handovers`: the job that the pool takes out of the queue, and
  the one that it hands to a run.
* `LiveEngine.PoolOrder`: the order that a pool keeps in a life.
* `LiveEngine.PoolRest`: what becomes of the records of the jobs that are not being run.

## Main results

* `LiveEngine.step_make`: every move but a restart is a step of the places.
* `LiveEngine.isGone_iff`: the pool is gone when it has left and no more jobs are being run than
  there are slots which it does not ask back.
* `LiveEngine.pool_of_life`: the pool keeps its order, and what is not being run rests.
-/

namespace RuleEngine

/-! ### Places on the way through the pool -/

/-- The places of a job on its way through the pool: the queue, the hand of the pool, the slots,
and the sleepers. A slot shows the identifier of the record that is being run in it. -/
structure Places where
  slots : Nat
  queue : JobQueue
  isReceiving : Bool
  held : Option Job
  busy : List ExecutionId
  asleep : List Job

namespace Places

/-- What a move does to the places, and the jobs that it adds to the queue, takes out of the queue,
and hands to a run. -/
inductive Step (p : Places) : List Job → List Job → List Job → Places → Prop
  | still : Step p [] [] [] p
  | submitted (jobs asleep : List Job) (ho : p.queue.isOpen = true)
      (hs : asleep.Sublist p.asleep) :
      Step p jobs [] []
        { p with queue := { p.queue with jobs := p.queue.jobs ++ jobs }, asleep }
  | refused (asleep : List Job) (ho : p.queue.isOpen = false) (hs : asleep.Sublist p.asleep) :
      Step p [] [] [] { p with asleep }
  | closed : Step p [] [] [] { p with queue := p.queue.close }
  | received (job : Job) (rest : List Job) (hr : p.isReceiving = true) (hh : p.held = none)
      (hq : p.queue.jobs = job :: rest) :
      Step p [] [job] [] { p with queue := { p.queue with jobs := rest }, held := some job }
  | employed (job : Job) (busy : List ExecutionId) (hh : p.held = some job)
      (hb : p.busy.length < p.slots) (hn : busy = p.busy ++ [job.record.id] ∨ busy = p.busy) :
      Step p [] [] [job] { p with held := none, busy }
  | left (hh : p.held = none) :
      Step p [] [] [] { p with isReceiving := false, queue := p.queue.close }
  | parked (i : Nat) (job : Job) (hi : p.busy[i]? = some job.record.id)
      (hj : job.record.status = .conditionsMet) :
      Step p [] [] [] { p with busy := p.busy.eraseIdx i, asleep := p.asleep ++ [job] }
  | ended (i : Nat) : Step p [] [] [] { p with busy := p.busy.eraseIdx i }

/-- Whether no more jobs are being run than there are slots, a pool that has left holds no job and
has closed the queue, and those that sleep are parked. -/
structure Orderly (p : Places) : Prop where
  bounded : p.busy.length ≤ p.slots
  left : p.isReceiving = false → p.held = none ∧ p.queue.isOpen = false
  parked : ∀ j ∈ p.asleep, j.record.status = .conditionsMet

namespace Step

variable {p p' : Places} {submitted received handed : List Job}

theorem slots_eq (h : p.Step submitted received handed p') : p'.slots = p.slots := by
  cases h <;> rfl

/-- Only a parked job goes to sleep. -/
theorem status_asleep (h : p.Step submitted received handed p')
    (hp : ∀ j ∈ p.asleep, j.record.status = .conditionsMet) :
    ∀ j ∈ p'.asleep, j.record.status = .conditionsMet := by
  cases h with
  | submitted jobs asleep ho hs => exact fun j hj => hp j (hs.subset hj)
  | refused asleep ho hs => exact fun j hj => hp j (hs.subset hj)
  | parked i job hi hj =>
    intro j hm
    rcases List.mem_append.mp hm with hm | hm
    · exact hp j hm
    · exact List.mem_singleton.mp hm ▸ hj
  | _ => exact hp

theorem orderly (h : p.Step submitted received handed p') (ho : p.Orderly) :
    p'.Orderly := by
  have hp := h.status_asleep ho.parked
  obtain ⟨hb, hl, -⟩ := ho
  have herase (i : Nat) : (p.busy.eraseIdx i).length ≤ p.slots :=
    (p.busy.eraseIdx_sublist i).length_le.trans hb
  cases h with
  | still | submitted | refused => exact ⟨hb, hl, hp⟩
  | closed => exact ⟨hb, fun hr => ⟨(hl hr).1, rfl⟩, hp⟩
  | received job rest hr hh hq => exact ⟨hb, fun hn => by simp [hr] at hn, hp⟩
  | employed job busy hh hlt hn =>
    refine ⟨?_, fun hr => ⟨rfl, (hl hr).2⟩, hp⟩
    rcases hn with rfl | rfl
    · rw [List.length_append, List.length_singleton]
      exact hlt
    · exact hb
  | left hh => exact ⟨hb, fun _ => ⟨hh, rfl⟩, hp⟩
  | parked i | ended i => exact ⟨herase i, hl, hp⟩

/-- The queue gives back its jobs in the order in which they came. -/
theorem queue_account (h : p.Step submitted received handed p') :
    p.queue.jobs ++ submitted = received ++ p'.queue.jobs := by
  cases h with
  | received job rest hr hh hq => simp [hq]
  | submitted jobs asleep ho hs => rfl
  | _ => exact List.append_nil _

/-- A job that is received stays in the hand of the pool until it is handed to a run. -/
theorem held_account (h : p.Step submitted received handed p') :
    p.held.toList ++ received = handed ++ p'.held.toList := by
  cases h with
  | received job rest hr hh hq => simp [hh]
  | employed job busy hh hb hn => simp [hh]
  | _ => exact List.append_nil _

/-- The slots are taken by jobs that were handed over, each of them once, in their order. -/
theorem busy_sublist (h : p.Step submitted received handed p') {ids : List ExecutionId}
    (hs : p.busy.Sublist ids) : p'.busy.Sublist (ids ++ handed.map (·.record.id)) := by
  have herase (i : Nat) : (p.busy.eraseIdx i).Sublist ids := (p.busy.eraseIdx_sublist i).trans hs
  cases h with
  | employed job busy hh hb hn =>
    rcases hn with rfl | rfl
    · exact hs.append (List.Sublist.refl _)
    · exact hs.trans (List.sublist_append_left _ _)
  | parked i job hi hj => exact (herase i).trans (List.sublist_append_left _ _)
  | ended i => exact (herase i).trans (List.sublist_append_left _ _)
  | _ => exact hs.trans (List.sublist_append_left _ _)

/-- A job goes to sleep when its slot becomes free. -/
theorem length_busy (h : p.Step submitted received handed p')
    (hs : p.asleep.length < p'.asleep.length) : p'.busy.length + 1 = p.busy.length := by
  cases h with
  | parked i job hi hj =>
    obtain ⟨hlt, -⟩ := List.getElem?_eq_some_iff.mp hi
    rw [List.length_eraseIdx_of_lt hlt]
    omega
  | submitted jobs asleep ho hsub => exact absurd hsub.length_le (Nat.not_le.mpr hs)
  | refused asleep ho hsub => exact absurd hsub.length_le (Nat.not_le.mpr hs)
  | _ => exact absurd hs (lt_irrefl _)

/-- A pool that has left takes no job and starts none. -/
theorem of_left (h : p.Step submitted received handed p') (ho : p.Orderly)
    (hl : p.isReceiving = false) :
    p'.isReceiving = false ∧ submitted = [] ∧ received = [] ∧ handed = [] ∧
      p'.busy.Sublist p.busy := by
  obtain ⟨hh, hq⟩ := ho.left hl
  cases h with
  | submitted jobs asleep hopen hs => simp [hq] at hopen
  | received job rest hr => simp [hl] at hr
  | employed job busy hheld => simp [hh] at hheld
  | left => exact ⟨rfl, rfl, rfl, rfl, .refl _⟩
  | parked i | ended i => exact ⟨hl, rfl, rfl, rfl, p.busy.eraseIdx_sublist i⟩
  | still | refused | closed => exact ⟨hl, rfl, rfl, rfl, .refl _⟩

end Step

end Places

/-! ### Moves of an engine -/

/-- What a worker carries on is its own record, which is parked if it is put to sleep. -/
theorem Worker.Move.id_next {σ : Type} [ExecutionLog σ] {e : Engine σ} {w : Worker} {s : σ}
    {calls : List Invocation} {next : Multiset Holder} (hm : w.Move e s calls next) :
    ∀ x ∈ next, x.id = w.run.record.id ∧
      ∀ j, x = .waiting j → j.record.status = .conditionsMet := by
  cases hm with
  | judged | called | invoked | answered => simp [Holder.id, Holder.job, Run.job, Run.judged, Run.called, Run.answered]
  | refused | unsteady | outOfTime => simp
  | @wrote v p s hw ho =>
    cases p with
    | going r =>
      simpa [RunProgress.carriedOn, Holder.id, Holder.job, Run.job, hw.going_eq.2.2] using hw.id_eq
    | ended ending =>
      cases ending with
      | deferred job runAt =>
        obtain ⟨rfl, hj⟩ := hw.deferred_eq
        simpa [RunProgress.carriedOn, Holder.id, Holder.job] using ⟨hw.id_eq, hj⟩
      | finished _ | refused _ | outOfTime => simp [RunProgress.carriedOn]

namespace LiveEngine

variable {σ : Type}

/-- The places of the jobs of an engine on their way through the pool. -/
def places (e : LiveEngine σ) : Places where
  slots := e.slots
  queue := e.queue
  isReceiving := e.isReceiving
  held := e.held
  busy := e.workers.map (·.run.record.id)
  asleep := e.sleepers.map Sleeper.job

/-- The job that the pool takes out of the queue in an event. -/
def receipts (e : LiveEngine σ) : LiveEvent → List Job
  | .receive => e.queue.jobs.take 1
  | _ => []

/-- The job that the pool hands to a run in an event. -/
def handovers (e : LiveEngine σ) : LiveEvent → List Job
  | .employ => e.held.toList
  | _ => []

variable [RuleStore σ] [ExecutionLog σ]

omit [RuleStore σ] in
/-- A worker goes on in its slot, or gives it back; then its job may go to sleep. -/
private theorem step_work {e : LiveEngine σ} {i : Nat} {w : Worker} (h : e.workers[i]? = some w) :
    e.places.Step [] [] [] (e.work i w).places := by
  obtain ⟨calls, hm, -, -⟩ := e.move_workStep w
  obtain ⟨engine, he, hq⟩ := e.workStep_engine w
  have hid := hm.id_next
  have hi : e.places.busy[i]? = some w.run.record.id := by simp [places, h]
  unfold work
  rcases hr : e.workStep w with ⟨p, w', e'⟩
  simp only [hr] at hid he
  subst he
  cases p with
  | going r =>
    obtain ⟨hlt, hget⟩ := List.getElem?_eq_some_iff.mp hi
    have hset : (e.workers.set i { w' with run := r }).map (·.run.record.id) = e.places.busy := by
      have hrecord : r.record.id = w.run.record.id :=
        (hid (.working { w' with run := r }) (Multiset.mem_singleton_self _)).1
      rw [List.map_set, hrecord, ← hget]
      exact List.set_getElem_self hlt
    simp only [places, hset, hq]
    exact .still
  | ended ending =>
    have herase : (e.workers.eraseIdx i).map (·.run.record.id) = e.places.busy.eraseIdx i :=
      (List.eraseIdx_map _ e.workers i).symm
    cases ending with
    | deferred job runAt =>
      obtain ⟨hj, hs⟩ := hid (.waiting job) (Multiset.mem_singleton_self _)
      simp only [places, herase, hq, List.map_append, List.map_cons, List.map_nil]
      exact .parked i job (hi.trans (congrArg some hj.symm)) (hs job rfl)
    | finished _ | refused _ | outOfTime =>
      simp only [places, herase, hq]
      exact .ended i

omit [RuleStore σ] [ExecutionLog σ] in
/-- A sleeper wakes, or leaves its place when it submits its job. -/
private theorem step_wake {e : LiveEngine σ} {i : Nat} {s : Sleeper} (h : e.sleepers[i]? = some s) :
    e.places.Step (e.submissions (.wake i)) [] [] (e.wake i s).places := by
  obtain ⟨hlt, hget⟩ := List.getElem?_eq_some_iff.mp h
  have hsub : ((e.sleepers.eraseIdx i).map Sleeper.job).Sublist e.places.asleep :=
    (e.sleepers.eraseIdx_sublist i).map Sleeper.job
  unfold wake
  by_cases ha : s.isAwake = true
  · rw [if_pos ha]
    by_cases ho : e.queue.isOpen = true
    · have hq : e.queue.submit s.job = .ok { e.queue with jobs := e.queue.jobs ++ [s.job] } :=
        if_pos ho
      have hj : e.submissions (.wake i) = [s.job] := by simp [submissions, offered, h, ha, ho]
      rw [hj, hq]
      exact .submitted [s.job] _ ho hsub
    · have hq : e.queue.submit s.job = .error .queueClosed := if_neg ho
      rw [submissions, if_neg ho, hq]
      exact .refused _ (Bool.eq_false_iff.mpr ho) hsub
  · have hset : (e.sleepers.set i { s with isAwake := true }).map Sleeper.job = e.places.asleep := by
      rw [List.map_set]
      refine Eq.trans ?_ (List.set_getElem_self (by simpa [places] using hlt))
      simp [places, hget]
    simp only [submissions, offered, h, ha, Option.filter_some, Bool.false_eq_true, if_false,
      Option.toList_none, List.map_nil, ite_self, places, hset]
    exact .still

/-- A producer submits the job that it holds, if the queue is open. -/
private theorem step_stepFiring (e : LiveEngine σ) (f : Firing) :
    e.places.Step (if e.queue.isOpen then (Producer.busy f).offer else []) [] []
      { e.places with queue := (e.toEngine.stepFiring f).2.queue } := by
  have hqueue : (e.toEngine.stepFiring f).2.queue = _ :=
    f.queue_step e.nextId e.clock e.store e.queue
  rw [hqueue]
  by_cases ho : e.queue.isOpen = true
  · rw [if_pos ho, if_pos ho]
    exact .submitted _ e.places.asleep ho (List.Sublist.refl _)
  · rw [if_neg ho, if_neg ho]
    exact .still

/-- Every move but a restart moves one job at most, from one of the places to the next one. -/
theorem step_make (e : LiveEngine σ) (move : LiveMove) (hr : move ≠ .event .restart) :
    e.places.Step (e.sightings submissions move) (e.sightings receipts move)
      (e.sightings handovers move) (e.make move).places := by
  cases move with
  | surroundings registry lookup => exact .still
  | event event =>
    simp only [sightings, make, perform]
    by_cases hp : e.isPossible event = true
    · simp only [hp, if_true]
      cases event with
      | dispatch =>
        simp only [carryOut]
        cases hd : e.dispatcher with
        | busy f =>
          have hstep := e.step_stepFiring f
          rw [← hd] at hstep
          exact hstep
        | idle | gone => 
          simp only [submissions, offered, hd, Producer.offer, ite_self]
          exact .still
      | schedule =>
        simp only [carryOut]
        cases hs : e.scheduler with
        | busy f =>
          have hstep := e.step_stepFiring f
          rw [← hs] at hstep
          exact hstep
        | idle | gone => 
          simp only [submissions, offered, hs, Producer.offer, ite_self]
          exact .still
      | work i =>
        simp only [carryOut, submissions, offered, ite_self]
        split
        · next w hw => exact step_work hw
        · exact .still
      | wake i =>
        simp only [carryOut]
        split
        · next s hs => exact step_wake hs
        · next hs =>
          simp only [submissions, offered, hs, Option.filter_none, Option.toList_none, List.map_nil, ite_self]
          exact .still
      | receive =>
        simp only [isPossible, Bool.and_eq_true, Option.isNone_iff_eq_none] at hp
        simp only [carryOut, receive, JobQueue.next?, submissions, offered, receipts, ite_self]
        cases hq : e.queue.jobs with
        | nil => exact .still
        | cons job rest => exact .received job rest hp.1.1 hp.1.2 hq
      | employ =>
        simp only [isPossible, Bool.and_eq_true, decide_eq_true_eq] at hp
        obtain ⟨job, hh⟩ := Option.isSome_iff_exists.mp hp.1
        have hlt : e.places.busy.length < e.slots := by simpa [places] using hp.2
        simp only [carryOut, hh, submissions, offered, handovers, ite_self]
        unfold employ
        split
        · next run hrun =>
          have hid : run.record.id = job.record.id :=
            congrArg (·.record.id) (Run.job_of_ofJob hrun)
          simp only [places, List.map_append, List.map_cons, List.map_nil, hid]
          exact .employed job _ hh hlt (.inl rfl)
        · exact .employed job _ hh hlt (.inr rfl)
      | leave =>
        simp only [isPossible, Bool.and_eq_true, Option.isNone_iff_eq_none] at hp
        simp only [submissions, offered, ite_self]
        exact .left hp.1.2
      | closeQueue =>
        simp only [submissions, offered, ite_self]
        exact .closed
      | restart => exact absurd rfl hr
      | ingest =>
        simp only [carryOut, ingest, submissions, offered, ite_self]
        split <;> exact .still
      | listen =>
        simp only [carryOut, listen, submissions, offered, ite_self]
        split <;> exact .still
      | retire =>
        simp only [carryOut, retire, submissions, offered, ite_self]
        split <;> exact .still
      | abandon =>
        simp only [carryOut, abandonOpen, Engine.abandon, submissions, offered, ite_self]
        split <;> exact .still
      | look | publish n | closeFeed | setClock t | pass ms | stop =>
        simp only [submissions, offered, ite_self]
        exact .still
    · simp only [hp, Bool.false_eq_true, if_false]
      exact .still

/-! ### Lives of a pool -/

/-- Whether the pool of an engine has not run any job: it receives jobs, and has none in its hand,
in a slot or asleep. -/
structure PoolIsNew (e : LiveEngine σ) : Prop where
  isReceiving : e.isReceiving = true
  held : e.held = none
  workers : e.workers = []
  sleepers : e.sleepers = []

/-- Whether the pool has kept its order in a life. -/
structure PoolOrder (e : LiveEngine σ) (moves : List LiveMove) : Prop where
  /-- No more jobs are being run than there are slots. -/
  bounded : (e.life moves).workers.length ≤ e.slots
  /-- A job goes to sleep only when its slot becomes free. -/
  parked : ∀ before move, before ++ [move] <+: moves →
    (e.life before).sleepers.length < ((e.life before).make move).sleepers.length →
      ((e.life before).make move).workers.length + 1 = (e.life before).workers.length
  /-- Jobs are received in the order in which they were submitted. -/
  received : e.queue.jobs ++ along submissions e moves =
    along receipts e moves ++ (e.life moves).queue.jobs
  /-- Every job that was received was handed to a run once, or is the one in the hand. -/
  handed : along receipts e moves = along handovers e moves ++ (e.life moves).held.toList
  /-- What is being run was handed over, each job of it once. -/
  running : ((e.life moves).workers.map (·.run.record.id)).Sublist
    ((along handovers e moves).map (·.record.id))
  /-- The pool leaves with an empty hand, and the queue takes no jobs from then on. -/
  left : (e.life moves).isReceiving = false →
    (e.life moves).held = none ∧ (e.life moves).queue.isOpen = false
  /-- When the pool has left no job is submitted, received or handed to a run any more. -/
  ended : ∀ before after, moves = before ++ after → (e.life before).isReceiving = false →
    (e.life moves).isReceiving = false ∧ along submissions (e.life before) after = [] ∧
      along receipts (e.life before) after = [] ∧ along handovers (e.life before) after = []
  /-- The pool is gone as soon as it has left and at most as many jobs are being run as there are
  slots which it does not ask back. -/
  gone : (e.life moves).isGone = true ↔ (e.life moves).isReceiving = false ∧
    (e.life moves).workers.length ≤ e.slots - mostAwaited
  /-- If it asks all slots back, it is gone only when no job is being run. -/
  finished : e.slots ≤ mostAwaited → (e.life moves).isGone = true → (e.life moves).workers = []

variable {e : LiveEngine σ} {moves : List LiveMove}

/-- The places stay orderly, and the number of slots stays. -/
private theorem orderly_life (h : e.PoolIsNew) (hr : LiveMove.event .restart ∉ moves) :
    (e.life moves).places.Orderly ∧ (e.life moves).slots = e.slots := by
  refine life_induction (P := fun now => now.places.Orderly ∧ now.slots = e.slots) ⟨?_, rfl⟩
    fun now move hm ih => ?_
  · obtain ⟨hreceiving, hheld, hworkers, hsleepers⟩ := h
    exact ⟨by simp [places, hworkers], by simp [places, hreceiving], by simp [places, hsleepers]⟩
  · have hstep := now.step_make move fun he => hr (he ▸ hm)
    exact ⟨hstep.orderly ih.1, hstep.slots_eq.trans ih.2⟩

/-- If no job sleeps at first, only parked jobs ever do. -/
theorem status_of_mem_sleepers (h : e.sleepers = []) (hr : LiveMove.event .restart ∉ moves) :
    ∀ s ∈ (e.life moves).sleepers, s.job.record.status = .conditionsMet := by
  have hparked : ∀ j ∈ (e.life moves).places.asleep, j.record.status = .conditionsMet := by
    refine life_induction (P := fun now => ∀ j ∈ now.places.asleep,
      j.record.status = .conditionsMet) (by simp [places, h]) fun now move hm ih => ?_
    exact (now.step_make move fun he => hr (he ▸ hm)).status_asleep ih
  exact fun s hs => hparked s.job (List.mem_map_of_mem hs)

/-- When the pool has left, nothing comes to it any more, and its slots become free only. -/
private theorem still_of_left (ho : e.places.Orderly) (hl : e.isReceiving = false)
    (hr : LiveMove.event .restart ∉ moves) :
    (e.life moves).places.Orderly ∧ (e.life moves).isReceiving = false ∧
      along submissions e moves = [] ∧ along receipts e moves = [] ∧ along handovers e moves = [] ∧
      (e.life moves).places.busy.Sublist e.places.busy := by
  induction moves using List.reverseRecOn with
  | nil => exact ⟨ho, hl, rfl, rfl, rfl, .refl _⟩
  | append_singleton before move ih =>
    obtain ⟨ho', hl', hs, hrec, hh, hbusy⟩ := ih fun hm => hr (List.mem_append_left _ hm)
    have hstep := (e.life before).step_make move fun he => hr (by simp [he])
    obtain ⟨hl'', hs', hrec', hh', hbusy'⟩ := hstep.of_left ho' hl'
    simp only [along_concat, life_concat, hs, hs', hrec, hrec', hh, hh', List.append_nil]
    exact ⟨hstep.orderly ho', hl'', trivial, trivial, trivial, hbusy'.trans hbusy⟩

/-- What is being run was handed over, each job of it once and in this order. -/
private theorem busy_sublist_life (h : e.PoolIsNew) (hr : LiveMove.event .restart ∉ moves) :
    (e.life moves).places.busy.Sublist ((along handovers e moves).map (·.record.id)) := by
  induction moves using List.reverseRecOn with
  | nil => simp [life, places, h.workers]
  | append_singleton before move ih =>
    have hstep := (e.life before).step_make move fun he => hr (by simp [he])
    rw [along_concat, life_concat, List.map_append]
    exact hstep.busy_sublist (ih fun hm => hr (List.mem_append_left _ hm))

omit [RuleStore σ] [ExecutionLog σ] in
/-- The pool is gone when it has left and no more jobs are being run than it leaves slots. -/
theorem isGone_iff : e.isGone = true ↔
    e.isReceiving = false ∧ e.workers.length ≤ e.slots - mostAwaited := by
  simp only [isGone, Bool.and_eq_true, Bool.not_eq_true', decide_eq_true_eq]
  refine and_congr_right fun _ => ?_
  omega

/-- The pool keeps its order in every life without a restart. -/
theorem poolOrder_of_life (h : e.PoolIsNew) (hr : LiveMove.event .restart ∉ moves) :
    e.PoolOrder moves := by
  have hstep (before : List LiveMove) (move : LiveMove) (hp : before ++ [move] <+: moves) :=
    (e.life before).step_make move fun he => hr (hp.subset (by simp [he]))
  obtain ⟨ho, hslots⟩ := orderly_life h hr
  have hgone : (e.life moves).isGone = true ↔ (e.life moves).isReceiving = false ∧
      (e.life moves).workers.length ≤ e.slots - mostAwaited := hslots ▸ isGone_iff
  refine ⟨?_, fun before move hp hs => ?_,
    along_account (fun e : LiveEngine σ => e.queue.jobs)
      fun b m hp => (hstep b m hp).queue_account,
    ?_, busy_sublist_life h hr, ho.left, ?_, hgone, fun hle hg => ?_⟩
  · simpa [places, hslots] using ho.bounded
  · simpa [places] using (hstep before move hp).length_busy (by simpa [places] using hs)
  · have := along_account (fun e : LiveEngine σ => e.held.toList)
      fun b m hp => (hstep b m hp).held_account
    simpa [h.held] using this
  · rintro before after rfl hl
    have hbefore : LiveMove.event .restart ∉ before := fun hm => hr (List.mem_append_left _ hm)
    have hafter : LiveMove.event .restart ∉ after := fun hm => hr (List.mem_append_right _ hm)
    obtain ⟨-, hl', hs, hrec, hh, -⟩ := still_of_left (orderly_life h hbefore).1 hl hafter
    rw [life_append]
    exact ⟨hl', hs, hrec, hh⟩
  · have hle' := (hgone.mp hg).2
    rw [Nat.sub_eq_zero_of_le hle] at hle'
    exact List.length_eq_zero_iff.mp (Nat.le_zero.mp hle')

/-! ### Records of a pool -/

variable [StatusLog σ] {e' : LiveEngine σ} {event : LiveEvent}

/-- The status of a record that no worker is at stays, unless records are abandoned. -/
theorem Change.status_eq (hc : Change e event e') (hd : e'.HasDistinctIds) {id : ExecutionId}
    (hi : ∃ i < e.issued, id = .numbered i) (hw : ∀ w ∈ e.workers, w.run.record.id ≠ id)
    (ha : event ≠ .abandon) (hr : event ≠ .restart) :
    StatusLog.status? e'.store id = StatusLog.status? e.store id := by
  cases hc with
  | quiet hu | listed _ _ hu | employed _ _ _ _ hu | lost _ hu => exact hu.status_eq id
  | fired rule context now hm hc ho hh hi' hn =>
    obtain ⟨i, hlt, rfl⟩ := hi
    rw [StatusLog.status_append ho, if_neg]
    exact hd i e.issued hlt (by omega)
  | worked w calls next others hm hmem => exact hm.status_of_ne (hw w hmem).symm
  | abandoned => exact absurd rfl ha
  | restarted => exact absurd rfl hr

/-- Whether the records of the jobs that are not being run rest in a life. -/
structure PoolRest (e : LiveEngine σ) (moves : List LiveMove) : Prop where
  /-- No job is asleep and in a slot at once. -/
  apart : ∀ s ∈ (e.life moves).sleepers, ∀ w ∈ (e.life moves).workers,
    w.run.record.id ≠ s.job.record.id
  /-- The record of a job that sleeps says that its conditions are met. -/
  asleep : ∀ s ∈ (e.life moves).sleepers, s.job.record.status = .conditionsMet ∧
    StatusLog.status? (e.life moves).store s.job.record.id = some .conditionsMet
  /-- A job that waits when the pool has left is not run any more, and its record keeps the status
  that it has in the log. -/
  waiting : ∀ before after, moves = before ++ after → (e.life before).isReceiving = false →
    ∀ j ∈ (e.life before).waitingJobs,
      (∀ w ∈ (e.life moves).workers, w.run.record.id ≠ j.record.id) ∧
      StatusLog.status? (e.life before).store j.record.id = some j.record.status ∧
      StatusLog.status? (e.life moves).store j.record.id = some j.record.status
  /-- The queue refuses a job that wakes when the pool has left, and its record keeps the status
  with which it was parked. -/
  refused : ∀ before after, moves = before ++ after → (e.life before).isReceiving = false →
    ∀ s ∈ (e.life before).sleepers, (e.life before).queue.submit s.job = .error .queueClosed ∧
      StatusLog.status? (e.life moves).store s.job.record.id = some .conditionsMet

/-- No job waits and is in a slot at once. -/
theorem Linked.id_ne (h : e.Linked) {j : Job} (hj : j ∈ e.waitingJobs) {w : Worker}
    (hw : w ∈ e.workers) : w.run.record.id ≠ j.record.id := by
  have hids := h.nodup_ids
  rw [holders, Multiset.map_add, Multiset.nodup_add] at hids
  have hwaiting : j.record.id ∈ (e.waitingJobs.map Holder.waiting).map Holder.id :=
    Multiset.mem_map_of_mem Holder.id (Multiset.mem_map_of_mem Holder.waiting hj)
  have hworking : w.run.record.id ∈
      ((e.workers : Multiset Worker).map Holder.working).map Holder.id :=
    Multiset.mem_map_of_mem Holder.id (Multiset.mem_map_of_mem Holder.working hw)
  exact fun he => Multiset.disjoint_left.mp hids.2.2 hwaiting (he ▸ hworking)

omit [RuleStore σ] [ExecutionLog σ] [StatusLog σ] in
theorem mark_waiting {j : Job} (hj : j ∈ e.waitingJobs) :
    (j, j.record.steps.length) ∈ e.marks :=
  Multiset.mem_map.mpr ⟨.waiting j,
    Multiset.mem_add.mpr (.inl (Multiset.mem_map_of_mem Holder.waiting hj)), rfl⟩

/-- When the pool has left, a record that no worker is at gets none any more, and keeps its
status. -/
private theorem rests_of_left (ho : e.places.Orderly) (hl : e.isReceiving = false)
    (hr : LiveMove.event .restart ∉ moves) (ha : LiveMove.event .abandon ∉ moves)
    (hd : (e.life moves).HasDistinctIds) {id : ExecutionId}
    (hi : ∃ i < e.issued, id = .numbered i) (hw : ∀ w ∈ e.workers, w.run.record.id ≠ id) :
    (∀ w ∈ (e.life moves).workers, w.run.record.id ≠ id) ∧
      StatusLog.status? (e.life moves).store id = StatusLog.status? e.store id := by
  have hfree (before : List LiveMove) (hm : LiveMove.event .restart ∉ before) :
      ∀ w ∈ (e.life before).workers, w.run.record.id ≠ id := by
    intro w hmem he
    obtain ⟨-, -, -, -, -, hbusy⟩ := still_of_left ho hl hm
    have hmem' : w.run.record.id ∈ e.places.busy :=
      hbusy.subset (List.mem_map_of_mem (f := fun w : Worker => w.run.record.id) hmem)
    obtain ⟨w', hw', he'⟩ := List.mem_map.mp hmem'
    exact hw w' hw' (he'.trans he)
  refine ⟨hfree moves hr, ?_⟩
  induction moves using List.reverseRecOn with
  | nil => rfl
  | append_singleton before move ih =>
    have hr' : LiveMove.event .restart ∉ before := fun hm => hr (List.mem_append_left _ hm)
    have hle := issued_le_life (e.life before) [move]
    rw [life_concat] at hd ⊢
    rw [← ih hr' (fun hm => ha (List.mem_append_left _ hm)) (hd.mono hle)]
    cases move with
    | surroundings registry lookup => rfl
    | event event =>
      obtain ⟨i, hlt, hid⟩ := hi
      exact ((e.life before).change_perform event).status_eq hd
        ⟨i, hlt.trans_le (issued_le_life e before), hid⟩ (hfree before hr')
        (by rintro rfl; simp at ha) (by rintro rfl; simp at hr)

/-- If no records at work are abandoned, those that are not being run rest. -/
theorem poolRest_of_life (h : e.PoolIsNew) (hs : e.IsSound fun _ => True) (hl : e.Linked)
    (hr : LiveMove.event .restart ∉ moves) (ha : LiveMove.event .abandon ∉ moves)
    (hd : (e.life moves).HasDistinctIds) : e.PoolRest moves := by
  obtain ⟨ho, -⟩ := orderly_life h hr
  obtain ⟨-, hlinked⟩ := hl.life hs ha hd
  have hmem {now : LiveEngine σ} {s : Sleeper} (hs : s ∈ now.sleepers) : s.job ∈ now.waitingJobs :=
    Multiset.mem_add.mpr (.inr (List.mem_map_of_mem hs))
  have hparked {before : List LiveMove} (hp : before <+: moves) :=
    status_of_mem_sleepers h.sleepers fun hm => hr (hp.subset hm)
  have hwaiting : ∀ before after, moves = before ++ after → (e.life before).isReceiving = false →
      ∀ j ∈ (e.life before).waitingJobs,
        (∀ w ∈ (e.life moves).workers, w.run.record.id ≠ j.record.id) ∧
        StatusLog.status? (e.life before).store j.record.id = some j.record.status ∧
        StatusLog.status? (e.life moves).store j.record.id = some j.record.status := by
    rintro before after rfl hleft j hj
    rw [List.mem_append, not_or] at hr ha
    rw [life_append] at hd ⊢
    obtain ⟨-, hlb⟩ := hl.life hs ha.1 (hd.mono (issued_le_life _ after))
    have hkept := hlb.status _ (mark_waiting hj)
    obtain ⟨hfree, hstatus⟩ := rests_of_left (orderly_life h hr.1).1 hleft hr.2 ha.2 hd
      (hlb.issued _ (mark_waiting hj)) fun w hw => hlb.id_ne hj hw
    exact ⟨hfree, hkept, hstatus.trans hkept⟩
  refine ⟨fun s hs w hw => hlinked.id_ne (hmem hs) hw, fun s hs => ⟨hparked List.prefix_rfl s hs, ?_⟩, hwaiting,
    fun before after hm hleft s hs => ?_⟩
  · rw [hlinked.status _ (mark_waiting (hmem hs)), hparked List.prefix_rfl s hs]
  · have hr' : LiveMove.event .restart ∉ before := fun hm' =>
      hr (hm ▸ List.mem_append_left _ hm')
    have hclosed : (e.life before).queue.isOpen = false := ((orderly_life h hr').1.left hleft).2
    refine ⟨if_neg (by simp [hclosed]), ?_⟩
    rw [(hwaiting before after hm hleft s.job (hmem hs)).2.2,
      hparked (hm ▸ List.prefix_append _ _) s hs]

/-- In every life of an engine whose pool has not run any job and does not restart, the pool keeps
its order: the slots bound what is being run, a job sleeps outside of them, jobs are received in the
order in which they were submitted and each of them is handed to a run once, and nothing is taken or
started when the pool has left. It is gone when no job is being run, and not before unless it has
more slots than it asks back. If no records at work are abandoned, the records of the jobs that it
leaves behind keep their statuses, and so do those of the parked jobs that the closed queue
refuses. -/
theorem pool_of_life (e : LiveEngine σ) (moves : List LiveMove) (h : e.PoolIsNew)
    (hr : LiveMove.event .restart ∉ moves) :
    e.PoolOrder moves ∧
      (e.IsSound (fun _ => True) → e.Linked → LiveMove.event .abandon ∉ moves →
        (e.life moves).HasDistinctIds → e.PoolRest moves) :=
  ⟨poolOrder_of_life h hr, fun hs hl ha hd => poolRest_of_life h hs hl hr ha hd⟩

end LiveEngine

namespace Sample

/-- The engine with one slot more than its pool asks back. -/
def vastEngine : LiveEngine MemoryStore :=
  { engine with slots := LiveEngine.mostAwaited + 1 }

/-- The rule is fired, and the pool leaves as soon as its job has got a slot. -/
def halt : List LiveMove := firing ++ [.event .stop, .event .leave]

end Sample

/-- With one slot more than it asks back, the pool is gone while the greeting is still on its way;
it has kept its order all the same. -/
theorem LiveEngine.pool_of_life_vast :
    (Sample.vastEngine.life Sample.halt).isGone = true ∧
      (Sample.vastEngine.life Sample.halt).workers.length = 1 ∧
      Sample.vastEngine.PoolOrder Sample.halt ∧ Sample.vastEngine.PoolRest Sample.halt := by
  have hn : (Sample.vastEngine.life Sample.halt).issued = 2 := by decide +kernel
  have hf : Sample.vastEngine.IsFresh := ⟨rfl, rfl⟩
  obtain ⟨horder, hrest⟩ := pool_of_life Sample.vastEngine Sample.halt ⟨rfl, rfl, rfl, rfl⟩
    (by simp [Sample.halt, Sample.firing])
  refine ⟨by decide +kernel, by decide +kernel, horder,
    hrest (hf.isSound _) (hf.linked rfl) (by simp [Sample.halt, Sample.firing]) ?_⟩
  intro i j hij hj
  obtain ⟨rfl, rfl⟩ : i = 0 ∧ j = 1 := by omega
  decide

end RuleEngine
