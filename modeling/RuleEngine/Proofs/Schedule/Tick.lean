import RuleEngine.Engine
import RuleEngine.Proofs.Store.RuleTable

/-!
# A tick of the scheduler

A tick fires the rules that are due one after the other. For each of them the minute is claimed, a
record is appended and a job is submitted, and none of these steps touches a rule that still waits.
So a tick submits one job for each due rule and notes the minute for these rules only. A tick that
does not get the list of the active rules does nothing.

## Main definitions

* `Engine.HasRoom`: whether the log accepts the identifiers that are still to be handed out.
* `Firing.ofTick`: the firing of a minute for rules that wait.
* `Engine.Ticked`: what a tick does with the rules that are due.

## Main results

* `Engine.exists_carryFiring`: what carrying through the firing of a minute comes to.
* `Engine.exists_ticked`: a tick that gets the list of the active rules submits one job for each rule
  that is due.
-/

namespace RuleEngine

open RuleEntries

variable {σ : Type} [RuleStore σ] [ExecutionLog σ]

/-- A trigger that a minute fires is a schedule. -/
theorem Trigger.kind_of_matchesTick {t : Trigger} {tick : Timestamp} (h : t.matchesTick tick) :
    t.kind = .schedule := by
  cases t with
  | event => cases h
  | schedule => rfl

/-- The firing of a minute for rules that wait. -/
def Firing.ofTick (tick : Timestamp) (waiting : List Rule) (submitted : Nat) : Firing :=
  ⟨.tick tick, waiting, .choosing, submitted⟩

/-- The job of a rule at a minute, with the pending record of an identifier. -/
def Job.ofTick (r : Rule) (tick : Timestamp) (id : ExecutionId) (now : Timestamp) : Job :=
  ⟨r, .ofTick r.tenant tick, .pending id r (.ofTick r.tenant tick) now⟩

namespace Engine

variable {e : Engine σ} {f : Firing} {fuel n : Nat} {r : Rule} {rest : List Rule}
  {tick : Timestamp} {s₁ s₂ : σ}

/-! ### The identifiers -/

/-- Whether the log accepts records with the identifiers that are handed out up to the `n`-th. -/
def HasRoom [RuleEntries σ] (e : Engine σ) (n : Nat) : Prop :=
  Accepts e.store ((List.range' e.issued (n - e.issued)).map .numbered)

/-- Every step hands out an identifier. -/
theorem issued_add_le_carryFiring (e : Engine σ) (f : Firing) (fuel : Nat) :
    e.issued + min fuel 1 ≤ (e.carryFiring f fuel).2.issued := by
  induction fuel generalizing e f with
  | zero => exact le_rfl
  | succ fuel ih =>
    rw [carryFiring]
    have hs : (e.stepFiring f).2.issued = e.issued + 1 := rfl
    split
    · next g e' he =>
      have hi : e'.issued = e.issued + 1 := by rw [← hs, he]
      have := ih e' g
      omega
    · next result e' he =>
      have hi : e'.issued = e.issued + 1 := by rw [← hs, he]
      change e.issued + min (fuel + 1) 1 ≤ e'.issued
      omega

/-! ### The steps for one rule -/

theorem carryFiring_claim (hc : RuleStore.claimTick e.store r.id tick = .ok (true, s₁)) :
    e.carryFiring (.ofTick tick (r :: rest) n) (fuel + 1) =
      { e with store := s₁, issued := e.issued + 1 }.carryFiring
        ⟨.tick tick, rest, .claimed r, n⟩ fuel := by
  rw [carryFiring, stepFiring, Firing.ofTick, Firing.step]
  simp only [hc]

theorem carryFiring_append
    (ha : ExecutionLog.appendRecord e.store (Job.ofTick r tick e.nextId e.clock).record =
      .ok s₁) :
    e.carryFiring ⟨.tick tick, rest, .claimed r, n⟩ (fuel + 1) =
      { e with store := s₁, issued := e.issued + 1 }.carryFiring
        ⟨.tick tick, rest, .holding (.ofTick r tick e.nextId e.clock), n⟩ fuel := by
  rw [carryFiring, stepFiring, Firing.step]
  simp only [Firing.append]
  rw [Job.ofTick] at ha
  simp only [ha]
  rfl

theorem carryFiring_submit {j : Job} (hq : e.queue.isOpen) :
    e.carryFiring ⟨.tick tick, rest, .holding j, n⟩ (fuel + 1) =
      { e with
        queue := { e.queue with jobs := e.queue.jobs ++ [j] }
        issued := e.issued + 1 }.carryFiring (.ofTick tick rest (n + 1)) fuel := by
  have hs : e.queue.submit j = .ok { e.queue with jobs := e.queue.jobs ++ [j] } := if_pos hq
  rw [carryFiring, stepFiring, Firing.step]
  simp only [hs]
  rfl

/-- The engine after a rule was fired at a minute. -/
def fired (e : Engine σ) (r : Rule) (tick : Timestamp) (s : σ) : Engine σ :=
  { e with
    store := s
    queue := { e.queue with
      jobs := e.queue.jobs ++ [.ofTick r tick (.numbered (e.issued + 1)) e.clock] }
    issued := e.issued + 3 }

/-- The first rule that waits is fired in three steps. -/
theorem carryFiring_cons (hc : RuleStore.claimTick e.store r.id tick = .ok (true, s₁))
    (ha : ExecutionLog.appendRecord s₁
      (Job.ofTick r tick (.numbered (e.issued + 1)) e.clock).record = .ok s₂)
    (hq : e.queue.isOpen) :
    e.carryFiring (.ofTick tick (r :: rest) n) (fuel + 3) =
      (e.fired r tick s₂).carryFiring (.ofTick tick rest (n + 1)) fuel :=
  (carryFiring_claim hc).trans ((carryFiring_append ha).trans (carryFiring_submit hq))

theorem carryFiring_nil :
    e.carryFiring (.ofTick tick [] n) 1 =
      (.ended (.ok n), { e with issued := e.issued + 1 }) := rfl

/-! ### All rules that are due -/

/-- A firing comes to what carrying it through comes to. -/
theorem carryFiring_eq_fire (e : Engine σ) (f : Firing) :
    e.carryFiring f f.stepsLeft = (.ended (e.fire (.ok f)).1, (e.fire (.ok f)).2) := by
  unfold fire
  split
  · next h => cases h
  · next h =>
    cases h
    split
    · next hc => exact hc
    · next hc => exact absurd (congrArg Prod.fst hc) (carryFiring_ne_going (Nat.le_refl _))

/-- A tick whose active rules cannot be listed is refused. -/
theorem tick_of_error (he : RuleStore.activeRules e.store none .schedule = .error .storage) :
    e.tick = (.error .storage, e) := by
  rw [tick, Firing.ofInstant, he]
  rfl

variable [RuleTable σ]

/-- What a tick does with the rules that are due: it submits one job for each of them, in their
order, and notes the minute for them only. -/
structure Ticked (e : Engine σ) (tick : Timestamp) (due : List Rule) (jobs : List Job)
    (e' : Engine σ) : Prop where
  rules : jobs.map (·.rule) = due
  job : ∀ j ∈ jobs, ∃ k, j = .ofTick j.rule tick (.numbered k) e.clock
  queue : e'.queue = { e.queue with jobs := e.queue.jobs ++ jobs }
  issued : e'.issued = e.issued + (3 * due.length + 1)
  sound : IsSound e'.store
  noted : ∀ id, stored? e'.store id = if id ∈ due.map Rule.id then
    (stored? e.store id).map (Option.map fun r => { r with lastTick := some tick })
    else stored? e.store id

omit [RuleStore σ] [ExecutionLog σ] [RuleTable σ] in
private theorem range'_sublist {i j m k : Nat} (hi : i ≤ j) (hm : m ≤ k) :
    (List.range' j (m - j)).Sublist (List.range' i (k - i)) := by
  rcases Nat.le_total m j with hj | hj
  · rw [Nat.sub_eq_zero_of_le hj]
    exact List.nil_sublist _
  · have hlength : k - i = j - i + (m - j + (k - m)) := by omega
    rw [hlength, ← List.range'_append_1, Nat.add_sub_cancel' hi, ← List.range'_append_1]
    exact (List.sublist_append_left _ _).trans (List.sublist_append_right _ _)

/-- There is room for fewer identifiers, and from a later one on. -/
theorem HasRoom.mono {e' : Engine σ} {m k : Nat} (h : e.HasRoom k) (hs : e'.store = e.store)
    (hi : e.issued ≤ e'.issued) (hm : m ≤ k) : e'.HasRoom m := by
  rw [HasRoom, hs]
  exact RuleTable.accepts_sublist h ((range'_sublist hi hm).map _)

/-- If there is room for a record, the log accepts it and those that follow. -/
theorem HasRoom.accepts {m : Nat} (h : e.HasRoom m) (hi : e.issued + 1 < m) :
    Accepts e.store (.numbered (e.issued + 1) ::
      (List.range' (e.issued + 3) (m - (e.issued + 3))).map .numbered) := by
  have hm : m - (e.issued + 1) = m - (e.issued + 2) + 1 := by omega
  have hs := range'_sublist (i := e.issued) (j := e.issued + 1) (by omega) (le_refl m)
  rw [hm, List.range'_succ] at hs
  have hs' := range'_sublist (i := e.issued + 2) (j := e.issued + 3) (by omega) (le_refl m)
  exact RuleTable.accepts_sublist h (((hs'.cons_cons _).trans hs).map _)

/-- What a tick does with the first rule that is due goes together with what it does with the
others. -/
theorem Ticked.cons {e' : Engine σ} {jobs : List Job}
    (h : (e.fired r tick s₂).Ticked tick rest jobs e') (hr : rule? e.store r.id = some r)
    (hnot : r.id ∉ rest.map Rule.id)
    (hsets : Sets e.store r.id (some (some { r with lastTick := some tick })) s₁)
    (hrules : ∀ id, stored? s₂ id = stored? s₁ id) :
    e.Ticked tick (r :: rest) (.ofTick r tick (.numbered (e.issued + 1)) e.clock :: jobs) e' := by
  refine ⟨?_, List.forall_mem_cons.mpr ⟨⟨_, rfl⟩, h.job⟩, ?_, ?_, h.sound, fun id => ?_⟩
  · rw [List.map_cons, h.rules]
    rfl
  · rw [h.queue, fired, List.append_assoc]
    rfl
  · have hi : (e.fired r tick s₂).issued = e.issued + 3 := rfl
    rw [h.issued, hi, List.length_cons]
    omega
  · rw [h.noted]
    change (if id ∈ rest.map Rule.id then (stored? s₂ id).map _ else stored? s₂ id) = _
    rw [hrules, List.map_cons]
    by_cases hid : id = r.id
    · subst hid
      rw [if_neg hnot, if_pos List.mem_cons_self, hsets.entry_eq, rule?_eq_some_iff.mp hr]
      rfl
    · rw [hsets.entry_ne id hid]
      by_cases hmem : id ∈ rest.map Rule.id
      · rw [if_pos hmem, if_pos (List.mem_cons_of_mem _ hmem)]
      · rw [if_neg hmem, if_neg (by simpa [hid] using hmem)]

/-- What carrying through the firing of a minute comes to, if the rules that wait are stored and the
minute is later than the ones noted for them. -/
theorem exists_carryFiring {due : List Rule} {m : Nat} (hs : IsSound e.store)
    (hq : e.queue.isOpen) (hf : FitsTime σ tick) (hm : tick.IsMinute)
    (hd : (due.map Rule.id).Nodup)
    (hstored : ∀ r ∈ due, rule? e.store r.id = some r)
    (hlast : ∀ r ∈ due, ∀ last, r.lastTick = some last → last.before tick)
    (hn : (e.carryFiring (.ofTick tick due n) (3 * due.length + 1)).2.issued ≤ m)
    (hr : e.HasRoom m) :
    ∃ jobs e', e.carryFiring (.ofTick tick due n) (3 * due.length + 1) =
      (.ended (.ok (n + due.length)), e') ∧ e.Ticked tick due jobs e' ∧ e'.HasRoom m := by
  induction due generalizing e n with
  | nil =>
    refine ⟨[], _, carryFiring_nil, ⟨rfl, by simp, ?_, rfl, hs, fun id => ?_⟩,
      hr.mono rfl (Nat.le_succ _) le_rfl⟩
    · rw [List.append_nil]
    · rw [if_neg (by simp)]
  | cons r rest ih =>
    obtain ⟨hnot, hrest⟩ := List.nodup_cons.mp hd
    obtain ⟨hr₀, hstored⟩ := List.forall_mem_cons.mp hstored
    obtain ⟨hlast₀, hlast⟩ := List.forall_mem_cons.mp hlast
    obtain ⟨s₁, hc, hsets⟩ := RuleTable.exists_claim hs hr₀ hf hm hlast₀
    have hfuel : 3 * (r :: rest).length + 1 = 3 * rest.length + 1 + 3 := by
      rw [List.length_cons]
      omega
    rw [hfuel] at hn ⊢
    -- the record gets the identifier after the one that the claim has used
    have hid : e.issued + 1 < m := by
      rw [carryFiring_claim hc] at hn
      refine Nat.lt_of_lt_of_le ?_ ((issued_add_le_carryFiring _ _ _).trans hn)
      rw [Nat.min_eq_right (by omega)]
      exact Nat.lt_succ_self _
    have hacc := hsets.accepts _ (hr.accepts hid)
    obtain ⟨s₂, ha, hs₂, hrules, hothers⟩ := RuleTable.exists_append
      (Job.ofTick r tick (.numbered (e.issued + 1)) e.clock).record hsets.sound
      (RuleTable.accepts_sublist hacc ((List.nil_sublist _).cons_cons _))
    have hroom : (e.fired r tick s₂).HasRoom m := hothers _ hacc
    rw [carryFiring_cons hc ha hq] at hn ⊢
    have hkept : ∀ r' ∈ rest, rule? s₂ r'.id = some r' := by
      intro r' hr'
      have hne : r'.id ≠ r.id := fun he => hnot (he ▸ List.mem_map_of_mem hr')
      rw [rule?_eq_some_iff, hrules, hsets.entry_ne _ hne]
      exact rule?_eq_some_iff.mp (hstored r' hr')
    obtain ⟨jobs, e', he, ht, hroom'⟩ :=
      ih (e := e.fired r tick s₂) hs₂ hq hrest hkept hlast hn hroom
    refine ⟨_, e', ?_, ht.cons hr₀ hnot hsets hrules, hroom'⟩
    rw [he, List.length_cons, Nat.add_assoc, Nat.add_comm 1]

/-- A tick notes its minute for the rules that were due, if they are read. -/
theorem Ticked.rule?_eq {e' : Engine σ} {due : List Rule} {jobs : List Job}
    (h : e.Ticked tick due jobs e') (id : RuleId) :
    rule? e'.store id = if id ∈ due.map Rule.id then
      (rule? e.store id).map fun r => { r with lastTick := some tick } else rule? e.store id := by
  rw [rule?, h.noted, rule?]
  by_cases hid : id ∈ due.map Rule.id
  · rw [if_pos hid, if_pos hid]
    rcases stored? e.store id with - | - | r <;> rfl
  · rw [if_neg hid, if_neg hid]

/-- A store that can be read can still be read after a tick. -/
theorem Ticked.isReadable {e' : Engine σ} {due : List Rule} {jobs : List Job}
    (h : e.Ticked tick due jobs e') (hr : IsReadable e.store) : IsReadable e'.store := by
  intro id
  have hid := hr id
  rw [h.noted]
  by_cases hmem : id ∈ due.map Rule.id
  · rw [if_pos hmem]
    revert hid
    rcases stored? e.store id with - | - | r <;> simp
  · rwa [if_neg hmem]

/-- Every tick at a clock reading whose active rules are listed is answered by the number of its
jobs: those of the active rules with a matching trigger for which no minute is noted that is as
late. -/
theorem exists_ticked {m : Nat} (hs : IsSound e.store) (hq : e.queue.isOpen)
    (ht : e.clock.IsReading) (hn : e.tick.2.issued ≤ m) (hr : e.HasRoom m) {rules : List Rule}
    (hlist : RuleStore.activeRules e.store none .schedule = .ok rules)
    (hnodup : (rules.map Rule.id).Nodup)
    (hmem : ∀ r, r ∈ rules ↔ rule? e.store r.id = some r ∧ r.active ∧
      r.trigger.kind = .schedule) :
    ∃ due jobs e', e.tick = (.ok due.length, e') ∧ (due.map Rule.id).Nodup ∧
      (∀ r, r ∈ due ↔ rule? e.store r.id = some r ∧ r.active ∧
        r.trigger.matchesTick e.clock.floorMinute ∧
        ∀ last, r.lastTick = some last → last.before e.clock.floorMinute) ∧
      e.Ticked e.clock.floorMinute due jobs e' ∧ e'.HasRoom m := by
  have hdue (r : Rule) : r ∈ rules.filter (Firing.isDue e.clock.floorMinute) ↔
      rule? e.store r.id = some r ∧ r.active ∧ r.trigger.matchesTick e.clock.floorMinute ∧
        ∀ last, r.lastTick = some last → last.before e.clock.floorMinute := by
    rw [List.mem_filter, hmem, Firing.isDue, Bool.and_eq_true, Bool.not_eq_true',
      any_notAfter_eq_false_iff]
    constructor
    · rintro ⟨⟨hr, ha, -⟩, hm, hl⟩
      exact ⟨hr, ha, hm, hl⟩
    · rintro ⟨hr, ha, hm, hl⟩
      exact ⟨⟨hr, ha, Trigger.kind_of_matchesTick hm⟩, hm, hl⟩
  have hids : ((rules.filter (Firing.isDue e.clock.floorMinute)).map Rule.id).Nodup :=
    (List.filter_sublist.map Rule.id).nodup hnodup
  have htick : e.tick = e.fire (.ok (.ofTick e.clock.floorMinute
      (rules.filter (Firing.isDue e.clock.floorMinute)) 0)) := by
    rw [tick, Firing.ofInstant, hlist]
    rfl
  generalize rules.filter (Firing.isDue e.clock.floorMinute) = due at hdue hids htick
  have hfire := e.carryFiring_eq_fire (.ofTick e.clock.floorMinute due 0)
  rw [← htick] at hfire
  obtain ⟨jobs, e', he, hticked, hroom⟩ := exists_carryFiring hs hq
    (RuleTable.fitsTime_floorMinute (σ := σ) ht) ht.isMinute hids
    (fun r hr => ((hdue r).mp hr).1) (fun r hr => ((hdue r).mp hr).2.2.2)
    ((congrArg (·.2.issued) hfire).le.trans hn) hr
  refine ⟨due, jobs, e', ?_, hids, hdue, hticked, hroom⟩
  obtain ⟨hresult, he'⟩ := Prod.mk.inj (hfire.symm.trans he)
  rw [Nat.zero_add] at hresult
  exact Prod.ext (FiringProgress.ended.inj hresult) he'

end Engine

end RuleEngine
