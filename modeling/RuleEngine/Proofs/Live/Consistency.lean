import RuleEngine.Proofs.Live.Soundness
import RuleEngine.Proofs.Store.Status

/-!
# Consistency of the log in memory

Every version of a record that the log in memory ever keeps goes with an execution of one of the
rules, in every life of an engine that starts with an empty log: at work the versions are written
by sound runs, and a record that is abandoned stays consistent.

## Main definitions

* `MemoryStore.Keeps`: a version that a store keeps, as the latest of its record or an earlier one.
* `LiveEngine.IsFresh`: an engine that has nothing to do yet.

## Main results

* `LiveEngine.consistent_of_life`: every version that is kept is consistent.
-/

namespace RuleEngine

/-- Whether a rule is one of some rules, its last minute aside. -/
def Rule.IsAmong (rules : List Rule) (r : Rule) : Prop :=
  ∃ known ∈ rules, ∃ tick, r = { known with lastTick := tick }

namespace Rule

theorem isAmong_of_mem {rules : List Rule} {r : Rule} (h : r ∈ rules) : r.IsAmong rules :=
  ⟨r, h, r.lastTick, rfl⟩

theorem IsAmong.claimed {rules : List Rule} {r : Rule} (h : r.IsAmong rules)
    (tick : Option Timestamp) : { r with lastTick := tick }.IsAmong rules := by
  obtain ⟨known, hk, t, rfl⟩ := h
  exact ⟨known, hk, tick, rfl⟩

/-- What is consistent with a rule is so with the one that it is among others. -/
theorem IsAmong.consistent {rules : List Rule} {r : Rule} {v : ExecutionRecord}
    (h : r.IsAmong rules) (hv : v.Consistent r) : ∃ known ∈ rules, v.Consistent known := by
  obtain ⟨known, hk, t, rfl⟩ := h
  exact ⟨known, hk, hv.of_lastTick⟩

end Rule

/-! ### The store in memory -/

namespace MemoryStore

variable {s : MemoryStore} {v r : ExecutionRecord}

/-- Whether a version is kept, as the latest of its record or an earlier one. -/
def Keeps (s : MemoryStore) (v : ExecutionRecord) : Prop := v ∈ s.records ∨ v ∈ s.versions

theorem keeps_putRecord (h : (s.putRecord r).Keeps v) : v = r ∨ s.Keeps v := by
  rcases h with h | h
  · exact (mem_put h).imp_right .inl
  · rcases List.mem_append.mp h with h | h
    · exact .inr (.inr h)
    · exact .inl (List.mem_singleton.mp h)

/-- Whether the rules of a store are some rules, and its versions are consistent with them. -/
structure Accurate (rules : List Rule) (s : MemoryStore) : Prop where
  listed : ∀ rule ∈ s.rules, rule.IsAmong rules
  versions : ∀ v, s.Keeps v → ∃ rule ∈ rules, v.Consistent rule

variable {rules : List Rule}

theorem Accurate.putRecord {rule : Rule} (h : s.Accurate rules) (hr : rule.IsAmong rules)
    (hv : r.Consistent rule) : (s.putRecord r).Accurate rules := by
  refine ⟨h.listed, fun v hk => ?_⟩
  rcases keeps_putRecord hk with rfl | hk
  · exact hr.consistent hv
  · exact h.versions v hk

theorem Accurate.claim (h : s.Accurate rules) (id : RuleId) (tick : Timestamp) :
    (s.claim id tick).2.Accurate rules := by
  unfold MemoryStore.claim
  split
  · exact h
  · next known hf =>
    have hm : known ∈ s.rules := List.mem_of_find?_eq_some hf
    split
    · exact h
    · refine ⟨fun rule hr => ?_, h.versions⟩
      rcases mem_put hr with rfl | hr
      · exact (h.listed known hm).claimed (some tick)
      · exact h.listed rule hr

/-- A version that is kept after the records were abandoned was kept before, or is an abandoned
one. -/
theorem Accurate.abandon (h : s.Accurate rules) (now : Timestamp) :
    { s with records := s.records.map (MemoryStore.abandon now) }.Accurate rules := by
  refine ⟨h.listed, fun v hk => ?_⟩
  rcases hk with hk | hk
  · obtain ⟨u, hu, rfl⟩ := List.mem_map.mp hk
    obtain ⟨rule, hr, hc⟩ := h.versions u (.inl hu)
    refine ⟨rule, hr, ?_⟩
    unfold MemoryStore.abandon
    split
    · next w hw =>
      obtain ⟨ha, rfl⟩ := ExecutionRecord.transition_eq_ok_iff.mp hw
      refine hc.abandon ?_ now
      simpa [ExecutionStatus.allows] using ha
    · exact hc
  · exact h.versions v (.inr hk)

end MemoryStore

/-! ### Lives of engines -/

namespace LiveEngine

variable {e e' : LiveEngine MemoryStore} {event : LiveEvent} {rules : List Rule}

/-- Whether an engine carries no job and has no rule to fire. -/
def IsFresh {σ : Type} (e : LiveEngine σ) : Prop := e.holders = 0 ∧ e.candidates = []

theorem IsFresh.isSound {σ : Type} {e : LiveEngine σ} (h : e.IsFresh) (P : Rule → Prop) :
    e.IsSound P :=
  ⟨by simp [h.1], by simp [h.2]⟩

/-- The store after a move of a sound worker has one more consistent version at most. -/
private theorem accurate_of_move {w : Worker} {s : MemoryStore} {calls : List Invocation}
    {next : Multiset Holder} (h : e.store.Accurate rules) (hm : w.Move e.toEngine s calls next)
    (hw : w.run.Sound) (hr : w.run.rule.IsAmong rules) : s.Accurate rules := by
  cases hm with
  | wrote hv ho =>
    rw [MemoryStore.update_eq_ok ho]
    exact h.putRecord hr (hw.consistent_of_writes hv)
  | _ => exact h

/-- A change of a sound engine keeps its store accurate. -/
private theorem accurate_of_change (h : e.store.Accurate rules) (hs : e.IsSound (·.IsAmong rules))
    (hc : Change e event e') : e'.store.Accurate rules := by
  have hquiet (hu : Undisturbed e e') : e'.store.Accurate rules := by
    rcases hu.store with hs | ⟨id, tick, b, hs⟩
    · exact hs ▸ h
    · have hclaim : e.store.claim id tick = (b, e'.store) := Except.ok.inj hs
      have := h.claim id tick
      rwa [hclaim] at this
  have habandon (n : Nat)
      (ho : ExecutionLog.abandonOpen e.store e.clock = .ok (n, e'.store)) :
      e'.store.Accurate rules := by
    have := (Prod.mk.inj (Except.ok.inj ho)).2
    exact this ▸ h.abandon e.clock
  cases hc with
  | quiet hu | listed _ _ hu | employed _ _ _ _ hu | lost _ hu => exact hquiet hu
  | fired rule context now hm hc ho =>
    have hput : e.store.putRecord (.pending e.nextId rule context now) = e'.store :=
      Except.ok.inj ho
    rw [← hput]
    exact h.putRecord (hs.candidates rule hm) (ExecutionRecord.consistent_pending _ rule _ now)
  | worked w calls next others hm hw hb =>
    have hsound := hs.holders (.working w) (by simp [hb])
    exact accurate_of_move h hm hsound.1.1 hsound.2
  | abandoned n ho => exact habandon n ho
  | restarted ho =>
    rcases ho with ho | ⟨n, ho⟩
    · exact ho ▸ h
    · exact habandon n ho

/-- The rules that a store in memory lists are those that it has. -/
private theorem isAmong_of_activeRules {s : MemoryStore} (h : s.Accurate rules)
    (tenant : Option TenantId) (kind : TriggerKind) (listed : List Rule)
    (hl : RuleStore.activeRules s tenant kind = .ok listed) :
    ∀ rule ∈ listed, rule.IsAmong rules := by
  intro rule hr
  have := Except.ok.inj hl
  rw [← this, List.mem_mergeSort] at hr
  exact h.listed rule (List.mem_of_mem_filter hr)

/-- Every version of a record that the log ever keeps is consistent with its rule. -/
theorem consistent_of_life (e : LiveEngine MemoryStore) (hf : e.IsFresh)
    (hr : e.store.records = []) (hv : e.store.versions = []) (moves : List LiveMove)
    (v : ExecutionRecord) (hk : (e.life moves).store.Keeps v) :
    ∃ rule ∈ e.store.rules, v.Consistent rule := by
  have hstart : e.store.Accurate e.store.rules :=
    ⟨fun rule hm => Rule.isAmong_of_mem hm, fun v hk => by simp [MemoryStore.Keeps, hr, hv] at hk⟩
  let rules := e.store.rules
  have hlife : (e.life moves).store.Accurate rules ∧ (e.life moves).IsSound (·.IsAmong rules) := by
    refine life_induction (P := fun now => now.store.Accurate rules ∧
      now.IsSound (·.IsAmong rules)) ⟨hstart, hf.isSound _⟩ fun now move hm ih => ?_
    obtain ⟨event, hc, -⟩ := now.change_make move
    exact ⟨accurate_of_change ih.1 ih.2 hc, ih.2.of_change hc (isAmong_of_activeRules ih.1)⟩
  exact hlife.1.versions v hk

end LiveEngine

/-! ### An engine with one rule -/

namespace Sample

/-- An engine with the rule and the handler that writes to the log. -/
def engine : LiveEngine MemoryStore where
  store := { rules := [rule] }
  clock := .epoch
  registry := Dictionary.empty.insert Handler.logType Handler.log
  allowed := 1000
  slots := 1
  cadence := 60000
  feed := .fresh 16

/-- An order is created, the rule is fired, and its job gets a slot. -/
def firing : List LiveMove :=
  [.publish order, .listen, .dispatch, .dispatch, .receive, .employ].map .event

/-- The rule is fired, and its execution is carried through. -/
def execution : List LiveMove := firing ++ List.replicate 9 (.event (.work 0))

end Sample

/-- The version with which the execution of the sample rule is completed is consistent. -/
theorem LiveEngine.consistent_execution :
    ∃ v ∈ (Sample.engine.life Sample.execution).store.versions, v.status = .completed ∧
      ∃ rule ∈ Sample.engine.store.rules, v.Consistent rule := by
  have hv : ∃ v ∈ (Sample.engine.life Sample.execution).store.versions, v.status = .completed := by
    decide +kernel
  obtain ⟨v, hm, hs⟩ := hv
  exact ⟨v, hm, hs, consistent_of_life Sample.engine ⟨rfl, rfl⟩ rfl rfl Sample.execution v
    (.inr hm)⟩

end RuleEngine
