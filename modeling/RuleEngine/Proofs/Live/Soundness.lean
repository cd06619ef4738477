import RuleEngine.Proofs.Live.Change
import RuleEngine.Proofs.Run.Consistency

/-!
# Sound engines

The jobs that an engine carries are sound wherever they are: whoever takes one up finds a record
as its stage demands. Every change keeps this, whatever the stores answer.

## Main definitions

* `Holder.Sound`: a job that is carried can be run, or is being run, soundly.
* `LiveEngine.IsSound`: so are all jobs of an engine, and its rules have a property.

## Main results

* `Worker.Move.sound`: a move of a worker leaves sound jobs only.
* `LiveEngine.IsSound.of_change`: an engine stays sound.
-/

namespace RuleEngine

/-- Whether a job that waits can be run soundly, and one that is at work is sound and has an
outcome for a handler that it has called only. -/
def Holder.Sound : Holder → Prop
  | .waiting j => j.Sound
  | .working w => w.run.Sound ∧
    (w.outcome.isSome = true → ∃ a t rest, w.run.stage = .awaiting a t rest)

/-- The rule of the job that is carried. -/
def Holder.rule (h : Holder) : Rule := h.job.rule

namespace Worker

variable {σ : Type} [ExecutionLog σ] {e : Engine σ} {w : Worker} {s : σ}
  {calls : List Invocation} {next : Multiset Holder}

omit [ExecutionLog σ] in
/-- An accepted version leaves a sound job, or none. -/
private theorem sound_of_writes {v : ExecutionRecord} {p : RunProgress}
    (h : (Holder.working w).Sound) (hw : w.run.Writes e.clock v p) :
    ∀ x ∈ p.carriedOn w, x.Sound ∧ x.rule = w.run.rule := by
  intro x hx
  cases p with
  | going r =>
    rw [RunProgress.carriedOn, Multiset.mem_singleton] at hx
    subst hx
    refine ⟨⟨h.1.of_writes hw, fun ho => ?_⟩, hw.going_eq.1⟩
    obtain ⟨a, t, rest, hs⟩ := h.2 ho
    cases hw <;> simp_all
  | ended ending =>
    cases ending with
    | deferred job runAt =>
      rw [RunProgress.carriedOn, Multiset.mem_singleton] at hx
      subst hx
      refine ⟨h.1.of_deferred hw, ?_⟩
      rw [hw.deferred_eq.1]
      rfl
    | finished _ | refused _ | outOfTime => exact absurd hx (Multiset.notMem_zero x)

/-- What a worker carries on is sound, and of the rule of its run. -/
theorem Move.sound (hm : w.Move e s calls next) (h : (Holder.working w).Sound) :
    ∀ x ∈ next, x.Sound ∧ x.rule = w.run.rule := by
  cases hm with
  | judged hs =>
    simp only [Multiset.mem_singleton, forall_eq]
    refine ⟨⟨h.1.judged hs e.lookup, fun ho => ?_⟩, rfl⟩
    obtain ⟨a, t, rest, hn⟩ := h.2 ho
    rw [hs] at hn
    cases hn
  | called a rest hs =>
    simp only [Multiset.mem_singleton, forall_eq]
    exact ⟨⟨h.1.called hs e.clock, fun ho => by cases ho⟩, rfl⟩
  | invoked a t rest calls o due hs ho hc =>
    simp only [Multiset.mem_singleton, forall_eq]
    exact ⟨⟨h.1, fun _ => ⟨a, t, rest, hs⟩⟩, rfl⟩
  | answered a t rest o hs ho =>
    simp only [Multiset.mem_singleton, forall_eq]
    exact ⟨⟨h.1.answered (.inr ⟨t, hs⟩) o e.clock, fun ho => by cases ho⟩, rfl⟩
  | wrote hw ho => exact sound_of_writes h hw
  | refused hw ho => simp
  | unsteady hs => simp
  | outOfTime hs hd => simp

end Worker

namespace LiveEngine

variable {σ : Type} [RuleStore σ] [ExecutionLog σ] {P : Rule → Prop} {e e' : LiveEngine σ}
  {event : LiveEvent}

/-- Whether all jobs that an engine carries are sound, and these and the rules that it is to fire
have a property. -/
structure IsSound (P : Rule → Prop) (e : LiveEngine σ) : Prop where
  holders : ∀ h ∈ e.holders, h.Sound ∧ P h.rule
  candidates : ∀ rule ∈ e.candidates, P rule

/-- An engine stays sound, if the rules in its store have the property. -/
theorem IsSound.of_change (h : e.IsSound P) (hc : Change e event e')
    (hp : ∀ tenant kind rules, RuleStore.activeRules e.store tenant kind = .ok rules →
      ∀ rule ∈ rules, P rule) : e'.IsSound P := by
  cases hc with
  | quiet hu hh hc => exact ⟨hh ▸ h.holders, fun rule hr => h.candidates rule (hc hr)⟩
  | listed tenant kind hu hh hc =>
    refine ⟨hh ▸ h.holders, fun rule hr => ?_⟩
    rcases hc rule hr with hr | ⟨rules, hl, hr⟩
    · exact h.candidates rule hr
    · exact hp tenant kind rules hl rule hr
  | employed job run others hr hu hb ha hc =>
    have hj : job.Sound ∧ P job.rule := h.holders (.waiting job) (by simp [hb])
    refine ⟨fun x hx => ?_, hc ▸ h.candidates⟩
    rw [ha] at hx
    rcases Multiset.mem_add.mp hx with hx | hx
    · rw [Multiset.mem_singleton] at hx
      subst hx
      refine ⟨⟨hj.1.run hr, fun ho => by cases ho⟩, ?_⟩
      have hjob := Run.job_of_ofJob hr
      rw [← hjob] at hj
      exact hj.2
    · exact h.holders x (by simp [hb, hx])
  | lost job hu hh hc why =>
    exact ⟨fun x hx => h.holders x (by simp [hh, hx]), fun rule hr => h.candidates rule (hc hr)⟩
  | fired rule context now hm hc ho hh hi hn =>
    refine ⟨fun x hx => ?_, fun rule hr => h.candidates rule (hc hr)⟩
    rw [hh] at hx
    rcases Multiset.mem_add.mp hx with hx | hx
    · rw [Multiset.mem_singleton] at hx
      subst hx
      exact ⟨Job.sound_pending _ rule context now, h.candidates rule hm⟩
    · exact h.holders x hx
  | worked w calls next others hm hw hb ha hc hi hn =>
    have hsound := h.holders (.working w) (by simp [hb])
    refine ⟨fun x hx => ?_, hc ▸ h.candidates⟩
    rw [ha] at hx
    rcases Multiset.mem_add.mp hx with hx | hx
    · obtain ⟨hs, hr⟩ := hm.sound hsound.1 x hx
      exact ⟨hs, hr ▸ hsound.2⟩
    · exact h.holders x (by simp [hb, hx])
  | abandoned n ho hh hc hi hn => exact ⟨hh ▸ h.holders, hc ▸ h.candidates⟩
  | restarted ho hh hc hi hn => exact ⟨by simp [hh], by simp [hc]⟩

end LiveEngine

end RuleEngine
