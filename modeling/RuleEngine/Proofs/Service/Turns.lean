import RuleEngine.Proofs.Service.ReadThenWrite

/-!
# Scripts that take turns

Two scripts that run on one store at the same time take turns, one call at a time. If neither writes
before its last call, then one of them runs as a whole on the store as it was, and the other one
goes on from where some looks at this store have led it, on the store that the first leaves behind.
The other way round, each such run comes about by taking turns.

## Main definitions

* `RuleScript.Interleaved`: the stores that two scripts can leave behind.
* `RuleScript.WritesLast`: whether a script only looks, up to a last call.
* `RuleScript.Ahead`: what is left of a script after some looks at a store.

## Main results

* `RuleScript.Interleaved.cases`, `RuleScript.Interleaved.of_ahead`: how two scripts take turns.
-/

namespace RuleEngine

/-- Whether a call only looks at a store. -/
def RuleCall.looks : RuleCall → Bool
  | .byId _ | .byName .. | .list _ => true
  | .create _ | .update _ | .delete _ => false

theorem RuleCall.snd_perform_of_looks {σ : Type} [RuleStore σ] {c : RuleCall}
    (h : c.looks = true) (s : σ) : (c.perform s).2 = s := by
  cases c with
  | byId | byName | list => rfl
  | create | update | delete => cases h

namespace RuleScript

variable {α β σ : Type}

/-- Whether a script only looks, up to a last call. -/
inductive WritesLast : RuleScript α → Prop
  | done (a : α) : WritesLast (.done a)
  | look {c : RuleCall} {next : Except EngineError c.Answer → RuleScript α}
      (hc : c.looks = true) (h : ∀ answer, WritesLast (next answer)) : WritesLast (.call c next)
  | last {c : RuleCall} {next : Except EngineError c.Answer → RuleScript α}
      (h : ∀ answer, (next answer).IsDone) : WritesLast (.call c next)

theorem IsDone.writesLast {p : RuleScript α} (h : p.IsDone) : p.WritesLast := by
  obtain ⟨a, rfl⟩ := h
  exact .done a

variable [RuleStore σ] {s t : σ} {p p' : RuleScript α} {q q' : RuleScript β}

theorem IsDone.snd_run (h : p.IsDone) (s : σ) : (p.run s).2 = s := by
  obtain ⟨a, rfl⟩ := h
  rfl

/-- Whether a script becomes another one by some looks at a store. -/
inductive Ahead (s : σ) : RuleScript α → RuleScript α → Prop
  | refl (p : RuleScript α) : Ahead s p p
  | look {c : RuleCall} {next : Except EngineError c.Answer → RuleScript α} {p : RuleScript α}
      (hc : c.looks = true) (h : Ahead s (next (c.perform s).1) p) : Ahead s (.call c next) p

theorem Ahead.snd_run (h : Ahead s p p') : (p'.run s).2 = (p.run s).2 := by
  induction h with
  | refl => rfl
  | @look c next p hc h ih =>
    rw [ih, run, c.snd_perform_of_looks hc]

theorem Ahead.eq_of_isDone (h : Ahead s p p') (hp : p.IsDone) : p' = p := by
  obtain ⟨a, rfl⟩ := hp
  cases h
  rfl

/-- The stores that two scripts can leave behind if they take turns, one call at a time. -/
inductive Interleaved : σ → RuleScript α → RuleScript β → σ → Prop
  | done (s : σ) (a : α) (b : β) : Interleaved s (.done a) (.done b) s
  | left {s t : σ} {c : RuleCall} {next : Except EngineError c.Answer → RuleScript α}
      {q : RuleScript β} (h : Interleaved (c.perform s).2 (next (c.perform s).1) q t) :
      Interleaved s (.call c next) q t
  | right {s t : σ} {p : RuleScript α} {c : RuleCall}
      {next : Except EngineError c.Answer → RuleScript β}
      (h : Interleaved (c.perform s).2 p (next (c.perform s).1) t) :
      Interleaved s p (.call c next) t

/-- A script beside one that makes no more calls runs by itself. -/
theorem Interleaved.of_isDone (h : Interleaved s p q t) :
    (p.IsDone → t = (q.run s).2) ∧ (q.IsDone → t = (p.run s).2) := by
  induction h with
  | done => exact ⟨fun _ => rfl, fun _ => rfl⟩
  | left h ih => exact ⟨fun ⟨a, ha⟩ => (nomatch ha), ih.2⟩
  | right h ih => exact ⟨ih.1, fun ⟨a, ha⟩ => (nomatch ha)⟩

/-- Of two scripts that write with their last calls only, one runs on the store as it was, and the
other one on the store that the first leaves, after some looks at the store as it was. -/
theorem Interleaved.cases (h : Interleaved s p q t) (hp : p.WritesLast) (hq : q.WritesLast) :
    (∃ q', Ahead s q q' ∧ t = (q'.run (p.run s).2).2) ∨
      ∃ p', Ahead s p p' ∧ t = (p'.run (q.run s).2).2 := by
  -- whoever makes its last call first is the one that runs as a whole
  induction h with
  | done s a b => exact .inl ⟨_, .refl _, rfl⟩
  | @left s t c next q h ih =>
    cases hp with
    | look hc hnext =>
      rw [run]
      rw [c.snd_perform_of_looks hc] at ih ⊢
      obtain ⟨q', hq', ht⟩ | ⟨p', hp', ht⟩ := ih (hnext _) hq
      · exact .inl ⟨q', hq', ht⟩
      · exact .inr ⟨p', .look hc hp', ht⟩
    | last hdone =>
      refine .inl ⟨q, .refl q, ?_⟩
      rw [run, (hdone _).snd_run]
      exact h.of_isDone.1 (hdone _)
  | @right s t p c next h ih =>
    cases hq with
    | look hc hnext =>
      rw [run]
      rw [c.snd_perform_of_looks hc] at ih ⊢
      obtain ⟨q', hq', ht⟩ | ⟨p', hp', ht⟩ := ih hp (hnext _)
      · exact .inl ⟨q', .look hc hq', ht⟩
      · exact .inr ⟨p', hp', ht⟩
    | last hdone =>
      refine .inr ⟨p, .refl p, ?_⟩
      rw [run, (hdone _).snd_run]
      exact h.of_isDone.2 (hdone _)

theorem Interleaved.run_right (s : σ) (a : α) (q : RuleScript β) :
    Interleaved s (.done a) q (q.run s).2 := by
  induction q generalizing s with
  | done b => exact .done s a b
  | call c next ih => exact .right (ih _ _)

/-- Conversely, a script can be run as a whole after some looks of another one, before the rest of
that one. -/
theorem Interleaved.of_ahead (p : RuleScript α) (h : Ahead s q q') :
    Interleaved s p q (q'.run (p.run s).2).2 := by
  induction h with
  | refl q =>
    induction p generalizing s with
    | done a => exact .run_right s a q
    | call c next ih => exact .left (ih _)
  | @look c next q' hc h ih =>
    refine .right ?_
    rw [c.snd_perform_of_looks hc]
    exact ih

end RuleScript

end RuleEngine
