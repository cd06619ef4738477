import RuleEngine.Proofs.Schedule.RuleKeeping
import RuleEngine.Proofs.Service.Turns
import RuleEngine.Proofs.Store.RuleCell

/-!
# The plans of edits

To replace the definition of a rule, to switch it on or off, or to delete it, an operation reads the
rule and plans what to do with it: nothing, to write a rule in its place, perhaps after a look for
its name, or to remove it. From then on it sees no more of the rule. What the plan comes to is told
by the cell of the rule at the time when it is carried out, and the names that the other rules have.

## Main definitions

* `RuleTask.Edits`, `RuleTask.plan`: the edits of a rule, and their plans for what they read.
* `RuleScript.Performs`, `RuleScript.Follows`: whether a script carries out a plan.
* `RulePlan.apply`, `RuleTask.effect`: what a plan and an edit do to the cell of a rule.

## Main results

* `RuleTask.follows_script`: the script of an edit reads the rule and carries its plan out.
* `RuleTask.becomes_after`: an edit that is run by itself has its effect.
* `RuleTask.ahead_cases`: what is left of an edit after some looks at a store.
-/

namespace RuleEngine

open RuleCell

/-! ### Plans -/

/-- What an edit does to a rule that it has read: nothing, to write a rule in its place, perhaps
after a look for its name, or to remove it. -/
inductive RulePlan where
  | keep
  | put (r : Rule) (search : Bool)
  | remove (id : RuleId)

/-- Whether a plan is about the rule with an identifier. -/
def RulePlan.IsAbout (id : RuleId) : RulePlan → Prop
  | .keep => True
  | .put r _ => r.id = id
  | .remove other => other = id

/-- A rule that is to be written has the tenant and the times of the rule that was read, the last
update aside, and its name is looked for if it is another one. -/
structure RulePlan.Rewrites (stored r : Rule) (search : Bool) : Prop where
  tenant : r.tenant = stored.tenant
  createdAt : r.createdAt = stored.createdAt
  lastTick : r.lastTick = stored.lastTick
  search_iff : search = true ↔ stored.name ≠ r.name

namespace RuleTask

/-- Whether a task is an edit of the rule with an identifier: its definition is replaced, it is
switched on or off, or it is deleted. -/
def Edits (id : RuleId) : RuleTask → Prop
  | .update r _ => r.id = id
  | .setActive _ other _ _ | .delete _ other => other = id
  | .create .. | .seed .. => False

/-- The plan of an edit for a rule that it has read. -/
def plan : RuleTask → Rule → RulePlan
  | .update r now, stored =>
    if r.validate = .ok () ∧ stored.tenant = r.tenant then
      .put (RuleService.revised r stored now) (stored.name ≠ r.name)
    else .keep
  | .setActive tenant _ active now, stored =>
    if stored.tenant = tenant ∧ stored.active ≠ active then
      .put { stored with active, updatedAt := now } false
    else .keep
  | .delete tenant id, stored => if stored.tenant = tenant then .remove id else .keep
  | .create .., _ | .seed .., _ => .keep

/-- The store after a task that was run by itself. -/
def after {σ : Type} [RuleStore σ] (t : RuleTask) (s : σ) : σ := (t.script.run s).2

variable {t : RuleTask} {id : RuleId} {stored r : Rule} {search : Bool}

theorem isAbout_plan (h : t.Edits id) (hid : stored.id = id) : (t.plan stored).IsAbout id := by
  unfold plan
  split
  · split
    · exact h
    · trivial
  · split
    · exact hid
    · trivial
  · split
    · exact h
    · trivial
  · trivial
  · trivial

/-- A rule is written to replace a definition or to switch the rule that was read. -/
theorem put_cases (h : t.plan stored = .put r search) :
    (∃ v now, t = .update v now ∧ v.validate = .ok () ∧ stored.tenant = v.tenant ∧
      r = RuleService.revised v stored now ∧ search = decide (stored.name ≠ v.name)) ∨
    ∃ tenant id active now, t = .setActive tenant id active now ∧ stored.active ≠ active ∧
      r = { stored with active, updatedAt := now } ∧ search = false := by
  cases t with
  | update v now =>
    rw [plan] at h
    split at h
    · next hc =>
      cases h
      exact .inl ⟨v, now, rfl, hc.1, hc.2, rfl, rfl⟩
    · cases h
  | setActive tenant id active now =>
    rw [plan] at h
    split at h
    · next hc =>
      cases h
      exact .inr ⟨tenant, id, active, now, rfl, hc.2, rfl, rfl⟩
    · cases h
  | delete tenant id =>
    rw [plan] at h
    split at h <;> cases h
  | create | seed => cases h

theorem rewrites_of_plan (h : t.plan stored = .put r search) :
    RulePlan.Rewrites stored r search := by
  obtain ⟨v, now, -, -, htenant, rfl, rfl⟩ | ⟨-, -, -, now, -, -, rfl, rfl⟩ := put_cases h
  · exact ⟨htenant.symm, rfl, rfl, decide_eq_true_iff⟩
  · exact ⟨rfl, rfl, rfl, by simp⟩

end RuleTask

/-! ### Scripts that carry out plans -/

namespace RuleScript

variable {α : Type} {id : RuleId} {plan : Rule → RulePlan} {p : RuleScript α}

/-- Whether a script carries a plan out. -/
inductive Performs : RulePlan → RuleScript α → Prop
  | keep (a : α) : Performs .keep (.done a)
  | put {r : Rule} {next : Except EngineError Unit → RuleScript α}
      (h : ∀ answer, (next answer).IsDone) : Performs (.put r false) (.call (.update r) next)
  | search {r : Rule} {next : Except EngineError (Option Rule) → RuleScript α}
      (hfree : Performs (.put r false) (next (.ok none)))
      (hown : ∀ other : Rule, other.id = r.id → Performs (.put r false) (next (.ok (some other))))
      (htaken : ∀ other : Rule, other.id ≠ r.id → (next (.ok (some other))).IsDone)
      (herror : ∀ e, (next (.error e)).IsDone) :
      Performs (.put r true) (.call (.byName r.tenant r.name) next)
  | remove {id : RuleId} {next : Except EngineError Unit → RuleScript α}
      (h : ∀ answer, (next answer).IsDone) : Performs (.remove id) (.call (.delete id) next)

/-- Whether a script reads a rule and carries out the plan for it. -/
inductive Follows (id : RuleId) (plan : Rule → RulePlan) : RuleScript α → Prop
  | idle (a : α) (h : ∀ stored, plan stored = .keep) : Follows id plan (.done a)
  | reads {next : Except EngineError (Option Rule) → RuleScript α}
      (h : ∀ stored : Rule, Performs (plan stored) (next (.ok (some stored))))
      (hnone : (next (.ok none)).IsDone) (herror : ∀ e, (next (.error e)).IsDone) :
      Follows id plan (.call (.byId id) next)

theorem Performs.writesLast {plan : RulePlan} (h : Performs plan p) : p.WritesLast := by
  induction h with
  | keep a => exact .done a
  | put h | remove h => exact .last h
  | @search r next hfree hown htaken herror ihfree ihown =>
    refine .look rfl fun answer => ?_
    rcases answer with e | _ | other
    · exact (herror e).writesLast
    · exact ihfree
    · by_cases ho : other.id = r.id
      · exact ihown other ho
      · exact (htaken other ho).writesLast

theorem Follows.writesLast (h : Follows id plan p) : p.WritesLast := by
  cases h with
  | idle a => exact .done a
  | reads h hnone herror =>
    refine .look rfl fun answer => ?_
    rcases answer with e | _ | stored
    · exact (herror e).writesLast
    · exact hnone.writesLast
    · exact (h stored).writesLast

/-- A script that writes at once has nothing to look at. -/
theorem Performs.eq_of_ahead {σ : Type} [RuleStore σ] {s : σ} {p' : RuleScript α} {r : Rule}
    (h : Performs (.put r false) p) (ha : Ahead s p p') : p' = p := by
  cases h
  cases ha with
  | refl => rfl
  | look hc => cases hc

end RuleScript

namespace RuleService

open RuleScript

variable {α : Type} {tenant : TenantId} {id : RuleId} {plan : Rule → RulePlan}

/-- An operation that starts by reading the rule of a tenant. -/
theorem follows_get_bind {k : Rule → RuleOperation α}
    (h : ∀ stored : Rule, stored.tenant = tenant →
      Performs (plan stored) (ExceptT.run (k stored)))
    (hk : ∀ stored : Rule, stored.tenant ≠ tenant → plan stored = .keep) :
    RuleScript.Follows id plan (ExceptT.run (get tenant id >>= k)) := by
  refine .reads (fun stored => ?_) ⟨_, rfl⟩ fun e => ⟨_, rfl⟩
  change Performs (plan stored) (RuleScript.bind (ExceptT.run
    (if stored.tenant = tenant then pure stored else throw (.notFound .rule id)))
    (ExceptT.bindCont k))
  split
  · next ht => exact h stored ht
  · next ht =>
    rw [hk stored ht]
    exact .keep _

theorem performs_ask_update (r : Rule) :
    Performs (.put r false) (ExceptT.run (do
      RuleOperation.ask (.update r)
      return r)) := by
  refine .put fun answer => ?_
  cases answer with
  | error e => exact ⟨_, rfl⟩
  | ok _ => exact ⟨_, rfl⟩

/-- An operation that looks for the name of a definition before it writes a rule with it. -/
theorem performs_ensureNameFree_bind {r stored : Rule} {now : Timestamp}
    {k : Unit → RuleOperation α}
    (h : Performs (.put (revised r stored now) false) (ExceptT.run (k ()))) :
    Performs (.put (revised r stored now) true) (ExceptT.run (ensureNameFree r >>= k)) := by
  refine .search h (fun other ho => ?_) (fun other ho => ?_) fun e => ⟨_, rfl⟩
  · change Performs _ (RuleScript.bind (ExceptT.run
      (if other.id = r.id then pure () else throw (.conflict .rule r.name))) (ExceptT.bindCont k))
    rw [if_pos (show other.id = r.id from ho)]
    exact h
  · change (RuleScript.bind (ExceptT.run
      (if other.id = r.id then pure () else throw (.conflict .rule r.name)))
      (ExceptT.bindCont k)).IsDone
    rw [if_neg (show other.id ≠ r.id from ho)]
    exact ⟨_, rfl⟩

theorem follows_update (r : Rule) (now : Timestamp) :
    RuleScript.Follows r.id (RuleTask.update r now).plan (ExceptT.run (update r now)) := by
  rw [update, check]
  cases hv : r.validate with
  | error fault => exact .idle _ fun stored => by simp [RuleTask.plan, hv]
  | ok _ =>
    refine follows_get_bind (fun stored ht => ?_) fun stored ht => by simp [RuleTask.plan, ht]
    have hplan : (RuleTask.update r now).plan stored =
        .put (revised r stored now) (stored.name ≠ r.name) := if_pos ⟨hv, ht⟩
    rw [hplan]
    dsimp only
    split
    · next hn =>
      rw [decide_eq_true hn]
      exact performs_ensureNameFree_bind (performs_ask_update _)
    · next hn =>
      rw [decide_eq_false hn]
      exact performs_ask_update _

theorem follows_setActive (tenant : TenantId) (id : RuleId) (active : Bool) (now : Timestamp) :
    RuleScript.Follows id (RuleTask.setActive tenant id active now).plan
      (ExceptT.run (setActive tenant id active now)) := by
  refine follows_get_bind (fun stored ht => ?_) fun stored ht => by simp [RuleTask.plan, ht]
  dsimp only
  split
  · next ha =>
    rw [RuleTask.plan, if_neg fun hn => hn.2 ha]
    exact .keep _
  · next ha =>
    rw [RuleTask.plan, if_pos ⟨ht, ha⟩]
    exact performs_ask_update _

theorem follows_delete (tenant : TenantId) (id : RuleId) :
    RuleScript.Follows id (RuleTask.delete tenant id).plan (ExceptT.run (delete tenant id)) := by
  refine follows_get_bind (fun stored ht => ?_) fun stored ht => if_neg ht
  rw [RuleTask.plan, if_pos ht]
  exact .remove fun answer => ⟨_, rfl⟩

end RuleService

/-- The script of an edit reads the rule and carries its plan out. -/
theorem RuleTask.follows_script {t : RuleTask} {id : RuleId} (h : t.Edits id) :
    RuleScript.Follows id t.plan t.script := by
  cases t with
  | update r now =>
    obtain rfl : r.id = id := h
    exact RuleService.follows_update r now
  | setActive tenant other active now =>
    obtain rfl : other = id := h
    exact RuleService.follows_setActive tenant other active now
  | delete tenant other =>
    obtain rfl : other = id := h
    exact RuleService.follows_delete tenant other
  | create | seed => exact h.elim

/-! ### What plans come to -/

section

variable {σ α : Type} [RuleStore σ] [EditableStore σ] {s : σ} {id : RuleId}

/-- The cell of a rule after a plan: a rule is written unless its name is looked for and taken, or
the store refuses it. -/
def RulePlan.apply (taken : TenantId → String → Bool) (row : Option (Row σ)) :
    RulePlan → Option (Row σ)
  | .keep => row
  | .put r search =>
    if (search && taken r.tenant r.name) || refuses σ (taken r.tenant r.name) row then row
    else some (ofRule r)
  | .remove _ => none

namespace RulePlan

variable {taken : TenantId → String → Bool} {row : Option (Row σ)}

theorem apply_put_of_refused {r : Rule} {search : Bool}
    (h : (search || isStrict σ) = true) (ht : taken r.tenant r.name = true) :
    (put r search).apply taken row = row := by
  cases search with
  | true => simp [apply, ht]
  | false => simp [apply, refuses, ht, show isStrict σ = true from h]

theorem apply_put_of_free {r : Rule} {search : Bool}
    (h : ((search || isStrict σ) && taken r.tenant r.name) = false) :
    (put r search).apply taken row =
      if (isStrict σ && row.isNone) = true then row else some (ofRule r) := by
  cases ht : taken r.tenant r.name with
  | true =>
    obtain ⟨hs, hstrict⟩ : search = false ∧ isStrict σ = false := by simpa [ht] using h
    simp [apply, refuses, hs, hstrict]
  | false => simp [apply, refuses, ht]

/-- A rule whose name is free is written in the place of another one. -/
theorem apply_put_some_of_free {r : Rule} {search : Bool}
    (h : ((search || isStrict σ) && taken r.tenant r.name) = false) (row : Row σ) :
    (put r search).apply taken (some row) = some (ofRule r) := by
  rw [apply_put_of_free h, Option.isNone_some, Bool.and_false, if_neg Bool.false_ne_true]

end RulePlan

/-- A script that writes a rule comes to its plan. -/
theorem RuleScript.Performs.becomes_put {r : Rule} {p : RuleScript α} (hs : IsSound s)
    (h : Performs (.put r false) p) :
    Becomes s r.id ((RulePlan.put r false).apply (isTaken s r.id) (row? s r.id)) (p.run s).2 := by
  cases h with
  | @put r next hdone =>
    rw [run, (hdone _).snd_run, RulePlan.apply, Bool.false_and, Bool.false_or]
    cases hr : refuses σ (isTaken s r.id r.tenant r.name) (row? s r.id) with
    | true =>
      obtain ⟨e, he⟩ := EditableStore.updateRule_of_refuses hs hr
      rw [if_pos rfl, RuleCall.perform, he]
      exact .refl hs r.id
    | false =>
      obtain ⟨s', hs', hbecomes⟩ := EditableStore.exists_updateRule hs hr
      rw [if_neg Bool.false_ne_true, RuleCall.perform, hs']
      exact hbecomes

/-- After a look for its name a rule is written if no other rule has the name and its own row can be
read. -/
theorem RuleScript.Performs.search_cases {r : Rule}
    {next : Except EngineError (Option Rule) → RuleScript α} (hs : IsSound s)
    (h : Performs (.put r true) (.call (.byName r.tenant r.name) next))
    (hn : isTaken s r.id r.tenant r.name = true →
      ∀ row, row? s r.id = some row → isNamed row r.tenant r.name = false) :
    isTaken s r.id r.tenant r.name = true ∧
        (next (RuleStore.ruleByName s r.tenant r.name)).IsDone ∨
      isTaken s r.id r.tenant r.name = false ∧
        (Performs (.put r false) (next (RuleStore.ruleByName s r.tenant r.name)) ∨
          (next (RuleStore.ruleByName s r.tenant r.name)).IsDone ∧
            ∃ row e, row? s r.id = some row ∧ read row = .error e) := by
  cases h with
  | search hfree hown htaken herror =>
    cases ht : isTaken s r.id r.tenant r.name with
    | true =>
      refine .inl ⟨rfl, ?_⟩
      obtain ⟨other, ho, hne⟩ | ⟨e, he⟩ := EditableStore.ruleByName_of_taken hs ht (hn ht)
      · rw [ho]
        exact htaken other hne
      · rw [he]
        exact herror e
    | false =>
      refine .inr ⟨rfl, ?_⟩
      obtain hfound | ⟨own, hfound, ho⟩ | ⟨row, e, hrow, hread, hfound⟩ :=
        EditableStore.ruleByName_of_free hs ht
      · rw [hfound]
        exact .inl hfree
      · rw [hfound]
        exact .inl (hown own ho)
      · rw [hfound]
        exact .inr ⟨herror e, row, e, hrow, hread⟩

/-- A script comes to its plan, if the name that it looks for is not one that the rule shares with
another one. A rule that cannot be read is left as it is if its own name is looked for. -/
theorem RuleScript.Performs.becomes {plan : RulePlan} {p : RuleScript α} (hs : IsSound s)
    (h : Performs plan p) (hid : plan.IsAbout id)
    (hn : ∀ r, plan = .put r true → isTaken s id r.tenant r.name = true →
      ∀ row, row? s id = some row → isNamed row r.tenant r.name = false) :
    Becomes s id (plan.apply (isTaken s id) (row? s id)) (p.run s).2 ∨
      (p.run s).2 = s ∧ ∃ row e, row? s id = some row ∧ read row = .error e := by
  cases h with
  | keep a => exact .inl (.refl hs id)
  | put hdone =>
    obtain rfl := hid
    exact .inl ((Performs.put hdone).becomes_put hs)
  | @remove other next hdone =>
    obtain rfl : other = id := hid
    obtain ⟨s', hs', hbecomes⟩ := EditableStore.exists_deleteRule hs other
    refine .inl ?_
    rw [run, (hdone _).snd_run, RuleCall.perform, hs']
    exact hbecomes
  | @search r next hfree hown htaken herror =>
    obtain rfl : r.id = id := hid
    obtain ⟨ht, hdone⟩ | ⟨ht, hwrite | ⟨hdone, hunread⟩⟩ :=
      (Performs.search hfree hown htaken herror).search_cases hs (hn r rfl)
    · refine .inl ?_
      rw [run, RuleCall.perform, hdone.snd_run, RulePlan.apply, ht, Bool.and_self, Bool.true_or,
        if_pos rfl]
      exact .refl hs r.id
    · have hput : (RulePlan.put r true).apply (isTaken s r.id) (row? s r.id) =
          (RulePlan.put r false).apply (isTaken s r.id) (row? s r.id) := by
        simp only [RulePlan.apply, ht, Bool.and_false]
      rw [hput, run, RuleCall.perform]
      exact .inl (hwrite.becomes_put hs)
    · rw [run, RuleCall.perform, hdone.snd_run]
      exact .inr ⟨rfl, hunread⟩

/-- After some looks at a store a script has its plan before it, or nothing, or it is to write a
rule with a name that was free. -/
theorem RuleScript.Performs.ahead_cases {plan : RulePlan} {p p' : RuleScript α} (hs : IsSound s)
    (h : Performs plan p) (hid : plan.IsAbout id)
    (hn : ∀ r, plan = .put r true → ∀ row, row? s id = some row →
      isNamed row r.tenant r.name = false)
    (ha : Ahead s p p') :
    Performs plan p' ∨ p'.IsDone ∨ ∃ r, plan = .put r true ∧
      isTaken s id r.tenant r.name = false ∧ Performs (.put r false) p' := by
  cases ha with
  | refl => exact .inl h
  | look hc ha =>
    cases h with
    | put | remove => cases hc
    | @search r next hfree hown htaken herror =>
      obtain rfl : r.id = id := hid
      rw [RuleCall.perform] at ha
      obtain ⟨-, hdone⟩ | ⟨ht, hwrite | ⟨hdone, -⟩⟩ :=
        (Performs.search hfree hown htaken herror).search_cases hs fun _ => hn r rfl
      · exact .inr (.inl (ha.eq_of_isDone hdone ▸ hdone))
      · exact .inr (.inr ⟨r, rfl, ht, hwrite.eq_of_ahead ha ▸ hwrite⟩)
      · exact .inr (.inl (ha.eq_of_isDone hdone ▸ hdone))

/-- After the rule is read, a script carries out the plan for it, or stops as there is none that can
be read. -/
theorem RuleScript.Follows.read_cases {plan : Rule → RulePlan}
    {next : Except EngineError (Option Rule) → RuleScript α} (hs : IsSound s)
    (h : Follows id plan (.call (.byId id) next)) :
    (next (RuleStore.ruleById s id)).IsDone ∧
        (∀ row stored, row? s id = some row → read row ≠ .ok stored) ∨
      ∃ row stored, row? s id = some row ∧ read row = .ok stored ∧
        Performs (plan stored) (next (RuleStore.ruleById s id)) := by
  cases h with
  | reads hperforms hnone herror =>
    cases hrow : row? s id with
    | none =>
      rw [EditableStore.ruleById_of_none hs hrow]
      exact .inl ⟨hnone, fun row stored hr => nomatch hr⟩
    | some row =>
      cases hread : read row with
      | error e =>
        rw [EditableStore.ruleById_of_error hs hrow hread]
        refine .inl ⟨herror e, fun row' stored hr hok => ?_⟩
        cases hr
        cases hread.symm.trans hok
      | ok stored =>
        rw [EditableStore.ruleById_of_ok hs hrow hread]
        exact .inr ⟨row, stored, rfl, hread, hperforms stored⟩

namespace RuleTask

variable {taken : TenantId → String → Bool} {row : Row σ} {stored r : Rule} {t x y : RuleTask}

/-- The cell of a rule after an edit. -/
def effect (t : RuleTask) (taken : TenantId → String → Bool) (row : Option (Row σ)) :
    Option (Row σ) :=
  match row with
  | none => none
  | some kept => match read kept with
    | .ok stored => (t.plan stored).apply taken row
    | .error _ => row

/-- An edit leaves a cell alone if it has no plan for what it can read there. -/
theorem effect_eq_self {cell : Option (Row σ)}
    (h : ∀ row stored, cell = some row → read row = .ok stored → t.plan stored = .keep) :
    t.effect taken cell = cell := by
  unfold effect
  split
  · rfl
  · next row =>
    split
    · next stored hread =>
      rw [h row stored rfl hread]
      rfl
    · rfl

theorem effect_of_read (t : RuleTask) (hr : read row = .ok stored) :
    t.effect taken (some row) = (t.plan stored).apply taken (some row) := by
  simp only [effect, hr]

/-- A name that is looked for is not that of the rule that was read. -/
theorem isNamed_of_plan (hr : read row = .ok stored)
    (h : t.plan stored = .put r true) : isNamed row r.tenant r.name = false := by
  have hname : stored.name ≠ r.name := (rewrites_of_plan h).search_iff.mp rfl
  rw [EditableStore.isNamed_of_read hr, Bool.and_eq_false_iff]
  exact .inr (beq_eq_false_iff_ne.mpr hname)

theorem isNamed_of_row? (hrow : row? s id = some row) (hread : read row = .ok stored)
    (h : t.plan stored = .put r true) (row' : Row σ) (hrow' : row? s id = some row') :
    isNamed row' r.tenant r.name = false := by
  cases hrow.symm.trans hrow'
  exact isNamed_of_plan hread h

/-- An edit that is run by itself has its effect. -/
theorem becomes_after (hs : IsSound s) (ht : t.Edits id) :
    Becomes s id (t.effect (isTaken s id) (row? s id)) (t.after s) := by
  have hscript := follows_script ht
  unfold after
  generalize t.script = p at hscript
  cases hscript with
  | idle a hkeep =>
    rw [effect_eq_self fun _ stored _ _ => hkeep stored]
    exact .refl hs id
  | @reads next hperforms hnone herror =>
    rw [RuleScript.run, RuleCall.perform]
    obtain ⟨hdone, hunread⟩ | ⟨row, stored, hrow, hread, hplan⟩ :=
      (RuleScript.Follows.reads hperforms hnone herror).read_cases hs
    · rw [effect_eq_self fun row stored hrow hread => absurd hread (hunread row stored hrow),
        hdone.snd_run]
      exact .refl hs id
    · have hid := isAbout_plan ht (EditableStore.id_eq hrow hread)
      obtain hbecomes | ⟨-, row', e, hrow', herror⟩ :=
        hplan.becomes hs hid fun r hr _ => isNamed_of_row? hrow hread hr
      · rw [hrow, effect_of_read t hread]
        exact hrow ▸ hbecomes
      · cases hrow.symm.trans hrow'
        cases hread.symm.trans herror

theorem row?_after (hs : IsSound s) (ht : t.Edits id) (hrow : row? s id = some row)
    (hread : read row = .ok stored) :
    row? (t.after s) id = (t.plan stored).apply (isTaken s id) (some row) := by
  rw [(becomes_after hs ht).row_eq, hrow, effect_of_read t hread]

/-- An edit that is run after another one has its effect on the cell that the other one leaves. -/
theorem row?_after_after (hs : IsSound s) (hx : x.Edits id) (hy : y.Edits id) :
    row? (y.after (x.after s)) id = y.effect (isTaken s id) (row? (x.after s) id) := by
  have hbecomes := becomes_after hs hx
  rw [(becomes_after hbecomes.sound hy).row_eq, hbecomes.taken_eq]

/-- After some looks at a store an edit is where it began, or has nothing left to do, or it has read
the rule and has its plan before it, or the write of a rule with a name that was free. -/
theorem ahead_cases (hs : IsSound s) (ht : t.Edits id) {p : RuleScript t.Result}
    (h : RuleScript.Ahead s t.script p) :
    p = t.script ∨ p.IsDone ∨ ∃ row stored, row? s id = some row ∧ read row = .ok stored ∧
      (RuleScript.Performs (t.plan stored) p ∨ ∃ r, t.plan stored = .put r true ∧
        isTaken s id r.tenant r.name = false ∧ RuleScript.Performs (.put r false) p) := by
  have hscript := follows_script ht
  generalize t.script = q at h hscript
  cases h with
  | refl => exact .inl rfl
  | look hc h =>
    cases hscript with
    | reads hperforms hnone herror =>
      rw [RuleCall.perform] at h
      obtain ⟨hdone, -⟩ | ⟨row, stored, hrow, hread, hplan⟩ :=
        (RuleScript.Follows.reads hperforms hnone herror).read_cases hs
      · exact .inr (.inl (h.eq_of_isDone hdone ▸ hdone))
      · have hid := isAbout_plan ht (EditableStore.id_eq hrow hread)
        obtain hplan | hdone | hwrite :=
          hplan.ahead_cases hs hid (fun r hr => isNamed_of_row? hrow hread hr) h
        · exact .inr (.inr ⟨row, stored, hrow, hread, .inl hplan⟩)
        · exact .inr (.inl hdone)
        · exact .inr (.inr ⟨row, stored, hrow, hread, .inr hwrite⟩)

/-- An edit comes to write a rule by looks at a store, if no other rule has the name that it looks
for. -/
theorem exists_ahead (hs : IsSound s) (ht : t.Edits id) (hrow : row? s id = some row)
    (hread : read row = .ok stored) {search : Bool} (hplan : t.plan stored = .put r search)
    (hfree : (search && isTaken s id r.tenant r.name) = false) :
    ∃ p, RuleScript.Ahead s t.script p ∧ RuleScript.Performs (.put r false) p := by
  have hid := isAbout_plan ht (EditableStore.id_eq hrow hread)
  have hscript := follows_script ht
  generalize t.script = q at hscript
  cases hscript with
  | idle a hkeep => cases hplan.symm.trans (hkeep stored)
  | @reads next hperforms hnone herror =>
    have hlook {p : RuleScript t.Result}
        (hp : RuleScript.Ahead s (next (.ok (some stored))) p) :
        RuleScript.Ahead s (.call (.byId id) next) p := by
      refine .look rfl ?_
      rw [RuleCall.perform, EditableStore.ruleById_of_ok hs hrow hread]
      exact hp
    have hnext := hperforms stored
    rw [hplan] at hnext hid
    obtain rfl : r.id = id := hid
    generalize next (.ok (some stored)) = q at hnext hlook
    cases hnext with
    | put hdone => exact ⟨_, hlook (.refl _), .put hdone⟩
    | search hfree' hown htaken herror' =>
      obtain ⟨htaken, -⟩ | ⟨-, hwrite | ⟨-, row', e, hrow', he⟩⟩ :=
        (RuleScript.Performs.search hfree' hown htaken herror').search_cases hs
          fun _ => isNamed_of_row? hrow hread hplan
      · rw [Bool.true_and, htaken] at hfree
        cases hfree
      · exact ⟨_, hlook (.look rfl (.refl _)), hwrite⟩
      · cases hrow.symm.trans hrow'
        cases hread.symm.trans he

/-- An edit that empties a cell is a deletion. -/
theorem eq_delete_of_apply (hx : x.Edits id)
    (h : (x.plan stored).apply taken (some row) = none) : ∃ tenant, x = .delete tenant id := by
  cases hplan : x.plan stored with
  | keep =>
    rw [hplan] at h
    cases h
  | put r search =>
    rw [hplan, RulePlan.apply] at h
    split at h <;> cases h
  | remove other =>
    cases x with
    | delete tenant other =>
      obtain rfl : other = id := hx
      exact ⟨tenant, rfl⟩
    | update | setActive =>
      rw [plan] at hplan
      split at hplan <;> cases hplan
    | create | seed => exact hx.elim

/-- An edit leaves the row that it finds, or the one of a rule that it was to write. -/
theorem eq_or_eq_ofRule_of_apply {row' : Row σ}
    (h : (x.plan stored).apply taken (some row) = some row') :
    row' = row ∨ ∃ w search, x.plan stored = .put w search ∧ row' = ofRule w := by
  cases hx : x.plan stored with
  | keep =>
    rw [hx] at h
    exact .inl (Option.some.inj h).symm
  | remove =>
    rw [hx] at h
    cases h
  | put w search =>
    rw [hx, RulePlan.apply] at h
    split at h
    · exact .inl (Option.some.inj h).symm
    · exact .inr ⟨w, search, rfl, (Option.some.inj h).symm⟩

/-- The row that an edit leaves does not have the name that another edit looks for, if a third rule
has it. -/
theorem isNamed_of_apply {r : Rule} {row' : Row σ} (hread : read row = .ok stored)
    (hy : y.plan stored = .put r true) (ht : taken r.tenant r.name = true)
    (hx : (x.plan stored).apply taken (some row) = some row') :
    isNamed row' r.tenant r.name = false := by
  have hown : isNamed row r.tenant r.name = false := isNamed_of_plan hread hy
  obtain rfl | ⟨w, search, hw, rfl⟩ := eq_or_eq_ofRule_of_apply hx
  · exact hown
  · by_contra hn
    rw [Bool.not_eq_false, EditableStore.isNamed_ofRule, Bool.and_eq_true, beq_iff_eq,
      beq_iff_eq] at hn
    obtain ⟨htenant, hname⟩ := hn
    have hsearch : search = true :=
      (rewrites_of_plan hw).search_iff.mpr (hname ▸ (rewrites_of_plan hy).search_iff.mp rfl)
    rw [hw, hsearch, RulePlan.apply_put_of_refused rfl (by rw [htenant, hname, ht])] at hx
    cases Option.some.inj hx
    rw [EditableStore.isNamed_ofRule, htenant, hname, beq_self_eq_true, beq_self_eq_true] at hown
    cases hown

end RuleTask

end

end RuleEngine
