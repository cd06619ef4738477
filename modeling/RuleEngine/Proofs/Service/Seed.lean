import RuleEngine.Proofs.Data.Depth
import RuleEngine.Proofs.Store.RuleRow
import RuleEngine.Service.Seed

/-!
# Seeded rules can be kept

A seed text is read with a limit for its nesting, and the rules that it defines are nested less
deep than the text. So a database can keep every rule that a text defines.

## Main definitions

* `RuleSeed.IsStorable`: the definitions that can be read back.

## Main results

* `RuleSeed.applyAll_steps`: the draft of a definition.
* `RuleSeed.isStorable_of_parse`: what a seed text defines can be read back from its row.
-/

namespace RuleEngine

namespace RuleDraft

theorem applyAll_conditions (d : RuleDraft) (conditions : List Condition) :
    d.applyAll (conditions.map .condition) =
      { d with conditions := d.conditions ++ conditions } := by
  induction conditions generalizing d with
  | nil =>
    rw [List.append_nil]
    rfl
  | cons c rest ih =>
    rw [List.map_cons]
    refine (ih (d.apply (.condition c))).trans ?_
    rw [apply, List.append_assoc, List.singleton_append]

theorem applyAll_actions (d : RuleDraft) (actions : List Action) :
    d.applyAll (actions.map .action) = { d with actions := d.actions ++ actions } := by
  induction actions generalizing d with
  | nil =>
    rw [List.append_nil]
    rfl
  | cons a rest ih =>
    rw [List.map_cons]
    refine (ih (d.apply (.action a))).trans ?_
    rw [apply, List.append_assoc, List.singleton_append]

theorem applyAll_append (d : RuleDraft) (before after : List Step) :
    d.applyAll (before ++ after) = (d.applyAll before).applyAll after := List.foldl_append

end RuleDraft

namespace RuleSeed

variable {s : RuleSeed}

/-- The draft of a definition. -/
theorem applyAll_steps (s : RuleSeed) :
    RuleDraft.applyAll {} s.steps =
      { tenant := some s.tenant, name := some s.name, trigger := some s.trigger,
        combination := s.combination, active := some s.active, delaySeconds := s.delaySeconds,
        conditions := s.conditions, actions := s.actions } := by
  rw [steps, RuleDraft.applyAll_append, RuleDraft.applyAll_append, RuleDraft.applyAll_append,
    RuleDraft.applyAll_conditions, RuleDraft.applyAll_actions]
  cases s.delaySeconds <;> rfl

/-- Whether a definition can be read back: its cron expression is that of a text, the orders of its
actions fit 32 bits, and its lists are not nested too deep. -/
structure IsStorable (s : RuleSeed) : Prop where
  cron : ∀ c, s.trigger = .schedule c → c.IsRead
  order : ∀ a ∈ s.actions, a.order < wordBound
  conditions : (Json.arr (s.conditions.map Condition.toJson)).depth ≤ Json.depthLimit
  actions : (Json.arr (s.actions.map Action.toJson)).depth ≤ Json.depthLimit

/-- The data of a list in a definition is not nested deeper than the definition, small depths
aside. -/
private theorem depth_arr_le_of_defaulted {α : Type} {f : Json → Option α} {g : α → Json} {n : Nat}
    {field : Option Json} {l : List α} {depth : Nat}
    (h : Json.defaulted [] (Json.list? f) field = some l)
    (hd : ∀ c, field = some c → c.depth ≤ depth)
    (hg : ∀ i a, f i = some a → (g a).depth ≤ max n i.depth) :
    (Json.arr (l.map g)).depth ≤ max (n + 1) depth := by
  cases field with
  | none =>
    cases h
    exact (Nat.le_add_left 1 n).trans (Nat.le_max_left _ _)
  | some c =>
    have := Json.depth_arr_le_of_list? h hg
    have := hd c rfl
    omega

/-- A definition can be read back if the data that denotes it is not nested deeper than the limit. -/
theorem isStorable_of_ofJson? {j : Json} (h : ofJson? j = some s) (hj : j.depth ≤ Json.depthLimit) :
    s.IsStorable := by
  unfold ofJson? at h
  obtain ⟨l, hl, h⟩ := Option.bind_eq_some_iff.mp h
  split at h
  · next tenant name trigger combination active delay conditions actions =>
    obtain ⟨_, -, h⟩ := Option.bind_eq_some_iff.mp h
    obtain ⟨_, -, h⟩ := Option.bind_eq_some_iff.mp h
    obtain ⟨_, htrigger, h⟩ := Option.bind_eq_some_iff.mp h
    obtain ⟨_, -, h⟩ := Option.bind_eq_some_iff.mp h
    obtain ⟨_, -, h⟩ := Option.bind_eq_some_iff.mp h
    obtain ⟨_, -, h⟩ := Option.bind_eq_some_iff.mp h
    obtain ⟨_, hconditions, h⟩ := Option.bind_eq_some_iff.mp h
    obtain ⟨_, hactions, h⟩ := Option.bind_eq_some_iff.mp h
    cases h
    have hfield {field : Json} (hf : some field ∈ [tenant, name, trigger, combination, active,
        delay, conditions, actions]) : field.depth ≤ Json.depthLimit :=
      (Json.depth_lt_of_record? hl hf).le.trans hj
    have hclimit := depth_arr_le_of_defaulted hconditions (fun c he => hfield (by simp [he]))
      fun _ _ => Condition.depth_toJson_le
    have halimit := depth_arr_le_of_defaulted hactions (fun c he => hfield (by simp [he]))
      fun _ _ => Action.depth_toJson_le
    refine ⟨fun c he => ?_, fun a hm => ?_, hclimit, halimit⟩
    · cases trigger with
      | none => cases htrigger
      | some t =>
        cases he
        exact Trigger.isRead_of_ofJson? htrigger
    · cases actions with
      | none =>
        cases hactions
        cases hm
      | some l =>
        obtain ⟨i, -, hi⟩ := Json.exists_of_mem_list? hactions hm
        exact Action.order_lt_of_ofJson? hi
  · cases h

/-- What a seed text defines can be read back from its row. -/
theorem isStorable_of_parse {text : String} {seeds : List RuleSeed}
    (h : parse text = .ok seeds) (hs : s ∈ seeds) : s.IsStorable := by
  unfold parse at h
  split at h
  · next seeds' hseeds =>
    cases h
    obtain ⟨j, hj, hlist⟩ := Option.bind_eq_some_iff.mp hseeds
    obtain ⟨i, hi, hof⟩ := Json.exists_of_mem_list? hlist hs
    exact isStorable_of_ofJson? hof (hi.le.trans (Json.depth_le_of_read? hj))
  · cases h

end RuleSeed

end RuleEngine
