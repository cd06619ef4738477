import RuleEngine.Service.Rules

/-!
# What managing rules does to a store

An operation on rules makes at most one call that writes, and it looks at the store before. So the
store after it is the store before it, or the store after that one call, with a rule that is given
here for each operation.

## Main definitions

* `RuleOperation.perform`: the result of an operation and the store after it.
* `RuleService.created`, `RuleService.revised`: the rules that are written.

## Main results

* `RuleOperation.perform_bind`: what an operation in two parts does.
* `RuleService.perform_create_cases`, `RuleService.perform_update_cases`,
  `RuleService.perform_setActive_cases`, `RuleService.perform_delete_cases`: the operations are
  refused without a write, or make their write and return what they wrote.
* `RuleService.snd_perform_create`, `RuleService.snd_perform_update`,
  `RuleService.snd_perform_setActive`, `RuleService.snd_perform_delete`: the store after the
  operations.
-/

namespace RuleEngine

variable {σ α β : Type} [RuleStore σ]

namespace RuleScript

/-- A script that goes on with another one runs the one and then the other. -/
theorem run_bind (s : σ) (m : RuleScript α) (f : α → RuleScript β) :
    (m.bind f).run s = (f (m.run s).1).run (m.run s).2 := by
  induction m generalizing s with
  | done a => rfl
  | call c next ih =>
    exact ih _ _

end RuleScript

namespace RuleOperation

/-- Runs an operation on a store: its result or the refusal, and the store after it. -/
def perform (s : σ) (o : RuleOperation α) : Except EngineError α × σ :=
  (ExceptT.run o).run s

@[simp] theorem perform_ask (s : σ) (c : RuleCall) : (ask c).perform s = c.perform s := rfl

/-- An operation that goes on with another one is refused if the one is, and else it is the other
on the store after it. -/
theorem perform_bind (s : σ) (o : RuleOperation α) (f : α → RuleOperation β) :
    (o >>= f).perform s = match o.perform s with
      | (.ok a, s') => (f a).perform s'
      | (.error e, s') => (.error e, s') := by
  have h := RuleScript.run_bind s (ExceptT.run o) (ExceptT.bindCont f)
  have hb : (o >>= f).perform s = ((ExceptT.run o).bind (ExceptT.bindCont f)).run s := rfl
  rw [hb, h]
  unfold perform
  split <;> rename_i heq <;> rw [heq] <;> rfl

/-- An operation that goes on with another one after a part that only looks is refused by the part,
or it is the other one. -/
theorem perform_bind_of_looks {s : σ} {o : RuleOperation α} (f : α → RuleOperation β)
    (h : (o.perform s).2 = s) :
    (∃ e, (o >>= f).perform s = (.error e, s)) ∨
      ∃ a, (o.perform s).1 = .ok a ∧ (o >>= f).perform s = (f a).perform s := by
  rw [perform_bind]
  rcases ho : o.perform s with ⟨result, s'⟩
  obtain rfl : s' = s := by rw [← h, ho]
  cases result with
  | error e => exact .inl ⟨e, rfl⟩
  | ok a => exact .inr ⟨a, rfl, rfl⟩

end RuleOperation

namespace RuleService

/-! ### The parts that look -/

theorem perform_get (s : σ) (tenant : TenantId) (id : RuleId) :
    (get tenant id).perform s = (match RuleStore.ruleById s id with
      | .ok (some r) => if r.tenant = tenant then .ok r else .error (.notFound .rule id)
      | .ok none => .error (.notFound .rule id)
      | .error e => .error e, s) := by
  rw [get, RuleOperation.perform_bind, RuleOperation.perform_ask, RuleCall.perform]
  cases h : RuleStore.ruleById s id with
  | error e => rfl
  | ok r =>
    cases r with
    | none => rfl
    | some r =>
      simp only
      split <;> rfl

theorem ruleById_of_get {s : σ} {tenant : TenantId} {id : RuleId} {r : Rule}
    (h : ((get tenant id).perform s).1 = .ok r) :
    RuleStore.ruleById s id = .ok (some r) ∧ r.tenant = tenant := by
  rw [perform_get] at h
  revert h
  rcases RuleStore.ruleById s id with e | _ | stored
  · exact nofun
  · exact nofun
  · by_cases ht : stored.tenant = tenant
    · simp only [if_pos ht]
      rintro h
      cases h
      exact ⟨rfl, ht⟩
    · simp only [if_neg ht]
      exact nofun

theorem perform_check (s : σ) (r : Rule) :
    (check r).perform s = (r.validate.mapError EngineError.definition, s) := by
  rw [check]
  cases r.validate <;> rfl

theorem perform_check_of_valid {r : Rule} (s : σ) (h : r.validate = .ok ()) :
    (check r).perform s = (.ok (), s) := by
  rw [perform_check, h]
  rfl

theorem perform_ensureNameFree (s : σ) (r : Rule) : ((ensureNameFree r).perform s).2 = s := by
  rw [ensureNameFree, RuleOperation.perform_bind, RuleOperation.perform_ask, RuleCall.perform]
  cases RuleStore.ruleByName s r.tenant r.name with
  | error e => rfl
  | ok other =>
    cases other with
    | none => rfl
    | some other =>
      simp only
      split <;> rfl

theorem perform_ensureNameFree_of_free {s : σ} {r : Rule} {found : Option Rule}
    (h : RuleStore.ruleByName s r.tenant r.name = .ok found)
    (hf : ∀ other ∈ found, other.id = r.id) : (ensureNameFree r).perform s = (.ok (), s) := by
  rw [ensureNameFree, RuleOperation.perform_bind, RuleOperation.perform_ask, RuleCall.perform, h]
  cases found with
  | none => rfl
  | some other =>
    simp only [if_pos (hf other rfl)]
    rfl

/-! ### What an operation does -/

/-- The rule as it is created at an instant. -/
def created (r : Rule) (now : Timestamp) : Rule :=
  { r with createdAt := now, updatedAt := now, lastTick := none }

/-- The rule by which a definition replaces a stored rule at an instant. -/
def revised (r stored : Rule) (now : Timestamp) : Rule :=
  { r with createdAt := stored.createdAt, lastTick := stored.lastTick, updatedAt := now }

/-- To create a rule is refused and leaves the store as it is, or adds the rule. -/
theorem perform_create_cases (s : σ) (r : Rule) (now : Timestamp) :
    (∃ e, (create r now).perform s = (.error e, s)) ∨
      ∃ s', RuleStore.createRule s (created r now) = .ok s' ∧
        (create r now).perform s = (.ok (created r now), s') := by
  have hc : ((check r).perform s).2 = s := congrArg Prod.snd (perform_check s r)
  rw [create]
  rcases RuleOperation.perform_bind_of_looks _ hc with ⟨e, he⟩ | ⟨_, -, he⟩
  · exact .inl ⟨e, he⟩
  rcases RuleOperation.perform_bind_of_looks _ (perform_ensureNameFree s r) with
    ⟨e, hn⟩ | ⟨_, -, hn⟩
  · exact .inl ⟨e, he.trans hn⟩
  rw [he, hn, RuleOperation.perform_bind, RuleOperation.perform_ask, RuleCall.perform, ← created]
  cases RuleStore.createRule s (created r now) with
  | error e => exact .inl ⟨e, rfl⟩
  | ok s' => exact .inr ⟨s', rfl, rfl⟩

/-- The last part of an operation that replaces a rule. -/
private def replace (r : Rule) : RuleOperation Rule :=
  RuleOperation.ask (.update r) >>= fun _ => pure r

private theorem perform_replace_cases (s : σ) (r : Rule) :
    (∃ e, (replace r).perform s = (.error e, s)) ∨
      ∃ s', RuleStore.updateRule s r = .ok s' ∧ (replace r).perform s = (.ok r, s') := by
  rw [replace, RuleOperation.perform_bind, RuleOperation.perform_ask, RuleCall.perform]
  cases RuleStore.updateRule s r with
  | error e => exact .inl ⟨e, rfl⟩
  | ok s' => exact .inr ⟨s', rfl, rfl⟩

/-- To update a rule is refused and leaves the store as it is, or replaces the stored rule. -/
theorem perform_update_cases (s : σ) (r : Rule) (now : Timestamp) :
    (∃ e, (update r now).perform s = (.error e, s)) ∨
      ∃ stored s', RuleStore.ruleById s r.id = .ok (some stored) ∧ stored.tenant = r.tenant ∧
        RuleStore.updateRule s (revised r stored now) = .ok s' ∧
        (update r now).perform s = (.ok (revised r stored now), s') := by
  have hu : update r now = check r >>= fun _ => get r.tenant r.id >>= fun stored =>
      if stored.name ≠ r.name then ensureNameFree r >>= fun _ => replace (revised r stored now)
      else replace (revised r stored now) := rfl
  have hc : ((check r).perform s).2 = s := congrArg Prod.snd (perform_check s r)
  have hg : ((get r.tenant r.id).perform s).2 = s := congrArg Prod.snd (perform_get s _ _)
  rw [hu]
  rcases RuleOperation.perform_bind_of_looks _ hc with ⟨e, he⟩ | ⟨_, -, he⟩
  · exact .inl ⟨e, he⟩
  rcases RuleOperation.perform_bind_of_looks _ hg with ⟨e, hs⟩ | ⟨stored, hstored, hs⟩
  · exact .inl ⟨e, he.trans hs⟩
  obtain ⟨hid, htenant⟩ := ruleById_of_get hstored
  rw [he, hs]
  by_cases hn : stored.name = r.name
  · rw [if_neg (not_not_intro hn)]
    exact (perform_replace_cases s _).imp_right fun ⟨s', h⟩ => ⟨stored, s', hid, htenant, h⟩
  · rw [if_pos hn]
    rcases RuleOperation.perform_bind_of_looks _ (perform_ensureNameFree s r) with
      ⟨e, hf⟩ | ⟨_, -, hf⟩
    · exact .inl ⟨e, hf⟩
    · rw [hf]
      exact (perform_replace_cases s _).imp_right fun ⟨s', h⟩ => ⟨stored, s', hid, htenant, h⟩

/-- To switch a rule is refused and leaves the store as it is, or it finds the rule in that state,
or it replaces the stored rule by the switched one. -/
theorem perform_setActive_cases (s : σ) (tenant : TenantId) (id : RuleId) (active : Bool)
    (now : Timestamp) :
    (∃ e, (setActive tenant id active now).perform s = (.error e, s)) ∨
      ∃ stored, RuleStore.ruleById s id = .ok (some stored) ∧ stored.tenant = tenant ∧
        (stored.active = active ∧ (setActive tenant id active now).perform s = (.ok stored, s) ∨
          stored.active ≠ active ∧
            ∃ s', RuleStore.updateRule s { stored with active, updatedAt := now } = .ok s' ∧
              (setActive tenant id active now).perform s =
                (.ok { stored with active, updatedAt := now }, s')) := by
  have hu : setActive tenant id active now = get tenant id >>= fun stored =>
      if stored.active = active then pure stored
      else replace { stored with active, updatedAt := now } := rfl
  have hg : ((get tenant id).perform s).2 = s := congrArg Prod.snd (perform_get s _ _)
  rw [hu]
  rcases RuleOperation.perform_bind_of_looks _ hg with ⟨e, hs⟩ | ⟨stored, hstored, hs⟩
  · exact .inl ⟨e, hs⟩
  obtain ⟨hid, htenant⟩ := ruleById_of_get hstored
  rw [hs]
  by_cases ha : stored.active = active
  · rw [if_pos ha]
    exact .inr ⟨stored, hid, htenant, .inl ⟨ha, rfl⟩⟩
  · rw [if_neg ha]
    exact (perform_replace_cases s _).imp_right fun h => ⟨stored, hid, htenant, .inr ⟨ha, h⟩⟩

/-- To delete a rule is refused and leaves the store as it is, or removes the rule. -/
theorem perform_delete_cases (s : σ) (tenant : TenantId) (id : RuleId) :
    (∃ e, (delete tenant id).perform s = (.error e, s)) ∨
      ∃ stored s', RuleStore.ruleById s id = .ok (some stored) ∧ stored.tenant = tenant ∧
        RuleStore.deleteRule s id = .ok s' ∧ (delete tenant id).perform s = (.ok (), s') := by
  have hg : ((get tenant id).perform s).2 = s := congrArg Prod.snd (perform_get s _ _)
  rw [delete]
  rcases RuleOperation.perform_bind_of_looks _ hg with ⟨e, hs⟩ | ⟨stored, hstored, hs⟩
  · exact .inl ⟨e, hs⟩
  obtain ⟨hid, htenant⟩ := ruleById_of_get hstored
  rw [hs, RuleOperation.perform_ask, RuleCall.perform]
  cases RuleStore.deleteRule s id with
  | error e => exact .inl ⟨e, rfl⟩
  | ok s' => exact .inr ⟨stored, s', hid, htenant, rfl, rfl⟩

/-! ### The store after an operation -/

/-- To create a rule leaves the store as it is, or adds the rule. -/
theorem snd_perform_create (s : σ) (r : Rule) (now : Timestamp) :
    ((create r now).perform s).2 = s ∨
      RuleStore.createRule s (created r now) = .ok ((create r now).perform s).2 := by
  rcases perform_create_cases s r now with ⟨e, h⟩ | ⟨s', hw, h⟩
  · exact .inl (by rw [h])
  · exact .inr (by rw [h, hw])

/-- To update a rule leaves the store as it is, or replaces the stored rule. -/
theorem snd_perform_update (s : σ) (r : Rule) (now : Timestamp) :
    ((update r now).perform s).2 = s ∨
      ∃ stored, RuleStore.ruleById s r.id = .ok (some stored) ∧
        RuleStore.updateRule s (revised r stored now) = .ok ((update r now).perform s).2 := by
  rcases perform_update_cases s r now with ⟨e, h⟩ | ⟨stored, s', hid, -, hw, h⟩
  · exact .inl (by rw [h])
  · exact .inr ⟨stored, hid, by rw [h, hw]⟩

/-- To switch a rule leaves the store as it is, or replaces the stored rule by the switched one. -/
theorem snd_perform_setActive (s : σ) (tenant : TenantId) (id : RuleId) (active : Bool)
    (now : Timestamp) :
    ((setActive tenant id active now).perform s).2 = s ∨
      ∃ stored, RuleStore.ruleById s id = .ok (some stored) ∧
        RuleStore.updateRule s { stored with active, updatedAt := now } =
          .ok ((setActive tenant id active now).perform s).2 := by
  rcases perform_setActive_cases s tenant id active now with
    ⟨e, h⟩ | ⟨stored, hid, -, ⟨-, h⟩ | ⟨-, s', hw, h⟩⟩
  · exact .inl (by rw [h])
  · exact .inl (by rw [h])
  · exact .inr ⟨stored, hid, by rw [h, hw]⟩

/-- To delete a rule leaves the store as it is, or removes the rule. -/
theorem snd_perform_delete (s : σ) (tenant : TenantId) (id : RuleId) :
    ((delete tenant id).perform s).2 = s ∨
      RuleStore.deleteRule s id = .ok ((delete tenant id).perform s).2 := by
  rcases perform_delete_cases s tenant id with ⟨e, h⟩ | ⟨_, s', -, -, hw, h⟩
  · exact .inl (by rw [h])
  · exact .inr (by rw [h, hw])

/-! ### Operations that succeed -/

variable {s s' : σ} {r saved : Rule} {now : Timestamp}

/-- A rule that was created is returned as it was written. -/
theorem perform_create_eq_ok (h : (create r now).perform s = (.ok saved, s')) :
    saved = created r now ∧ RuleStore.createRule s saved = .ok s' := by
  rcases perform_create_cases s r now with ⟨e, he⟩ | ⟨t, hw, ht⟩
  · cases he.symm.trans h
  · cases ht.symm.trans h
    exact ⟨rfl, hw⟩

/-- A valid rule is created if its name is not that of another one and the store takes it. -/
theorem perform_create_of_free {found : Option Rule} (hv : r.validate = .ok ())
    (h : RuleStore.ruleByName s r.tenant r.name = .ok found)
    (hf : ∀ other ∈ found, other.id = r.id)
    (hw : RuleStore.createRule s (created r now) = .ok s') :
    (create r now).perform s = (.ok (created r now), s') := by
  rw [create, RuleOperation.perform_bind, perform_check_of_valid s hv]
  simp only [RuleOperation.perform_bind, perform_ensureNameFree_of_free h hf]
  rw [← created, RuleOperation.perform_ask, RuleCall.perform, hw]
  rfl

/-- A valid definition replaces the stored rule of its tenant with its name if the store takes it. -/
theorem perform_update_of_found {stored : Rule} (hv : r.validate = .ok ())
    (h : RuleStore.ruleById s r.id = .ok (some stored)) (htenant : stored.tenant = r.tenant)
    (hname : stored.name = r.name) (hw : RuleStore.updateRule s (revised r stored now) = .ok s') :
    (update r now).perform s = (.ok (revised r stored now), s') := by
  have hg : (get r.tenant r.id).perform s = (.ok stored, s) := by
    rw [perform_get, h]
    exact congrArg (·, s) (if_pos htenant)
  rw [update, RuleOperation.perform_bind, perform_check_of_valid s hv]
  simp only [RuleOperation.perform_bind, hg, if_neg (not_not_intro hname)]
  rw [← revised, RuleOperation.perform_ask, RuleCall.perform, hw]
  rfl

/-- A rule that was updated is returned as it was written. -/
theorem perform_update_eq_ok (h : (update r now).perform s = (.ok saved, s')) :
    ∃ stored, RuleStore.ruleById s r.id = .ok (some stored) ∧ stored.tenant = r.tenant ∧
      saved = revised r stored now ∧ RuleStore.updateRule s saved = .ok s' := by
  rcases perform_update_cases s r now with ⟨e, he⟩ | ⟨stored, t, hid, htenant, hw, ht⟩
  · cases he.symm.trans h
  · cases ht.symm.trans h
    exact ⟨stored, hid, htenant, rfl, hw⟩

end RuleService

end RuleEngine
