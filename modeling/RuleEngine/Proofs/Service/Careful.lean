import RuleEngine.Proofs.Service.Seed
import RuleEngine.Proofs.Store.Standard

/-!
# Operations that are careful

A rule that an operation writes was checked by the operation, or the operation has read it from the
store. So it is up to a standard whenever what was given to the operation and what the store has
answered is, whoever else has changed the store between two of its calls. An operation whose write
is refused ends with the refusal.

## Main definitions

* `RuleCall.Trusts`: an answer of a store that is up to a standard.
* `RuleScript.Careful`: what a script still writes is up to a standard.

## Main results

* `Database.IsUpTo.trusts`, `Database.IsUpTo.perform`: a database up to a standard answers so, and
  stays so if what is written is.
* `RuleScript.Careful.step`: the next call of a careful script.
* `RuleService.careful_create`, `RuleService.careful_update`, `RuleService.careful_setActive`,
  `RuleService.careful_delete`, `RuleSeed.careful_saveAll`: the operations are careful.
-/

namespace RuleEngine

variable {std : RuleStandard} {α β : Type}

/-! ### Calls -/

namespace RuleCall

/-- The rule that a call writes. -/
def written? : RuleCall → Option Rule
  | .create r | .update r => some r
  | .delete _ | .byId _ | .byName .. | .list _ => none

/-- Whether the rules in an answer meet a standard. -/
def Trusts (std : RuleStandard) : (c : RuleCall) → Except EngineError c.Answer → Prop
  | .byId _, answer | .byName .., answer => ∀ r, answer = .ok (some r) → std.Meets r
  | .list _, answer => ∀ rules, answer = .ok rules → ∀ r ∈ rules, std.Meets r
  | .create _, _ | .update _, _ | .delete _, _ => True

end RuleCall

namespace Database

variable {d : Database}

/-- A call leads to a database that can be reached. -/
theorem Reachable.perform (h : d.Reachable) (c : RuleCall) : (c.perform d).2.Reachable := by
  cases c with
  | create r =>
    rw [RuleCall.perform]
    cases hw : RuleStore.createRule d r with
    | error e => exact h
    | ok d' => exact h.createRule r hw
  | update r =>
    rw [RuleCall.perform]
    cases hw : RuleStore.updateRule d r with
    | error e => exact h
    | ok d' => exact h.updateRule r hw
  | delete id =>
    rw [RuleCall.perform]
    cases hw : RuleStore.deleteRule d id with
    | error e => exact h
    | ok d' => exact h.deleteRule id hw
  | byId | byName | list => exact h

namespace IsUpTo

/-- What a database up to a standard answers meets it. -/
theorem trusts (h : d.IsUpTo std) (c : RuleCall) : c.Trusts std (c.perform d).1 := by
  have hfound {p : RuleRow → Bool} {r : Rule}
      (hr : d.answer ((d.rules.find? p).mapM RuleRow.read) = .ok (some r)) : std.Meets r := by
    have hr := answer_eq_ok hr
    cases hf : d.rules.find? p with
    | none => simp [hf, pure, Except.pure] at hr
    | some row =>
      rw [hf, Option.mapM_some] at hr
      cases hread : row.read with
      | error e => simp [hread, Functor.map, Except.map] at hr
      | ok r' =>
        obtain rfl : r' = r := by simpa [hread, Functor.map, Except.map] using hr
        exact (h row (List.mem_of_find?_eq_some hf)).meets hread
  cases c with
  | create | update | delete => trivial
  | byId => exact fun r hr => hfound hr
  | byName => exact fun r hr => hfound hr
  | list tenant =>
    intro rules hrules r hr
    obtain ⟨row, hm, hread⟩ := ((RuleRow.mem_of_mapM_read (answer_eq_ok hrules)).2 r).mp hr
    exact (h row (List.mem_of_mem_filter (List.mem_mergeSort.mp hm))).meets hread

/-- A database stays up to a standard if what a call writes meets it. -/
theorem perform (h : d.IsUpTo std) {c : RuleCall}
    (hw : ∀ r, c.written? = some r → std.Meets r) : (c.perform d).2.IsUpTo std := by
  cases c with
  | create r =>
    rw [RuleCall.perform]
    cases hd : RuleStore.createRule d r with
    | error e => exact h
    | ok d' => exact h.insertRule (hw r rfl) (answer_eq_ok hd)
  | update r =>
    rw [RuleCall.perform]
    cases hd : RuleStore.updateRule d r with
    | error e => exact h
    | ok d' => exact h.replaceRule (hw r rfl) (answer_eq_ok hd)
  | delete id =>
    rw [RuleCall.perform]
    cases hd : RuleStore.deleteRule d id with
    | error e => exact h
    | ok d' =>
      cases answer_eq_ok hd
      exact h.filter_rules _
  | byId | byName | list => exact h

end IsUpTo

end Database

/-! ### Scripts -/

namespace RuleScript

/-- Whether every rule that a script still writes meets a standard, as long as the answers of the
store do. Its result has a property, and is that of a refusal if a write is refused. -/
inductive Careful (std : RuleStandard) (refused : EngineError → α → Prop) (post : α → Prop) :
    RuleScript α → Prop
  | done {a : α} (h : post a) : Careful std refused post (done a)
  | call {c : RuleCall} {next : Except EngineError c.Answer → RuleScript α}
    (hw : ∀ r, c.written? = some r →
      std.Meets r ∧ ∀ e, ∃ a, next (.error e) = .done a ∧ refused e a)
    (h : ∀ answer, c.Trusts std answer → Careful std refused post (next answer)) :
    Careful std refused post (call c next)

variable {refused : EngineError → α → Prop} {post : α → Prop} {refused' : EngineError → β → Prop}
  {post' : β → Prop}

/-- A careful script goes on with careful ones, if these end when it was refused. -/
theorem Careful.bind {p : RuleScript α} {f : α → RuleScript β} (h : Careful std refused post p)
    (hf : ∀ a, post a → Careful std refused' post' (f a))
    (hr : ∀ e a, refused e a → ∃ b, f a = .done b ∧ refused' e b) :
    Careful std refused' post' (p.bind f) := by
  induction h with
  | done h => exact hf _ h
  | call hw _ ih =>
    refine .call (fun r hc => ?_) ih
    obtain ⟨hm, hend⟩ := hw r hc
    refine ⟨hm, fun e => ?_⟩
    obtain ⟨a, ha, hrefused⟩ := hend e
    obtain ⟨b, hb, hrefused'⟩ := hr e a hrefused
    exact ⟨b, by rw [ha]; exact hb, hrefused'⟩

/-- A careful script makes its next call, whatever the database has become since the last one. -/
theorem Careful.step {p : RuleScript α} {d : Database} (h : Careful std refused post p)
    (hd : d.Reachable) (hr : d.IsUpTo std) : (p.step d).2.Reachable ∧ (p.step d).2.IsUpTo std ∧
      Careful std refused post (p.step d).1 := by
  cases h with
  | done h => exact ⟨hd, hr, .done h⟩
  | @call c next hw hnext =>
    exact ⟨hd.perform c, hr.perform fun r hc => (hw r hc).1, hnext _ (hr.trusts c)⟩

/-- The property of the result can be forgotten. -/
theorem Careful.weaken {p : RuleScript α} (h : Careful std refused post p) :
    Careful std refused (fun _ => True) p := by
  induction h with
  | done => exact .done trivial
  | call hw _ ih => exact .call hw ih

end RuleScript

/-! ### Operations -/

namespace RuleOperation

open RuleScript

/-- Whether an operation is careful, and its result has a property. -/
def IsCareful (std : RuleStandard) (post : α → Prop) (o : RuleOperation α) : Prop :=
  Careful std (fun e a => a = .error e) (fun a => ∀ x, a = .ok x → post x) (ExceptT.run o)

variable {post : α → Prop} {post' : β → Prop}

theorem isCareful_pure {a : α} (h : post a) : IsCareful std post (pure a : RuleOperation α) :=
  .done fun _ hx => Except.ok.inj hx ▸ h

theorem isCareful_throw (e : EngineError) :
    IsCareful std post (throw e : RuleOperation α) := .done fun _ hx => nomatch hx

theorem IsCareful.bind {o : RuleOperation α} {f : α → RuleOperation β} (h : o.IsCareful std post)
    (hf : ∀ a, post a → (f a).IsCareful std post') : (o >>= f).IsCareful std post' := by
  refine Careful.bind h (fun a ha => ?_) fun e a ha => ?_
  · cases a with
    | error e => exact .done fun _ hx => nomatch hx
    | ok x => exact hf x (ha x rfl)
  · subst ha
    exact ⟨.error e, rfl, rfl⟩

/-- A call that writes nothing is careful. -/
theorem isCareful_look {c : RuleCall} (hc : c.written? = none) :
    (ask c).IsCareful std fun x => c.Trusts std (.ok x) := by
  refine .call (fun r hr => nomatch hc.symm.trans hr) fun answer ht => .done fun x hx => ?_
  subst hx
  exact ht

/-- A call that writes a rule that meets the standard is careful. -/
theorem isCareful_write {c : RuleCall} {r : Rule} (hc : c.written? = some r)
    (hr : std.Meets r) : (ask c).IsCareful std fun _ => True := by
  refine .call (fun r' hr' => ?_) fun answer _ => .done fun _ _ => trivial
  obtain rfl : r = r' := Option.some.inj (hc.symm.trans hr')
  exact ⟨hr, fun e => ⟨_, rfl, rfl⟩⟩

end RuleOperation

namespace RuleService

open RuleOperation

variable {r : Rule} {now : Timestamp}

theorem careful_check (r : Rule) : (check r).IsCareful std fun _ => r.validate = .ok () := by
  rw [check]
  cases r.validate with
  | error fault => exact isCareful_throw _
  | ok u => exact isCareful_pure rfl

theorem careful_ensureNameFree (r : Rule) : (ensureNameFree r).IsCareful std fun _ => True := by
  refine (isCareful_look rfl).bind fun found _ => ?_
  cases found with
  | none => exact isCareful_pure trivial
  | some other =>
    dsimp only
    split
    · exact isCareful_pure trivial
    · exact isCareful_throw _

/-- The rule that is got meets the standard. -/
theorem careful_get (tenant : TenantId) (id : RuleId) :
    (get tenant id).IsCareful std std.Meets := by
  refine (isCareful_look rfl).bind fun found hfound => ?_
  cases found with
  | none => exact isCareful_throw _
  | some stored =>
    dsimp only
    split
    · exact isCareful_pure (hfound stored rfl)
    · exact isCareful_throw _

/-- The last part of an operation that writes a rule. -/
private theorem careful_write {c : RuleCall} (hc : c.written? = some r) (hr : std.Meets r) :
    (ask c >>= fun _ => (pure r : RuleOperation Rule)).IsCareful std fun _ => True :=
  (isCareful_write hc hr).bind fun _ _ => isCareful_pure trivial

/-- To create a rule is careful, if it meets the standard whenever it is accepted. -/
theorem careful_create (hr : r.validate = .ok () → std.definition r) (hn : std.time now) :
    (create r now).IsCareful std fun _ => True :=
  (careful_check r).bind fun _ hv => (careful_ensureNameFree r).bind fun _ _ =>
    careful_write rfl (RuleStandard.meets_created (hr hv) hn)

/-- To replace a definition is careful, if the new one meets the standard whenever it is
accepted. -/
theorem careful_update (hr : r.validate = .ok () → std.definition r) (hn : std.time now) :
    (update r now).IsCareful std fun _ => True := by
  refine (careful_check r).bind fun _ hv => (careful_get r.tenant r.id).bind fun stored hs => ?_
  have hwrite := careful_write (c := .update (revised r stored now)) rfl
    (RuleStandard.meets_revised (hr hv) hs hn)
  dsimp only
  split
  · exact (careful_ensureNameFree r).bind fun _ _ => hwrite
  · exact hwrite

/-- To switch a rule on or off is careful. -/
theorem careful_setActive (tenant : TenantId) (id : RuleId) (active : Bool) (hn : std.time now) :
    (setActive tenant id active now).IsCareful std fun _ => True := by
  refine (careful_get tenant id).bind fun stored hs => ?_
  dsimp only
  split
  · exact isCareful_pure trivial
  · exact careful_write rfl (RuleStandard.meets_switched hs active hn)

/-- To delete a rule is careful. -/
theorem careful_delete (tenant : TenantId) (id : RuleId) :
    (delete tenant id).IsCareful std fun _ => True :=
  (careful_get tenant id).bind fun _ _ => isCareful_look (c := .delete id) rfl

end RuleService

namespace RuleSeed

open RuleScript

variable {s : RuleSeed} {fresh : RuleId} {now : Timestamp}

/-- To save the rule of a definition is careful. -/
theorem careful_save (hs : ∀ r, s.build fresh now = .ok r → std.definition r)
    (hn : std.time now) : (s.save fresh now).IsCareful std fun _ => True := by
  rw [save]
  cases hb : s.build fresh now with
  | error fault => exact RuleOperation.isCareful_throw _
  | ok r =>
    refine (RuleOperation.isCareful_look rfl).bind fun stored _ => ?_
    split
    · next other _ =>
      have hd := std.congr r { r with id := other.id } ⟨rfl, rfl, rfl, rfl, rfl⟩ (hs r hb)
      exact RuleService.careful_update (fun _ => hd) hn
    · exact RuleService.careful_create (fun _ => hs r hb) hn

/-- To save the rules of definitions is careful, and ends with the first refusal. -/
theorem careful_saveAll {fresh : Nat → RuleId} {clock : Readings} {seeds : List RuleSeed}
    (hs : ∀ s ∈ seeds, ∀ id n r, s.build id (clock.reading n) = .ok r → std.definition r)
    (hn : ∀ n, std.time (clock.reading n)) (saved : Nat) : Careful std (fun e a => ∃ name, a = .error (.refused name e)) (fun _ => True)
      (ExceptT.run (saveAll fresh clock saved seeds)) := by
  induction seeds generalizing saved with
  | nil => exact .done trivial
  | cons s rest ih =>
    obtain ⟨hfirst, hrest⟩ := List.forall_mem_cons.mp hs
    have hsave : Careful std (fun e a => a = .error (SeedError.refused s.name e)) (fun _ => True)
        (ExceptT.run (ExceptT.adapt (SeedError.refused s.name)
          (s.save (fresh saved) (clock.reading saved)))) := by
      refine Careful.bind (careful_save (hfirst (fresh saved) saved) (hn saved))
        (fun _ _ => .done trivial) ?_
      rintro e _ rfl
      exact ⟨_, rfl, rfl⟩
    refine Careful.bind hsave (fun a _ => ?_) ?_
    · cases a with
      | error e => exact .done trivial
      | ok r => exact ih hrest (saved + 1)
    · rintro e _ rfl
      exact ⟨_, rfl, s.name, rfl⟩

end RuleSeed

end RuleEngine
