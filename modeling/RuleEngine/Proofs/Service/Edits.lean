import RuleEngine.Proofs.Service.Plans

/-!
# Two edits of one rule

Two clients edit a rule at the same time: each replaces its definition, switches it on or off, or
deletes it, and they take turns, one call of the store at a time. An edit reads the rule and later
writes a whole one in its place, whatever the other edit has made of the rule in between. So the two
do not always come to what they come to one after the other: one of them may undo the other one.
This is how it happens:

* A switch writes the definition that it has read over a new one.
* In memory, a rule that was deleted is written once more.
* A new definition is written over a rule that cannot be read any more, or, in memory, under a name
  that another rule has too, where an edit that read the rule only now would be refused.

In every other case the rule that is left is the one of the edits in one of the two orders, apart
from the time of its last update.

## Main definitions

* `RuleTask.UndoneBy`: what one edit may have done to the other one.
* `RuleTask.Settled`, `RuleTask.Lost`: what two edits that take turns come to.

## Main results

* `RuleTask.interleaved_edits`: two edits of a rule in memory or in a database are settled.
* `RuleTask.exists_interleaved_undone`: an edit can always undo one that is made before it writes.
-/

namespace RuleEngine

open RuleCell

section

variable {σ : Type} [RuleStore σ] [EditableStore σ] {s : σ} {id : RuleId}

/-- What one edit of a rule may have done to the other one of two that read the rule before either
wrote it: a switch undoes a new definition; where rules are written that are not there, a definition
or a switch undoes a deletion; and a definition undoes whatever left a rule that cannot be read, or
that has its name in common with another one. -/
inductive RuleTask.UndoneBy (s : σ) (id : RuleId) : RuleTask → RuleTask → Prop
  | switched (r : Rule) (now : Timestamp) (tenant : TenantId) (active : Bool) (later : Timestamp) :
      UndoneBy s id (.update r now) (.setActive tenant id active later)
  | revived {y : RuleTask} (tenant : TenantId) (hs : isStrict σ = false)
      (hy : ∀ other, y ≠ .delete other id) : UndoneBy s id (.delete tenant id) y
  | unread {x : RuleTask} {r : Rule} {now : Timestamp} {e : EngineError}
      (h : RuleStore.ruleById (x.after s) id = .error e) : UndoneBy s id x (.update r now)
  | shared {x : RuleTask} {r stored : Rule} {now : Timestamp} (hs : isStrict σ = false)
      (h : RuleStore.ruleById s id = .ok (some stored))
      (ht : isTaken s id stored.tenant stored.name = true) : UndoneBy s id x (.update r now)

/-- What two edits of a rule that take turns can come to: the one after the other in one of the two
orders, or one of them alone, which has undone the other one. -/
inductive RuleTask.Settled (s : σ) (id : RuleId) (x y : RuleTask) (t : σ) : Prop
  | inOrder (h : kept? t id = kept? (y.after (x.after s)) id)
  | inReverse (h : kept? t id = kept? (x.after (y.after s)) id)
  | undone (h : kept? t id = kept? (y.after s) id) (hu : UndoneBy s id x y)
  | undid (h : kept? t id = kept? (x.after s) id) (hu : UndoneBy s id y x)

/-- Whether two edits of a rule leave it as the second alone does, and as they do in neither order,
since the second has undone the first. -/
structure RuleTask.Lost (s : σ) (id : RuleId) (x y : RuleTask) (t : σ) : Prop where
  inOrder : kept? t id ≠ kept? (y.after (x.after s)) id
  inReverse : kept? t id ≠ kept? (x.after (y.after s)) id
  alone : kept? t id = kept? (y.after s) id
  undone : UndoneBy s id x y

namespace RuleTask

variable {taken : TenantId → String → Bool} {row : Row σ} {stored : Rule} {x y : RuleTask} {t : σ}

theorem Settled.symm (h : Settled s id x y t) : Settled s id y x t := by
  cases h with
  | inOrder h => exact .inReverse h
  | inReverse h => exact .inOrder h
  | undone h hu => exact .undid h hu
  | undid h hu => exact .undone h hu

/-- A rule that was written is left alone by a switch to where it is. -/
theorem effect_setActive_ofRule (w : Rule) (tenant : TenantId) (now : Timestamp) :
    (setActive tenant id w.active now).effect taken (some (ofRule w : Row σ)) =
      some (ofRule w) := by
  cases hr : read (ofRule w : Row σ) with
  | error e => simp only [effect, hr]
  | ok w' =>
    have hactive : w'.active = w.active := (EditableStore.of_read_ofRule hr).2.2.1
    have hplan : (setActive tenant id w.active now).plan w' = .keep :=
      if_neg fun hn => hn.2 hactive
    rw [effect_of_read _ hr, hplan]
    rfl

/-- A definition with a free name comes to the same in the place of a rule as in the place of one
that was written over the rule and can be read. -/
theorem effect_update_ofRule {v w w' : Rule} {now : Timestamp} {search : Bool}
    (hv : v.validate = .ok ()) (htenant : stored.tenant = v.tenant)
    (hw : RulePlan.Rewrites stored w search) (hr : read (ofRule w : Row σ) = .ok w')
    (hfree : taken v.tenant v.name = false) :
    ((update v now).effect taken (some (ofRule w : Row σ))).map undated =
      some (undated (ofRule (RuleService.revised v stored now))) := by
  obtain ⟨htenant', -, -, htimes⟩ := EditableStore.of_read_ofRule hr
  have hplan : (update v now).plan w' =
      .put (RuleService.revised v w' now) (w'.name ≠ v.name) :=
    if_pos ⟨hv, htenant'.trans (hw.tenant.trans htenant)⟩
  have hput : (update v now).effect taken (some (ofRule w : Row σ)) =
      some (ofRule (RuleService.revised v w' now)) := by
    rw [effect_of_read _ hr, hplan]
    exact RulePlan.apply_put_some_of_free (by rw [RuleService.revised, hfree, Bool.and_false]) _
  have hsame : undated (ofRule (RuleService.revised v w' now) : Row σ) =
      undated (ofRule { v with
        updatedAt := now, createdAt := w.createdAt, lastTick := w.lastTick }) :=
    htimes { v with updatedAt := now }
  rw [hput, Option.map_some, hsame, hw.createdAt, hw.lastTick]
  rfl

/-- An edit that left a rule alone comes first. -/
theorem settled_of_idle (hs : IsSound s) (hx : x.Edits id) (hy : y.Edits id)
    (hrow : row? s id = some row) (hread : read row = .ok stored)
    (hys : row? (y.after s) id = some row) (ht : row? t id = row? (x.after s) id) :
    Settled s id x y t := by
  refine .inReverse ?_
  rw [kept?, kept?, ht, row?_after_after hs hy hx, hys, effect_of_read x hread,
    row?_after hs hx hrow hread]

/-- A new definition that is written over a rule comes last, or it has undone what was written over
the rule before. -/
theorem settled_of_definition {v w : Rule} {now : Timestamp} {search' : Bool} (hs : IsSound s)
    (hx : x.Edits id) (hy : (update v now).Edits id) (hrow : row? s id = some row)
    (hread : read row = .ok stored) (hv : v.validate = .ok ()) (htenant : stored.tenant = v.tenant)
    (hplan : x.plan stored = .put w search')
    (hfree : ((decide (stored.name ≠ v.name) || isStrict σ) && isTaken s id v.tenant v.name) =
      false)
    (hxs : row? (x.after s) id = some (ofRule w))
    (hys : row? ((update v now).after s) id = some (ofRule (RuleService.revised v stored now)))
    (ht : row? t id = some (ofRule (RuleService.revised v stored now))) :
    Settled s id x (.update v now) t := by
  have hundone (hu : UndoneBy s id x (.update v now)) : Settled s id x (.update v now) t :=
    .undone (by rw [kept?, kept?, ht, hys]) hu
  cases hr : read (ofRule w : Row σ) with
  | error e =>
    exact hundone (.unread (EditableStore.ruleById_of_error (becomes_after hs hx).sound hxs hr))
  | ok w' =>
    cases htaken : isTaken s id v.tenant v.name with
    | true =>
      obtain ⟨hname, hstrict⟩ : stored.name = v.name ∧ isStrict σ = false := by
        simpa [htaken] using hfree
      refine hundone (.shared hstrict (EditableStore.ruleById_of_ok hs hrow hread) ?_)
      rw [htenant, hname]
      exact htaken
    | false =>
      refine .inOrder ?_
      rw [kept?, kept?, ht, row?_after_after hs hx hy, hxs]
      exact (effect_update_ofRule hv htenant (rewrites_of_plan hplan) hr htaken).symm

/-- A switch that is written over a rule after another switch comes last, as both are to the same
position. -/
theorem settled_of_switches {tenant tenant' : TenantId} {active active' : Bool}
    {now later : Timestamp} (hs : IsSound s) (hx : (setActive tenant' id active' later).Edits id)
    (hy : (setActive tenant id active now).Edits id) (ha : stored.active ≠ active)
    (ha' : stored.active ≠ active')
    (hxs : row? ((setActive tenant' id active' later).after s) id =
      some (ofRule { stored with active := active', updatedAt := later }))
    (ht : row? t id = some (ofRule { stored with active, updatedAt := now })) :
    Settled s id (.setActive tenant' id active' later) (.setActive tenant id active now) t := by
  obtain rfl : active' = active :=
    (Bool.eq_not.mpr ha'.symm).trans (Bool.eq_not.mpr ha.symm).symm
  have hleft : (setActive tenant id active' now).effect (isTaken s id)
      (some (ofRule { stored with active := active', updatedAt := later } : Row σ)) =
        some (ofRule { stored with active := active', updatedAt := later }) :=
    effect_setActive_ofRule _ tenant now
  refine .inOrder ?_
  rw [kept?, kept?, ht, row?_after_after hs hx hy, hxs, hleft]
  exact congrArg some (EditableStore.undated_ofRule
    { stored with active := active', updatedAt := later } now)

/-- Of two edits that wrote over the same rule, the later one has undone the other one, or they come
to the same one after the other. -/
theorem settled_of_rewrites (hs : IsSound s) (hx : x.Edits id) (hy : y.Edits id)
    (hrow : row? s id = some row) (hread : read row = .ok stored) {r w : Rule}
    {search search' : Bool} (hplan : y.plan stored = .put r search)
    (hplan' : x.plan stored = .put w search')
    (hfree : ((search || isStrict σ) && isTaken s id r.tenant r.name) = false)
    (hxs : row? (x.after s) id = some (ofRule w)) (hys : row? (y.after s) id = some (ofRule r))
    (ht : row? t id = some (ofRule r)) : Settled s id x y t := by
  obtain ⟨v, now, rfl, hv, htenant, rfl, rfl⟩ | ⟨tenant, other, active, now, rfl, ha, rfl, rfl⟩ :=
    put_cases hplan
  · exact settled_of_definition hs hx hy hrow hread hv htenant hplan' hfree hxs hys ht
  · obtain rfl : other = id := hy
    obtain ⟨v, later, rfl, -⟩ | ⟨tenant', other', active', later, rfl, ha', rfl, -⟩ :=
      put_cases hplan'
    · exact .undone (by rw [kept?, kept?, ht, hys]) (.switched v later tenant active now)
    · obtain rfl : other' = other := hx
      exact settled_of_switches hs rfl rfl ha ha' hxs ht

/-- An edit that was to write over a rule comes last if the rule is deleted in between; where rules
are written that are not there, it has undone the deletion. -/
theorem settled_of_deleted (hs : IsSound s) (hx : x.Edits id) (hy : y.Edits id)
    (hrow : row? s id = some row) (hread : read row = .ok stored) {r : Rule} {search : Bool}
    (hplan : y.plan stored = .put r search)
    (hfree : ((search || isStrict σ) && isTaken s id r.tenant r.name) = false)
    (hxs : row? (x.after s) id = none) (hys : row? (y.after s) id = some (ofRule r))
    (ht : row? t id = (RulePlan.put r search).apply (isTaken s id) none) :
    Settled s id x y t := by
  rw [RulePlan.apply_put_of_free hfree, Option.isNone_none, Bool.and_true] at ht
  cases hstrict : isStrict σ with
  | true =>
    refine .inOrder ?_
    rw [kept?, kept?, ht, if_pos hstrict, row?_after_after hs hx hy, hxs]
    rfl
  | false =>
    have hsame : kept? t id = kept? (y.after s) id := by
      rw [kept?, kept?, ht, if_neg (hstrict ▸ Bool.false_ne_true), hys]
    obtain ⟨tenant, rfl⟩ := eq_delete_of_apply hx ((row?_after hs hx hrow hread).symm.trans hxs)
    refine .undone hsame (.revived tenant hstrict ?_)
    rintro other rfl
    rw [plan] at hplan
    split at hplan <;> cases hplan

/-- An edit that carries out its plan for a rule that was read before another edit settles. -/
theorem settled_of_stale (hs : IsSound s) (hx : x.Edits id) (hy : y.Edits id)
    (hrow : row? s id = some row) (hread : read row = .ok stored)
    (ht : row? t id = (y.plan stored).apply (isTaken s id) (row? (x.after s) id)) :
    Settled s id x y t := by
  have hxs := row?_after hs hx hrow hread
  have hys := row?_after hs hy hrow hread
  cases hplan : y.plan stored with
  | keep =>
    rw [hplan] at ht hys
    exact settled_of_idle hs hx hy hrow hread hys ht
  | remove other =>
    rw [hplan] at ht hys
    refine .inReverse ?_
    rw [kept?, kept?, ht, row?_after_after hs hy hx, hys]
    rfl
  | put r search =>
    rw [hplan] at ht hys
    cases hfree : (search || isStrict σ) && isTaken s id r.tenant r.name with
    | true =>
      obtain ⟨hrefused, htaken⟩ := Bool.and_eq_true_iff.mp hfree
      rw [RulePlan.apply_put_of_refused hrefused htaken] at ht hys
      exact settled_of_idle hs hx hy hrow hread hys ht
    | false =>
      rw [RulePlan.apply_put_some_of_free hfree] at hys
      cases hnew : row? (x.after s) id with
      | none =>
        rw [hnew] at ht
        exact settled_of_deleted hs hx hy hrow hread hplan hfree hnew hys ht
      | some row' =>
        rw [hnew] at ht hxs
        rw [RulePlan.apply_put_some_of_free hfree] at ht
        obtain rfl | ⟨w, search', hplan', rfl⟩ := eq_or_eq_ofRule_of_apply hxs.symm
        · refine .inOrder ?_
          rw [kept?, kept?, ht, row?_after_after hs hx hy, hnew, effect_of_read y hread, hplan,
            RulePlan.apply_put_some_of_free hfree]
        · exact settled_of_rewrites hs hx hy hrow hread hplan hplan' hfree hnew hys ht

/-- An edit that goes on after another one, from where some looks at the store before it have led,
settles. -/
theorem settled_of_ahead (hs : IsSound s) (hx : x.Edits id) (hy : y.Edits id)
    {p : RuleScript y.Result} (h : RuleScript.Ahead s y.script p) :
    Settled s id x y (p.run (x.after s)).2 := by
  have hxs := becomes_after hs hx
  obtain rfl | hdone | ⟨row, stored, hrow, hread, hstale⟩ := ahead_cases hs hy h
  · exact .inOrder rfl
  · refine .inReverse ?_
    rw [hdone.snd_run, show y.after s = s from (h.snd_run.symm.trans (hdone.snd_run s))]
  · have hid := isAbout_plan hy (EditableStore.id_eq hrow hread)
    obtain hplan | ⟨r, hr, hfree, hwrite⟩ := hstale
    · have hname (r : Rule) (hr : y.plan stored = .put r true)
          (ht : isTaken (x.after s) id r.tenant r.name = true) (row' : Row σ)
          (hrow' : row? (x.after s) id = some row') : isNamed row' r.tenant r.name = false :=
        isNamed_of_apply hread hr (hxs.taken_eq ▸ ht)
          ((row?_after hs hx hrow hread).symm.trans hrow')
      obtain hbecomes | ⟨hsame, row', e, hrow', herror⟩ := hplan.becomes hxs.sound hid hname
      · refine settled_of_stale hs hx hy hrow hread ?_
        rw [hbecomes.row_eq, hxs.taken_eq]
      · refine .inOrder ?_
        rw [hsame, kept?, kept?, row?_after_after hs hx hy, hrow', effect, herror]
    · have hbecomes := hwrite.becomes_put hxs.sound
      refine settled_of_stale hs hx hy hrow hread ?_
      rw [hr] at hid ⊢
      obtain rfl : r.id = id := hid
      rw [hbecomes.row_eq, hxs.taken_eq]
      simp only [RulePlan.apply, hfree, Bool.and_false]

/-- Two edits of a rule that take turns settle. -/
theorem settled_of_interleaved (hs : IsSound s) (hx : x.Edits id) (hy : y.Edits id)
    (h : RuleScript.Interleaved s x.script y.script t) : Settled s id x y t := by
  obtain ⟨p, hp, rfl⟩ | ⟨p, hp, rfl⟩ :=
    h.cases (follows_script hx).writesLast (follows_script hy).writesLast
  · exact settled_of_ahead hs hx hy hp
  · exact (settled_of_ahead hs hy hx hp).symm

/-- Conversely, an edit that has read a rule undoes another edit that is made before it writes, as
long as there is still a row to write over where one is needed. -/
theorem exists_interleaved_undone (hs : IsSound s) (hx : x.Edits id) (hy : y.Edits id)
    (hrow : row? s id = some row) (hread : read row = .ok stored) {r : Rule} {search : Bool}
    (hplan : y.plan stored = .put r search)
    (hfree : ((search || isStrict σ) && isTaken s id r.tenant r.name) = false)
    (hthere : (isStrict σ && (row? (x.after s) id).isNone) = false) :
    ∃ t, RuleScript.Interleaved s x.script y.script t ∧ kept? t id = kept? (y.after s) id := by
  have hsearch : (search && isTaken s id r.tenant r.name) = false := by
    cases search with
    | false => rfl
    | true => exact hfree
  have hstrict : ((false || isStrict σ) && isTaken s id r.tenant r.name) = false := by
    cases search with
    | false => exact hfree
    | true =>
      rw [show isTaken s id r.tenant r.name = false from hfree]
      exact Bool.and_false _
  obtain ⟨p, hp, hwrite⟩ := exists_ahead hs hy hrow hread hplan hsearch
  have hid := isAbout_plan hy (EditableStore.id_eq hrow hread)
  rw [hplan] at hid
  obtain rfl : r.id = id := hid
  have hxs := becomes_after hs hx
  have hys : row? (y.after s) r.id = some (ofRule r) := by
    rw [row?_after hs hy hrow hread, hplan, RulePlan.apply_put_some_of_free hfree]
  have ht : row? (p.run (x.after s)).2 r.id = some (ofRule r) := by
    rw [(hwrite.becomes_put hxs.sound).row_eq, hxs.taken_eq, RulePlan.apply_put_of_free hstrict,
      hthere, if_neg Bool.false_ne_true]
  exact ⟨(p.run (x.after s)).2, .of_ahead x.script hp, by rw [kept?, kept?, ht, hys]⟩

/-- If two edits leave a rule as they do in neither order, and not as the first alone does, then the
first is lost. -/
theorem Settled.lost_of_ne (h : Settled s id x y t)
    (horder : kept? t id ≠ kept? (y.after (x.after s)) id)
    (hreverse : kept? t id ≠ kept? (x.after (y.after s)) id)
    (halone : kept? t id ≠ kept? (x.after s) id) : Lost s id x y t := by
  cases h with
  | inOrder h => exact absurd h horder
  | inReverse h => exact absurd h hreverse
  | undone h hu => exact ⟨horder, hreverse, h, hu⟩
  | undid h => exact absurd h halone

/-- An edit of a rule that is run by itself has its effect on the cell of the rule. Two edits that
take turns, one call of the store at a time, come to what they come to one after the other, the time
of the last update aside, or one of them has undone the other one. This holds in memory and in a
database. -/
theorem interleaved_edits {id : RuleId} {x y : RuleTask} (hx : x.Edits id) (hy : y.Edits id) :
    (∀ s : MemoryStore, (s.rules.map Rule.id).Nodup →
      row? (x.after s) id = x.effect (isTaken s id) (row? s id) ∧
      ∀ t, RuleScript.Interleaved s x.script y.script t → Settled s id x y t) ∧
    ∀ d : Database, d.IsKeyed →
      row? (x.after d) id = x.effect (isTaken d id) (row? d id) ∧
      ∀ t, RuleScript.Interleaved d x.script y.script t → Settled d id x y t :=
  ⟨fun _ hs => ⟨(becomes_after hs hx).row_eq, fun _ => settled_of_interleaved hs hx hy⟩,
    fun _ hd => ⟨(becomes_after hd hx).row_eq, fun _ => settled_of_interleaved hd hx hy⟩⟩

end RuleTask

end

namespace Sample

/-- The rule of every minute gets a delay. -/
def delayed : RuleTask := .update { minutelyRule with delaySeconds := some 60 } (instant 10)

/-- The rule of every minute is switched off. -/
def switchedOff : RuleTask := .setActive "acme" minutelyRule.id false (instant 20)

end Sample

/-- If the rule of every minute is read to be switched off, and gets a delay before the rule that
was read is written, the delay is lost. -/
theorem RuleTask.interleaved_edits_staleSwitch :
    (∃ t, RuleScript.Interleaved Sample.minutelyEngine.store Sample.delayed.script
        Sample.switchedOff.script t ∧
      Lost Sample.minutelyEngine.store Sample.minutelyRule.id Sample.delayed
        Sample.switchedOff t) ∧
    ∃ t, RuleScript.Interleaved Sample.minutelyDatabase Sample.delayed.script
        Sample.switchedOff.script t ∧
      Lost Sample.minutelyDatabase Sample.minutelyRule.id Sample.delayed
        Sample.switchedOff t := by
  have hall := interleaved_edits (show Sample.delayed.Edits Sample.minutelyRule.id from rfl)
    (show Sample.switchedOff.Edits Sample.minutelyRule.id from rfl)
  have hkeyed : Sample.minutelyDatabase.IsKeyed :=
    ⟨rfl, by decide +kernel, by decide +kernel, .nil⟩
  -- the switch looks once, and the new definition is written before it goes on
  have hmemory := RuleScript.Interleaved.of_ahead (s := Sample.minutelyEngine.store)
    Sample.delayed.script (q := Sample.switchedOff.script) (.look rfl (.refl _))
  have hdatabase := RuleScript.Interleaved.of_ahead (s := Sample.minutelyDatabase)
    Sample.delayed.script (q := Sample.switchedOff.script) (.look rfl (.refl _))
  refine ⟨⟨_, hmemory, ((hall.1 _ (by decide +kernel)).2 _ hmemory).lost_of_ne ?_ ?_ ?_⟩,
    ⟨_, hdatabase, ((hall.2 _ hkeyed).2 _ hdatabase).lost_of_ne ?_ ?_ ?_⟩⟩
  all_goals intro hsame
  · exact absurd (congrArg (Option.map Rule.delaySeconds) hsame) (by decide +kernel)
  · exact absurd (congrArg (Option.map Rule.delaySeconds) hsame) (by decide +kernel)
  · exact absurd (congrArg (Option.map Rule.delaySeconds) hsame) (by decide +kernel)
  · exact absurd (congrArg (Option.map RuleRow.delaySeconds) hsame) (by decide +kernel)
  · exact absurd (congrArg (Option.map RuleRow.delaySeconds) hsame) (by decide +kernel)
  · exact absurd (congrArg (Option.map RuleRow.delaySeconds) hsame) (by decide +kernel)

end RuleEngine
