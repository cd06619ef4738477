import RuleEngine.Proofs.Service.Effect
import RuleEngine.Proofs.Store.LogRefinement

/-!
# What the creation of a rule leaves alone

A rule comes with an identifier, and before it is created only its name is looked up. Whether the
identifier is in use is left to the store. A database refuses it then, whoever has it, so that a
creation adds one row or changes nothing. The store in memory takes the rule all the same, in the
place of the one that has the identifier: there a creation adds a rule just if the identifier is not
in use, and else the rule that had it is gone, of whatever tenant it was.

## Main results

* `MemoryStore.rules_putRule_eq_append_iff`: when a rule that is written in memory is added.
* `RuleService.perform_create_adds`: what a creation adds and leaves alone in either store.
-/

namespace RuleEngine

namespace MemoryStore

theorem findRule_putRule (s : MemoryStore) (r : Rule) (id : RuleId) :
    (s.putRule r).findRule id = if id = r.id then some r else s.findRule id :=
  find?_put Rule.id r s.rules id

theorem findRule_eq_none_iff {s : MemoryStore} {id : RuleId} :
    s.findRule id = none ↔ id ∉ s.rules.map Rule.id := by
  simp [findRule, List.find?_eq_none]

/-- An item that is put where its key is in use is not added. -/
theorem length_put_of_mem {α κ : Type} [DecidableEq κ] {key : α → κ} {a : α} {l : List α}
    (h : key a ∈ l.map key) : (put key a l).length = l.length := by
  induction l with
  | nil => cases h
  | cons b rest ih =>
    rw [put]
    by_cases hb : key b = key a
    · rw [if_pos hb]
      rfl
    · have hrest : key a ∈ rest.map key := (List.mem_cons.mp h).resolve_left (Ne.symm hb)
      rw [if_neg hb, List.length_cons, List.length_cons, ih hrest]

/-- A rule that is written is added, with every other one left as it is, just if its identifier is
not in use. -/
theorem rules_putRule_eq_append_iff {s : MemoryStore} {r : Rule} :
    (s.putRule r).rules = s.rules ++ [r] ↔ s.findRule r.id = none := by
  rw [findRule_eq_none_iff]
  constructor
  · intro h hm
    have hlength := congrArg List.length h
    rw [putRule, length_put_of_mem hm, List.length_append, List.length_singleton] at hlength
    omega
  · exact put_of_not_mem

end MemoryStore

namespace RuleService

/-- In a database a creation is refused and changes nothing, or it adds one row, whose identifier no
row had and whose name no row of the tenant had, and every row that was there is still there
unchanged. In memory a refusal changes nothing either, and a creation sets the rule under its
identifier and no other one. There a valid rule with a name that is free for it is never refused,
and it is added to the others just if its identifier was not in use. -/
theorem perform_create_adds (r : Rule) (now : Timestamp) :
    (∀ d : Database, (∃ e, (create r now).perform d = (.error e, d)) ∨
      (create r now).perform d =
          (.ok (created r now), { d with rules := d.rules ++ [.ofRule (created r now)] }) ∧
        ∀ row ∈ d.rules, row.id ≠ r.id ∧ ¬(row.tenant = r.tenant ∧ row.name = r.name)) ∧
    ∀ s : MemoryStore, ((∃ e, (create r now).perform s = (.error e, s)) ∨
      ∃ s', (create r now).perform s = (.ok (created r now), s') ∧
        s'.records = s.records ∧ s'.versions = s.versions ∧
        (∀ id, s'.findRule id = if id = r.id then some (created r now) else s.findRule id) ∧
        (s'.rules = s.rules ++ [created r now] ↔ s.findRule r.id = none)) ∧
      (r.validate = .ok () →
        (∀ other ∈ s.rules, other.tenant = r.tenant → other.name = r.name → other.id = r.id) →
        ((create r now).perform s).1 = .ok (created r now)) := by
  refine ⟨fun d => ?_, fun s => ⟨?_, fun hv hfree => ?_⟩⟩
  · refine (perform_create_cases d r now).imp_right fun ⟨d', hw, h⟩ => ?_
    obtain ⟨hnew, rfl⟩ := Database.insertRule_eq_ok_iff.mp (Database.answer_eq_ok hw)
    exact ⟨h, hnew⟩
  · refine (perform_create_cases s r now).imp_right fun ⟨s', hw, h⟩ => ?_
    obtain rfl : s.putRule (created r now) = s' := Except.ok.inj hw
    exact ⟨_, h, rfl, rfl, s.findRule_putRule _, MemoryStore.rules_putRule_eq_append_iff⟩
  · rw [perform_create_of_free hv rfl (fun other hother => ?_) rfl]
    have hname : other.tenant = r.tenant ∧ other.name = r.name := by
      simpa using List.find?_some hother
    exact hfree other (List.mem_of_find?_eq_some hother) hname.1 hname.2

end RuleService

end RuleEngine
