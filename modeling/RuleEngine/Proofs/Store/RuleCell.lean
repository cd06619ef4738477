import RuleEngine.Proofs.Store.Keys
import RuleEngine.Proofs.Store.TickLedger

/-!
# The cell of a rule

An operation on one rule sees little of a store: the row that is kept under the identifier of the
rule, and which names the other rules have. The calls of a store are described here by these two. A
write changes the row and leaves the names of the others. A database is strict: it writes a rule
only in the place of one that is there, and not under a name that another rule has. In memory a rule
is written in any case.

## Main definitions

* `RuleCell`: what is seen of a rule in a store.
* `RuleCell.kept?`: the row of a rule apart from the time of its last update.
* `RuleCell.Becomes`: the writes to the cell of a rule.
* `EditableStore`: a store whose calls about a rule are answered by its cell.
-/

namespace RuleEngine

/-- What is seen of a rule in a store: the row under its identifier, and the names of the others. -/
class RuleCell (σ : Type) where
  /-- A rule as it is kept. -/
  Row : Type
  /-- The row of a rule. -/
  ofRule : Rule → Row
  /-- The rule of a row. -/
  read : Row → Except EngineError Rule
  /-- A row apart from the time of its last update. -/
  undated : Row → Row
  /-- Whether a row is that of a rule of a tenant with a name. -/
  isNamed : Row → TenantId → String → Bool
  /-- Whether a rule is written only in the place of one that is there, and only under a name that
  no other rule of its tenant has. -/
  isStrict : Bool
  /-- Whether rows are told apart by their identifiers. -/
  IsSound : σ → Prop
  /-- The row under an identifier. -/
  row? : σ → RuleId → Option Row
  /-- Whether a rule under another identifier has a name. -/
  isTaken : σ → RuleId → TenantId → String → Bool

namespace RuleCell

variable {σ : Type} [RuleCell σ]

/-- Whether a store becomes one with a given row, or none, under an identifier, in which the other
rules have the names that they had. -/
structure Becomes (s : σ) (id : RuleId) (row : Option (Row σ)) (s' : σ) : Prop where
  sound : IsSound s'
  row_eq : row? s' id = row
  taken_eq : isTaken s' id = isTaken s id

/-- The row under an identifier apart from the time of its last update. -/
def kept? (s : σ) (id : RuleId) : Option (Row σ) := (row? s id).map undated

/-- Whether a store refuses to write a rule with a name into a cell. -/
def refuses (σ : Type) [RuleCell σ] (taken : Bool) (row : Option (Row σ)) : Bool :=
  isStrict σ && (taken || row.isNone)

end RuleCell

open RuleCell

/-- A store whose calls about a rule are answered by its cell. -/
class EditableStore (σ : Type) [RuleStore σ] extends RuleCell σ where
  /-- The question for an identifier is answered with the rule of the row. -/
  ruleById_eq {s : σ} (h : IsSound s) (id : RuleId) :
    RuleStore.ruleById s id = (row? s id).mapM read
  /-- A rule is read under its identifier. -/
  id_eq {s : σ} {id : RuleId} {row : Row} {r : Rule} (h : row? s id = some row)
    (hr : read row = .ok r) : r.id = id
  isNamed_ofRule (r : Rule) (tenant : TenantId) (name : String) :
    isNamed (ofRule r) tenant name = (r.tenant == tenant && r.name == name)
  isNamed_of_read {row : Row} {r : Rule} (hr : read row = .ok r) (tenant : TenantId)
    (name : String) : isNamed row tenant name = (r.tenant == tenant && r.name == name)
  /-- A rule that is written is read back, if it can be read, with its tenant, its name and its
  switch, and with times that make the same row again. -/
  of_read_ofRule {r r' : Rule} (hr : read (ofRule r) = .ok r') :
    r'.tenant = r.tenant ∧ r'.name = r.name ∧ r'.active = r.active ∧ ∀ w : Rule,
      undated (ofRule { w with createdAt := r'.createdAt, lastTick := r'.lastTick }) =
        undated (ofRule { w with createdAt := r.createdAt, lastTick := r.lastTick })
  undated_ofRule (r : Rule) (t : Timestamp) :
    undated (ofRule { r with updatedAt := t }) = undated (ofRule r)
  /-- A name that only another rule has leads to that rule, or cannot be looked for. -/
  ruleByName_of_taken {s : σ} {id : RuleId} {tenant : TenantId} {name : String} (h : IsSound s)
    (ht : isTaken s id tenant name = true)
    (hn : ∀ row, row? s id = some row → isNamed row tenant name = false) :
    (∃ other, RuleStore.ruleByName s tenant name = .ok (some other) ∧ other.id ≠ id) ∨
      ∃ e, RuleStore.ruleByName s tenant name = .error e
  /-- A name that no other rule has leads at most to the rule itself, if its row can be read. -/
  ruleByName_of_free {s : σ} {id : RuleId} {tenant : TenantId} {name : String} (h : IsSound s)
    (ht : isTaken s id tenant name = false) :
    RuleStore.ruleByName s tenant name = .ok none ∨
      (∃ r, RuleStore.ruleByName s tenant name = .ok (some r) ∧ r.id = id) ∨
      ∃ row e, row? s id = some row ∧ read row = .error e ∧
        RuleStore.ruleByName s tenant name = .error e
  /-- A rule is written unless the store refuses it. -/
  updateRule_of_refuses {s : σ} {r : Rule} (h : IsSound s)
    (hr : refuses σ (isTaken s r.id r.tenant r.name) (row? s r.id) = true) :
    ∃ e, RuleStore.updateRule s r = .error e
  exists_updateRule {s : σ} {r : Rule} (h : IsSound s)
    (hr : refuses σ (isTaken s r.id r.tenant r.name) (row? s r.id) = false) :
    ∃ s', RuleStore.updateRule s r = .ok s' ∧ Becomes s r.id (some (ofRule r)) s'
  /-- A rule is removed, whether it is there or not. -/
  exists_deleteRule {s : σ} (h : IsSound s) (id : RuleId) :
    ∃ s', RuleStore.deleteRule s id = .ok s' ∧ Becomes s id none s'

/-! ### What is read of a rule -/

section

variable {σ : Type} [RuleStore σ] [EditableStore σ] {s : σ} {id : RuleId}

theorem RuleCell.Becomes.refl (h : IsSound s) (id : RuleId) : Becomes s id (row? s id) s :=
  ⟨h, rfl, rfl⟩

theorem EditableStore.ruleById_of_none (hs : IsSound s) (h : row? s id = none) :
    RuleStore.ruleById s id = .ok none := by
  rw [ruleById_eq hs, h]
  rfl

theorem EditableStore.ruleById_of_ok (hs : IsSound s) {row : Row σ} {r : Rule}
    (h : row? s id = some row) (hr : read row = .ok r) :
    RuleStore.ruleById s id = .ok (some r) := by
  rw [ruleById_eq hs, h, Option.mapM_some, hr]
  rfl

theorem EditableStore.ruleById_of_error (hs : IsSound s) {row : Row σ} {e : EngineError}
    (h : row? s id = some row) (hr : read row = .error e) :
    RuleStore.ruleById s id = .error e := by
  rw [ruleById_eq hs, h, Option.mapM_some, hr]
  rfl

end

/-! ### The names of the others -/

section

variable {α : Type} {key : α → RuleId} {named : α → Bool} {l : List α} {id : RuleId}

/-- Whether an item has a name, and not a given identifier. -/
def isRival (key : α → RuleId) (named : α → Bool) (id : RuleId) (a : α) : Bool :=
  key a != id && named a

theorem isRival_of_eq {a : α} (h : key a = id) : isRival key named id a = false := by
  simp [isRival, h]

/-- A name that only other items have leads to one of them. -/
theorem exists_find?_of_rival (h : (l.map key).Nodup) (ht : l.any (isRival key named id) = true)
    (hn : ∀ a, l.find? (fun b => key b = id) = some a → named a = false) :
    ∃ a, l.find? named = some a ∧ key a ≠ id := by
  obtain ⟨rival, hm, hrival⟩ := List.any_eq_true.mp ht
  cases hf : l.find? named with
  | none => exact absurd (Bool.and_eq_true_iff.mp hrival).2 (List.find?_eq_none.mp hf rival hm)
  | some a =>
    refine ⟨a, rfl, fun hid => ?_⟩
    have hfound := (find?_key_eq_some_iff h).mpr ⟨List.mem_of_find?_eq_some hf, hid⟩
    exact Bool.noConfusion ((hn a hfound).symm.trans (List.find?_some hf))

/-- A name that no other item has leads at most to the item itself. -/
theorem find?_of_no_rival (h : (l.map key).Nodup) (ht : l.any (isRival key named id) = false) :
    l.find? named = none ∨
      ∃ a, l.find? named = some a ∧ l.find? (fun b => key b = id) = some a := by
  cases hf : l.find? named with
  | none => exact .inl rfl
  | some a =>
    have hm : a ∈ l := List.mem_of_find?_eq_some hf
    refine .inr ⟨a, rfl, (find?_key_eq_some_iff h).mpr ⟨hm, ?_⟩⟩
    by_contra hid
    refine List.any_eq_false.mp ht a hm ?_
    exact Bool.and_eq_true_iff.mpr ⟨bne_iff_ne.mpr hid, List.find?_some hf⟩

/-- To remove an item leaves the names of the others. -/
theorem any_isRival_filter (l : List α) :
    (l.filter fun a => key a != id).any (isRival key named id) =
      l.any (isRival key named id) := by
  rw [List.any_filter]
  congr 1
  funext a
  by_cases ha : key a = id <;> simp [isRival, ha]

/-- A removed item is not found any more. -/
theorem find?_key_filter (l : List α) :
    (l.filter fun a => key a != id).find? (fun a => key a = id) = none := by
  rw [List.find?_filter, List.find?_eq_none]
  intro a _
  simp

end

/-! ### In memory -/

namespace MemoryStore

/-- Whether a rule is one of a tenant with a name. -/
def hasName (tenant : TenantId) (name : String) (r : Rule) : Bool :=
  r.tenant == tenant && r.name == name

instance : RuleCell MemoryStore where
  Row := Rule
  ofRule r := r
  read := .ok
  undated r := { r with updatedAt := .epoch }
  isNamed r tenant name := hasName tenant name r
  isStrict := false
  IsSound s := (s.rules.map Rule.id).Nodup
  row? := findRule
  isTaken s id tenant name := s.rules.any (isRival Rule.id (hasName tenant name) id)

theorem any_isRival_put (r : Rule) (named : Rule → Bool) (rules : List Rule) :
    (put Rule.id r rules).any (isRival Rule.id named r.id) =
      rules.any (isRival Rule.id named r.id) := by
  induction rules with
  | nil => rw [put, List.any_cons, isRival_of_eq rfl, Bool.false_or]
  | cons other rest ih =>
    rw [put]
    split
    · next h => rw [List.any_cons, List.any_cons, isRival_of_eq rfl, isRival_of_eq h]
    · rw [List.any_cons, List.any_cons, ih]

theorem becomes_putRule {s : MemoryStore} (h : IsSound s) (r : Rule) :
    Becomes s r.id (some r) (s.putRule r) where
  sound := nodup_map_put r h
  row_eq := (find?_put Rule.id r s.rules r.id).trans (if_pos rfl)
  taken_eq := funext₂ fun _ _ => any_isRival_put r _ s.rules

theorem becomes_filter {s : MemoryStore} (h : IsSound s) (id : RuleId) :
    Becomes s id none { s with rules := s.rules.filter fun r => r.id != id } where
  sound := (List.filter_sublist.map Rule.id).nodup h
  row_eq := find?_key_filter s.rules
  taken_eq := funext₂ fun _ _ => any_isRival_filter s.rules

instance : EditableStore MemoryStore where
  ruleById_eq {s} _ id := by
    change Except.ok (s.findRule id) = (s.findRule id).mapM Except.ok
    cases s.findRule id <;> rfl
  id_eq h hr := by
    cases hr
    exact id_eq_of_findRule h
  isNamed_ofRule _ _ _ := rfl
  isNamed_of_read hr _ _ := by
    cases hr
    rfl
  of_read_ofRule hr := by
    cases hr
    exact ⟨rfl, rfl, rfl, fun _ => rfl⟩
  undated_ofRule _ _ := rfl
  ruleByName_of_taken h ht hn := by
    obtain ⟨other, hother, hid⟩ := exists_find?_of_rival h ht hn
    exact .inl ⟨other, congrArg Except.ok hother, hid⟩
  ruleByName_of_free h ht := by
    obtain hnone | ⟨r, hr, hid⟩ := find?_of_no_rival h ht
    · exact .inl (congrArg Except.ok hnone)
    · exact .inr (.inl ⟨r, congrArg Except.ok hr, id_eq_of_findRule hid⟩)
  updateRule_of_refuses _ hr := nomatch hr
  exists_updateRule {s r} h _ := ⟨s.putRule r, rfl, becomes_putRule h r⟩
  exists_deleteRule {s} h id := by
    have hfilter : (s.rules.filter fun r => decide (r.id ≠ id)) =
        s.rules.filter fun r => r.id != id :=
      List.filter_congr fun r _ => decide_not
    refine ⟨_, ?_, becomes_filter h id⟩
    change Except.ok { s with rules := s.rules.filter fun r => decide (r.id ≠ id) } = _
    rw [hfilter]

end MemoryStore

/-! ### In a database -/

namespace Database

/-- Whether a row is that of a rule of a tenant with a name. -/
def hasName (tenant : TenantId) (name : String) (row : RuleRow) : Bool :=
  row.tenant == tenant && row.name == name

instance : RuleCell Database where
  Row := RuleRow
  ofRule := .ofRule
  read := RuleRow.read
  undated row := { row with updatedAt := "" }
  isNamed row tenant name := hasName tenant name row
  isStrict := true
  IsSound := IsKeyed
  row? := row?
  isTaken d id tenant name := d.rules.any (isRival RuleRow.id (hasName tenant name) id)

variable {d d' : Database} {r : Rule} {tenant : TenantId} {name : String}

theorem becomes_replaceRule (h : d.IsKeyed) (hw : d.replaceRule r = .ok d') :
    Becomes d r.id (some (RuleRow.ofRule r)) d' where
  sound := h.replaceRule hw
  row_eq := row?_replaceRule hw
  taken_eq := by
    obtain ⟨-, -, rfl⟩ := replaceRule_eq_ok_iff.mp hw
    funext tenant name
    change (d.rules.map _).any _ = d.rules.any _
    rw [List.any_map]
    congr 1
    funext row
    by_cases hrow : row.id = r.id
    · rw [Function.comp, isRival_of_eq ((RuleRow.id_replaced r row).trans hrow), isRival_of_eq hrow]
    · rw [Function.comp, RuleRow.replaced_of_ne hrow]

theorem becomes_filter (h : d.IsKeyed) (id : RuleId) :
    Becomes d id none { d with rules := d.rules.filter fun row => row.id != id } where
  sound := h.filter_rules _
  row_eq := find?_key_filter d.rules
  taken_eq := funext₂ fun _ _ => any_isRival_filter d.rules

/-- A database refuses to write a rule that is not there, or that has a name of another one. -/
theorem refuses_iff : refuses Database (isTaken d r.id r.tenant r.name) (RuleCell.row? d r.id) =
    true ↔ ¬(∃ d', d.replaceRule r = .ok d') := by
  have hrow : RuleCell.row? d r.id = none ↔ ∀ row ∈ d.rules, row.id ≠ r.id := by
    change d.row? r.id = none ↔ _
    simp [row?]
  have htaken : isTaken d r.id r.tenant r.name = true ↔
      ∃ row ∈ d.rules, row.id ≠ r.id ∧ row.tenant = r.tenant ∧ row.name = r.name := by
    change d.rules.any _ = true ↔ _
    simp [isRival, hasName]
  have hrefuses : refuses Database (isTaken d r.id r.tenant r.name) (RuleCell.row? d r.id) = true ↔
      isTaken d r.id r.tenant r.name = true ∨ RuleCell.row? d r.id = none := by
    rw [refuses, ← Option.isNone_iff_eq_none, ← Bool.or_eq_true]
    rfl
  rw [hrefuses, htaken, hrow, replaceRule_eq]
  split
  · next hnone => exact iff_of_true (.inr hnone) (by simp)
  · next hthere =>
    split
    · next htaken => exact iff_of_true (.inl htaken) (by simp)
    · next hfree => exact iff_of_false (not_or.mpr ⟨hfree, hthere⟩) (not_not_intro ⟨_, rfl⟩)

theorem ruleByName_eq (h : d.IsKeyed) : RuleStore.ruleByName d tenant name =
    (d.rules.find? (hasName tenant name)).mapM RuleRow.read :=
  h.answer_eq _

/-- A row that is found is read. -/
theorem mapM_read_some (row : RuleRow) :
    (some row).mapM RuleRow.read = row.read.map some := by
  rw [Option.mapM_some]
  cases row.read <;> rfl

instance : EditableStore Database where
  ruleById_eq h _ := h.answer_eq _
  id_eq h hr := (RuleRow.read_eq_ok hr).1.trans (id_of_row? h)
  isNamed_ofRule _ _ _ := rfl
  isNamed_of_read {row r} hr tenant name := by
    obtain ⟨-, htenant, hname, -⟩ := RuleRow.read_eq_ok_iff.mp hr
    change (row.tenant == tenant && row.name == name) = _
    rw [htenant, hname]
  of_read_ofRule {r r'} hr := by
    have hreads := RuleRow.read_eq_ok_iff.mp hr
    have hcreated := Column.ofInstant_of_instant hreads.createdAt
    have hlast : r.lastTick.map Column.ofInstant = r'.lastTick.map Column.ofInstant := by
      refine Column.eq_map_of_optionalInstant (fun text ht => ?_) hreads.lastTick
      obtain ⟨t, -, rfl⟩ := Option.map_eq_some_iff.mp ht
      exact ⟨t, rfl⟩
    refine ⟨hreads.tenant, hreads.name, hreads.active, fun w => ?_⟩
    simp only [undated, ofRule, RuleRow.ofRule, hcreated, hlast]
  undated_ofRule _ _ := rfl
  ruleByName_of_taken {d id tenant name} h ht hn := by
    obtain ⟨row, hrow, hid⟩ := exists_find?_of_rival h.ids ht hn
    rw [ruleByName_eq h, hrow, mapM_read_some]
    cases hr : row.read with
    | error e => exact .inr ⟨e, rfl⟩
    | ok other => exact .inl ⟨other, rfl, (RuleRow.read_eq_ok hr).1 ▸ hid⟩
  ruleByName_of_free {d id tenant name} h ht := by
    rw [ruleByName_eq h]
    obtain hnone | ⟨row, hrow, hfound⟩ := find?_of_no_rival h.ids ht
    · rw [hnone]
      exact .inl rfl
    · rw [hrow, mapM_read_some]
      cases hr : row.read with
      | error e => exact .inr (.inr ⟨row, e, hfound, hr, rfl⟩)
      | ok r =>
        exact .inr (.inl ⟨r, rfl, (RuleRow.read_eq_ok hr).1.trans (id_of_row? hfound)⟩)
  updateRule_of_refuses {d r} h hr := by
    have hw : RuleStore.updateRule d r = d.replaceRule r := h.answer_eq _
    rw [hw]
    cases hreplace : d.replaceRule r with
    | error e => exact ⟨e, rfl⟩
    | ok d' => exact absurd ⟨d', hreplace⟩ (refuses_iff.mp hr)
  exists_updateRule {d r} h hr := by
    have hw : RuleStore.updateRule d r = d.replaceRule r := h.answer_eq _
    rw [hw]
    obtain ⟨d', hd⟩ : ∃ d', d.replaceRule r = .ok d' := by
      by_contra hn
      exact Bool.noConfusion (hr.symm.trans (refuses_iff.mpr hn))
    exact ⟨d', hd, becomes_replaceRule h hd⟩
  exists_deleteRule h id := ⟨_, h.answer_eq _, becomes_filter h id⟩

end Database

end RuleEngine
