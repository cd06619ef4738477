import RuleEngine.Proofs.Store.RuleRow

/-!
# The minutes that are noted for rules

A store notes for every rule the last minute of the scheduler that was claimed for it. A claim
succeeds only if the noted minute is behind, and then notes the minute that was claimed; to write a
rule notes the minute that the rule carries, whatever was noted before. In memory a minute is noted
as it is, and in a database as the text of its column.

## Main definitions

* `TickLedger`: a store by the minutes that it notes.
-/

namespace RuleEngine

/-- A store by the minutes that it notes for rules. -/
class TickLedger (σ : Type) [RuleStore σ] [ExecutionLog σ] where
  /-- A minute as it is noted. -/
  Mark : Type
  /-- How a minute is noted. -/
  mark : Timestamp → Mark
  /-- Whether a noted minute is before another one. -/
  IsBehind : Mark → Mark → Prop
  /-- Whether the rules of a store are told apart by their identifiers. -/
  IsSound : σ → Prop
  /-- The minute that is noted for a rule. -/
  noted : σ → RuleId → Option Mark
  not_isBehind_self (m : Mark) : ¬ IsBehind m m
  isBehind_trans {k m n : Mark} (hk : IsBehind k m) (hm : IsBehind m n) : IsBehind k n
  /-- A rule is read with the minute that is noted for it. -/
  noted_read {s : σ} {id : RuleId} {r : Rule} (h : IsSound s)
    (hr : RuleStore.ruleById s id = .ok (some r)) :
    r.id = id ∧ noted s id = r.lastTick.map mark
  /-- To write a rule notes the minute that it carries. -/
  noted_update {s s' : σ} {r : Rule} (h : IsSound s) (hw : RuleStore.updateRule s r = .ok s') :
    IsSound s' ∧ ∀ id, noted s' id = if id = r.id then r.lastTick.map mark else noted s id
  /-- A minute is claimed if the noted one is behind it, and is noted then. -/
  noted_claim {s s' : σ} {id : RuleId} {tick : Timestamp} (h : IsSound s)
    (hc : RuleStore.claimTick s id tick = .ok (true, s')) :
    IsSound s' ∧ (∀ m, noted s id = some m → IsBehind m (mark tick)) ∧
      ∀ other, noted s' other = if other = id then some (mark tick) else noted s other
  /-- A minute that is not claimed is not noted. -/
  noted_claim_false {s s' : σ} {id : RuleId} {tick : Timestamp} (h : IsSound s)
    (hc : RuleStore.claimTick s id tick = .ok (false, s')) : IsSound s' ∧ noted s' = noted s
  /-- To append a record notes nothing. -/
  noted_append {s s' : σ} {r : ExecutionRecord} (h : IsSound s)
    (ha : ExecutionLog.appendRecord s r = .ok s') : IsSound s' ∧ noted s' = noted s

/-! ### In memory -/

namespace MemoryStore

/-- The minute that is noted for a rule. -/
def notedTick (s : MemoryStore) (id : RuleId) : Option Timestamp :=
  (s.findRule id).bind (·.lastTick)

theorem notedTick_putRule (s : MemoryStore) (r : Rule) (id : RuleId) :
    (s.putRule r).notedTick id = if id = r.id then r.lastTick else s.notedTick id := by
  have hfind : (s.putRule r).findRule id = if id = r.id then some r else s.findRule id :=
    find?_put Rule.id r s.rules id
  rw [notedTick, hfind]
  split <;> rfl

/-- What a claim does to the rules in memory. -/
theorem claim_cases (s : MemoryStore) (id : RuleId) (tick : Timestamp) :
    s.claim id tick = (false, s) ∨ ∃ r, s.findRule id = some r ∧
      (∀ last, r.lastTick = some last → last.before tick) ∧
      s.claim id tick = (true, s.putRule { r with lastTick := some tick }) := by
  unfold claim
  split
  · exact .inl rfl
  · next r hr =>
    split
    · exact .inl rfl
    · next hnoted =>
      rw [Bool.not_eq_true] at hnoted
      exact .inr ⟨r, hr, any_notAfter_eq_false_iff.mp hnoted, rfl⟩

instance : TickLedger MemoryStore where
  Mark := Timestamp
  mark t := t
  IsBehind a b := a.before b
  IsSound _ := True
  noted := notedTick
  not_isBehind_self _ := Timestamp.not_before_self
  isBehind_trans := Timestamp.before_trans
  noted_read {s id r} _ hr := by
    have hr : s.findRule id = some r := Except.ok.inj hr
    refine ⟨id_eq_of_findRule hr, ?_⟩
    rw [notedTick, hr, Option.map_id']
    rfl
  noted_update {s s' r} _ hw := by
    cases hw
    refine ⟨trivial, fun id => ?_⟩
    rw [notedTick_putRule, Option.map_id']
  noted_claim {s s' id tick} _ hc := by
    have hc : s.claim id tick = (true, s') := Except.ok.inj hc
    rcases s.claim_cases id tick with hf | ⟨r, hr, hl, ht⟩
    · cases hf.symm.trans hc
    · cases ht.symm.trans hc
      obtain rfl := id_eq_of_findRule hr
      refine ⟨trivial, fun m hm => hl m ?_, fun other => notedTick_putRule s _ other⟩
      rw [notedTick, hr] at hm
      exact hm
  noted_claim_false {s s' id tick} _ hc := by
    have hc : s.claim id tick = (false, s') := Except.ok.inj hc
    rcases s.claim_cases id tick with hf | ⟨r, hr, hl, ht⟩
    · cases hf.symm.trans hc
      exact ⟨trivial, rfl⟩
    · cases ht.symm.trans hc
  noted_append _ ha := by
    cases ha
    exact ⟨trivial, rfl⟩

end MemoryStore

/-! ### In a database -/

namespace Column

theorem eq_map_of_optionalInstant {column : Option String} {t : Option Timestamp}
    (hc : ∀ text, column = some text → ∃ t, text = ofInstant t)
    (h : optionalInstant column = .ok t) : column = t.map ofInstant := by
  cases column with
  | none =>
    obtain rfl : none = t := Except.ok.inj h
    rfl
  | some text =>
    obtain ⟨written, rfl⟩ := hc text rfl
    rw [optionalInstant] at h
    cases hi : instant (ofInstant written) with
    | error e =>
      rw [hi] at h
      cases h
    | ok read =>
      rw [hi] at h
      obtain rfl : some read = t := Except.ok.inj h
      rw [Option.map_some, ofInstant_of_instant hi]

end Column

/-- A row is read with its identifier and its minute. -/
theorem RuleRow.read_eq_ok {row : RuleRow} {r : Rule} (h : row.read = .ok r) :
    r.id = row.id ∧ Column.optionalInstant row.lastTick = .ok r.lastTick := by
  unfold read at h
  simp only [bind, Except.bind] at h
  repeat' split at h
  all_goals cases h
  exact ⟨rfl, by assumption⟩

namespace Database

variable {d d' : Database} {id : RuleId} {r : Rule}

/-- The text of the minute that is noted for a rule. -/
def notedText (d : Database) (id : RuleId) : Option String :=
  (d.row? id).bind (·.lastTick)

/-- Whether rules have distinct identifiers and the noted minutes are columns of instants. -/
structure KeepsTicks (d : Database) : Prop where
  nodup : (d.rules.map RuleRow.id).Nodup
  column : ∀ row ∈ d.rules, ∀ text, row.lastTick = some text → ∃ t, text = Column.ofInstant t

theorem KeepsTicks.row?_eq (h : d.KeepsTicks) {row : RuleRow} (hm : row ∈ d.rules) :
    d.row? row.id = some row :=
  (find?_key_eq_some_iff h.nodup).mpr ⟨hm, rfl⟩

theorem KeepsTicks.map (h : d.KeepsTicks) {f : RuleRow → RuleRow}
    (hid : ∀ row, (f row).id = row.id)
    (hf : ∀ row ∈ d.rules, ∀ text, (f row).lastTick = some text →
      ∃ t, text = Column.ofInstant t) :
    { d with rules := d.rules.map f }.KeepsTicks where
  nodup := by
    rw [map_key_map hid]
    exact h.nodup
  column := by
    intro _ hm
    obtain ⟨row, hrow, rfl⟩ := List.mem_map.mp hm
    exact hf row hrow

/-- Rows that are changed in place, all but one of them in nothing, note another minute for that
one only. -/
theorem notedText_map {f : RuleRow → RuleRow} (hid : ∀ row, (f row).id = row.id)
    (hne : ∀ row ∈ d.rules, row.id ≠ id → f row = row) {row : RuleRow}
    (hrow : d.row? id = some row) (other : RuleId) :
    { d with rules := d.rules.map f }.notedText other =
      if other = id then (f row).lastTick else d.notedText other := by
  rw [notedText, row?_map hid]
  by_cases ho : other = id
  · rw [if_pos ho, ho, hrow]
    rfl
  · rw [if_neg ho, notedText]
    cases hother : d.row? other with
    | none => rfl
    | some row' =>
      have hm : row' ∈ d.rules := List.mem_of_find?_eq_some hother
      rw [Option.map_some, hne row' hm (id_of_row? hother ▸ ho)]

/-- A rule that replaces another one is noted with its minute. -/
theorem noted_replaceRule (h : d.KeepsTicks) (hw : d.replaceRule r = .ok d') :
    d'.KeepsTicks ∧ ∀ id, d'.notedText id =
      if id = r.id then r.lastTick.map Column.ofInstant else d.notedText id := by
  obtain ⟨⟨row, hm, hrow⟩, -, rfl⟩ := replaceRule_eq_ok_iff.mp hw
  refine ⟨h.map (RuleRow.id_replaced r) ?_, fun id => ?_⟩
  · intro row hm text htext
    unfold RuleRow.replaced at htext
    split at htext
    · obtain ⟨t, -, ht⟩ := Option.map_eq_some_iff.mp htext
      exact ⟨t, ht.symm⟩
    · exact h.column row hm text htext
  · rw [notedText_map (RuleRow.id_replaced r) (fun row _ => RuleRow.replaced_of_ne)
      (hrow ▸ h.row?_eq hm), RuleRow.replaced_of_eq hrow]
    rfl

/-- Whether the minute that is noted in a row of a rule is behind a text. -/
def isBehind (id : RuleId) (text : String) (row : RuleRow) : Bool :=
  row.id == id && row.lastTick.all (· < text)

theorem isBehind_iff {text : String} {row : RuleRow} : isBehind id text row ↔
    row.id = id ∧ ∀ noted, row.lastTick = some noted → noted < text := by
  rw [isBehind, Bool.and_eq_true, beq_iff_eq]
  cases row.lastTick <;> simp

/-- A minute is claimed in the row of its rule if the noted one is behind it. -/
theorem noted_claim (h : d.KeepsTicks) {tick : Timestamp} (hc : d.claim id tick = (true, d')) :
    d'.KeepsTicks ∧ (∀ text, d.notedText id = some text → text < Column.ofInstant tick) ∧
      ∀ other, d'.notedText other =
        if other = id then some (Column.ofInstant tick) else d.notedText other := by
  obtain ⟨hany, rfl⟩ := Prod.mk.inj hc
  obtain ⟨row, hm, hbehind⟩ := List.any_eq_true.mp hany
  change isBehind id (Column.ofInstant tick) row = true at hbehind
  obtain ⟨rfl, hlast⟩ := isBehind_iff.mp hbehind
  have hrow := h.row?_eq hm
  have hid (other : RuleRow) : (if isBehind row.id (Column.ofInstant tick) other then
      { other with lastTick := some (Column.ofInstant tick) } else other).id = other.id := by
    split <;> rfl
  refine ⟨h.map hid ?_, ?_, fun other => (notedText_map hid ?_ hrow other).trans ?_⟩
  · intro other ho text htext
    split at htext
    · cases htext
      exact ⟨tick, rfl⟩
    · exact h.column other ho text htext
  · intro text ht
    rw [notedText, hrow] at ht
    exact hlast text ht
  · intro other _ hne
    exact if_neg fun hb => hne (isBehind_iff.mp hb).1
  · rw [if_pos hbehind]

/-- A minute that is not claimed changes no row. -/
theorem claim_false {tick : Timestamp} (hc : d.claim id tick = (false, d')) : d' = d := by
  obtain ⟨hany, rfl⟩ := Prod.mk.inj hc
  rw [List.any_eq_false] at hany
  have hsame : d.rules.map (fun row => if isBehind id (Column.ofInstant tick) row then
      { row with lastTick := some (Column.ofInstant tick) } else row) = d.rules :=
    (List.map_congr_left fun row hm => if_neg (hany row hm)).trans (List.map_id' _)
  exact congrArg (fun rules => { d with rules }) hsame

instance : TickLedger Database where
  Mark := String
  mark := Column.ofInstant
  IsBehind a b := a < b
  IsSound := KeepsTicks
  noted := notedText
  not_isBehind_self := String.lt_irrefl
  isBehind_trans := String.lt_trans
  noted_read {d id r} h hr := by
    have hr : (d.row? id).mapM RuleRow.read = .ok (some r) := answer_eq_ok hr
    cases hrow : d.row? id with
    | none =>
      rw [hrow] at hr
      cases hr
    | some row =>
      have hm : row ∈ d.rules := List.mem_of_find?_eq_some hrow
      have hid : row.id = id := id_of_row? hrow
      have hread : row.read = .ok r := by
        rw [hrow, Option.mapM_some] at hr
        cases hread : row.read with
        | error e =>
          rw [hread] at hr
          cases hr
        | ok r' =>
          rw [hread] at hr
          cases hr
          rfl
      obtain ⟨hrid, hlast⟩ := RuleRow.read_eq_ok hread
      refine ⟨hrid.trans hid, ?_⟩
      rw [notedText, hrow]
      exact Column.eq_map_of_optionalInstant (h.column row hm) hlast
  noted_update h hw := noted_replaceRule h (answer_eq_ok hw)
  noted_claim h hc := noted_claim h (Except.ok.inj (answer_eq_ok hc))
  noted_claim_false h hc := by
    obtain rfl := claim_false (Except.ok.inj (answer_eq_ok hc))
    exact ⟨h, rfl⟩
  noted_append {d d' r} h ha := by
    obtain ⟨-, rfl⟩ := insertRecord_eq_ok_iff.mp (answer_eq_ok ha)
    exact ⟨⟨h.nodup, h.column⟩, rfl⟩

end Database

end RuleEngine
