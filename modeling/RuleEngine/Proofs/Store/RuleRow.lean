import RuleEngine.Proofs.Data.Rule
import RuleEngine.Proofs.Store.RuleReading
import RuleEngine.Proofs.Store.RuleTable

/-!
# Rules in a database

A rule is read back from its row with its times cut to the microsecond and its delay cut to the
longest one, if its structured columns are not nested too deep and its years have four digits. A
database all of whose rows are so lists its active rules as a store in memory does.

## Main definitions

* `Rule.IsStorable`: the rules whose columns can be read back.
* `Rule.kept`: the rule that is read back.

## Main results

* `RuleRow.read_ofRule`: what is read back from the row of a rule.
* `Database.exists_activeRules`: the active rules of a database whose rows can be read.
-/

namespace RuleEngine

/-! ### Rows -/

/-- Whether the definition of a rule can be read back: its cron expression is that of a text, the
orders of its actions fit 32 bits, and its lists are not nested too deep. -/
structure Rule.IsStorable (r : Rule) : Prop where
  cron : ∀ c, r.trigger = .schedule c → c.IsRead
  order : ∀ a ∈ r.actions, a.order < wordBound
  conditions : (Json.arr (r.conditions.map Condition.toJson)).depth ≤ Json.depthLimit
  actions : (Json.arr (r.actions.map Action.toJson)).depth ≤ Json.depthLimit

/-- Whether the times of a rule can be read back. -/
structure Rule.IsDatable (r : Rule) : Prop where
  createdAt : r.createdAt.HasFourDigitYear
  updatedAt : r.updatedAt.HasFourDigitYear
  lastTick : ∀ t, r.lastTick = some t → t.HasFourDigitYear

/-- The rule as it is read back. -/
def Rule.kept (r : Rule) : Rule :=
  { r with
    delaySeconds := r.delaySeconds.map (min RuleRow.longestDelay)
    lastTick := r.lastTick.map Timestamp.truncMicros
    createdAt := r.createdAt.truncMicros
    updatedAt := r.updatedAt.truncMicros }

section

variable {α : Type} {f : Json → Option α} {g : α → Json} {l l' : List α}

/-- A list whose items are denoted by what they are written as is read from its column. -/
theorem Column.structured_list (hd : (Json.arr (l.map g)).depth ≤ Json.depthLimit)
    (hw : ∀ a ∈ l, (g a).IsWritable) (hf : ∀ a ∈ l, f (g a) = some a) :
    structured (Json.list? f) (ofJson (.arr (l.map g))) = .ok l :=
  (structured_ofJson_eq_ok_iff (Json.isWritable_arr_map hw)).mpr ⟨hd, Json.mapM_map_eq_some hf⟩

/-- Nothing else is read from it. -/
theorem Column.eq_of_structured_list (hw : ∀ a ∈ l, (g a).IsWritable)
    (hf : ∀ a ∈ l, f (g a) = some a)
    (h : structured (Json.list? f) (ofJson (.arr (l.map g))) = .ok l') : l' = l :=
  Except.ok.inj (h.symm.trans (structured_list (depth_le_of_structured h) hw hf))

end

theorem Column.optionalInstant_map {t : Option Timestamp}
    (h : ∀ i, t = some i → i.HasFourDigitYear) :
    optionalInstant (t.map ofInstant) = .ok (t.map Timestamp.truncMicros) := by
  cases t with
  | none => rfl
  | some i =>
    rw [Option.map_some, optionalInstant, instant_ofInstant (h i rfl)]
    rfl

theorem Trigger.depth_toJson (t : Trigger) : t.toJson.depth ≤ Json.depthLimit := by
  cases t <;> simp [toJson, CronExpression.toJson, Json.depth, Json.membersDepth, Json.depthLimit]

theorem Column.structured_trigger {t : Trigger} (h : ∀ c, t = .schedule c → c.IsRead) :
    structured Trigger.ofJson? (ofJson t.toJson) = .ok t :=
  (structured_ofJson_eq_ok_iff t.isWritable_toJson).mpr ⟨t.depth_toJson, Trigger.ofJson?_toJson h⟩

namespace RuleRow

/-- A rule that can be kept is read back from its row. -/
theorem read_ofRule {r : Rule} (hs : r.IsStorable) (hd : r.IsDatable) :
    (ofRule r).read = .ok r.kept := by
  have ht := Column.structured_trigger hs.cron
  have hc := Column.structured_list hs.conditions (fun c _ => c.isWritable_toJson)
    fun c _ => c.ofJson?_toJson
  have ha := Column.structured_list hs.actions (fun a h => Action.isWritable_toJson (hs.order a h))
    fun a h => Action.ofJson?_toJson (hs.order a h)
  have hn := Column.tag_eq_ok_iff.mpr r.combination.lookup_name
  have hl := Column.optionalInstant_map hd.lastTick
  have hi := Column.instant_ofInstant hd.createdAt
  have hu := Column.instant_ofInstant hd.updatedAt
  unfold read
  simp only [ofRule, ht, hc, ha, hn, hl, hi, hu]
  rfl

/-- Whether a row is that of a rule that can be kept. -/
def IsLegible (row : RuleRow) : Prop := ∃ r : Rule, r.IsStorable ∧ r.IsDatable ∧ row = ofRule r

/-- A legible row can be read. -/
theorem IsLegible.exists_read {row : RuleRow} (h : row.IsLegible) :
    ∃ r : Rule, row.read = .ok r := by
  obtain ⟨r, hs, hd, rfl⟩ := h
  exact ⟨r.kept, read_ofRule hs hd⟩

/-- The trigger that is read from a legible row is of the kind that the row says. -/
theorem IsLegible.kind_eq {row : RuleRow} {r : Rule} (h : row.IsLegible) (hr : row.read = .ok r) :
    r.trigger.kind.name = row.triggerKind := by
  obtain ⟨s, hs, hd, rfl⟩ := h
  obtain rfl := Except.ok.inj ((read_ofRule hs hd).symm.trans hr)
  rfl

end RuleRow

/-! ### Tables -/

namespace Database

open RuleView

variable {d d' : Database} {id : RuleId} {r : Rule}

/-- Whether an open database has legible rows with distinct identifiers. -/
structure IsLegible (d : Database) : Prop where
  isOpen : d.isOpen
  nodup : (d.rules.map RuleRow.id).Nodup
  legible : ∀ row ∈ d.rules, row.IsLegible

instance : RuleView Database where
  IsSound := IsLegible
  rule? d id := (d.row? id).bind fun row => row.read.toOption

theorem row?_eq_some_iff (h : IsSound d) {row : RuleRow} :
    d.row? id = some row ↔ row ∈ d.rules ∧ row.id = id :=
  find?_key_eq_some_iff h.nodup

theorem rule?_eq_some_iff (h : IsSound d) :
    rule? d id = some r ↔ ∃ row ∈ d.rules, row.id = id ∧ row.read = .ok r := by
  have ht {row : RuleRow} : row.read.toOption = some r ↔ row.read = .ok r := by
    cases row.read <;> simp [Except.toOption]
  change (d.row? id).bind _ = some r ↔ _
  simp only [Option.bind_eq_some_iff, row?_eq_some_iff h, ht, and_assoc]

theorem answer_of_isSound {α : Type} (h : IsSound d) (a : Except EngineError α) :
    d.answer a = a := if_pos h.isOpen

/-- The active rows of a kind are those of the active rules of the kind, of one tenant or of
all. -/
theorem exists_activeRules (h : IsSound d) (tenant : Option TenantId) (kind : TriggerKind) :
    ∃ rules, RuleStore.activeRules d tenant kind = .ok rules ∧ (rules.map Rule.id).Nodup ∧
      ∀ r, r ∈ rules ↔ rule? d r.id = some r ∧ r.active ∧ r.trigger.kind = kind ∧
        ∀ t ∈ tenant, r.tenant = t := by
  have hmem (row : RuleRow) : row ∈ (d.activeRows tenant kind).mergeSort RuleRow.order ↔
      row ∈ d.rules ∧ row.active ∧ row.triggerKind = kind.name ∧ ∀ t ∈ tenant, row.tenant = t := by
    rw [List.mem_mergeSort, mem_activeRows]
    rfl
  obtain ⟨rules, hread⟩ := RuleRow.exists_mapM_read fun row hm =>
    (h.legible row ((hmem row).mp hm).1).exists_read
  obtain ⟨hids, hr⟩ := RuleRow.mem_of_mapM_read hread
  refine ⟨rules, (answer_of_isSound h _).trans hread, ?_, fun r => ?_⟩
  · rw [hids]
    refine ((List.mergeSort_perm _ _).map RuleRow.id).nodup_iff.mpr ?_
    exact (List.filter_sublist.map RuleRow.id).nodup h.nodup
  · rw [hr, rule?_eq_some_iff h]
    constructor
    · rintro ⟨row, hm, hread⟩
      obtain ⟨hm, ha, hk, ht⟩ := (hmem row).mp hm
      have hreads := RuleRow.read_eq_ok_iff.mp hread
      exact ⟨⟨row, hm, hreads.id.symm, hread⟩, hreads.active.trans ha,
        TriggerKind.name_inj.mp (((h.legible row hm).kind_eq hread).trans hk), fun t htenant =>
          hreads.tenant.trans (ht t htenant)⟩
    · rintro ⟨⟨row, hm, -, hread⟩, ha, hk, ht⟩
      have hreads := RuleRow.read_eq_ok_iff.mp hread
      exact ⟨row, (hmem row).mpr ⟨hm, hreads.active.symm.trans ha,
        ((h.legible row hm).kind_eq hread).symm.trans (congrArg _ hk), fun t htenant =>
          hreads.tenant.symm.trans (ht t htenant)⟩, hread⟩

end Database

end RuleEngine
