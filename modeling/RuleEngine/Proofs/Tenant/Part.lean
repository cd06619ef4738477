import Mathlib.Data.String.Basic
import RuleEngine.Proofs.Store.Keys
import RuleEngine.Proofs.Store.RuleReading

/-!
# The part of a tenant

The rules and the records of one tenant in a database. What a database answers to a question of the
tenant can be told from its part, but for a row of another tenant that stands under the identifier
that is asked for and cannot be read: the row is read before its tenant is looked at.

## Main definitions

* `Database.Agree`: databases with the same rules and the same records of a tenant.
* `Database.Spares`: a database in which the other tenants have what they had.
* `Database.HidesRule`, `Database.HidesRecord`: an unreadable row of another tenant is in the way.

## Main results

* `Database.Agree.tenantRow?_eq`, `Database.Agree.ruleByName_eq`, `Database.Agree.rulesOf_eq`,
  `Database.Agree.activeRules_eq`, `Database.Agree.queryRecords_eq`: databases that agree give the
  same answers.
-/

namespace RuleEngine

/-- Lists that have the same items with a property find the same one, if there is one only. -/
theorem find?_congr_of_unique {α : Type} {l l' : List α} {p : α → Bool}
    (hm : ∀ a, p a = true → (a ∈ l ↔ a ∈ l'))
    (hu : ∀ a b, a ∈ l → b ∈ l → p a = true → p b = true → a = b) : l.find? p = l'.find? p := by
  cases h : l.find? p with
  | none =>
    refine (List.find?_eq_none.mpr fun a ha hp => ?_).symm
    exact List.find?_eq_none.mp h a ((hm a hp).mpr ha) hp
  | some a =>
    have ha := List.mem_of_find?_eq_some h
    have hp := List.find?_some h
    cases h' : l'.find? p with
    | none => exact absurd hp (List.find?_eq_none.mp h' a ((hm a hp).mp ha))
    | some b =>
      have hb := (hm b (List.find?_some h')).mpr (List.mem_of_find?_eq_some h')
      rw [hu a b ha hb hp (List.find?_some h')]

/-- Lists with the same items are sorted alike, if the order tells the items apart. -/
theorem mergeSort_eq_of_perm {α : Type} {l l' : List α} {le : α → α → Bool} (h : l.Perm l')
    (htrans : ∀ a b c, le a b = true → le b c = true → le a c = true)
    (htotal : ∀ a b, (le a b || le b a) = true)
    (hanti : ∀ a b, a ∈ l → b ∈ l → le a b = true → le b a = true → a = b) :
    l.mergeSort le = l'.mergeSort le := by
  refine List.Perm.eq_of_pairwise ?_ (List.pairwise_mergeSort htrans htotal l)
    (List.pairwise_mergeSort htrans htotal l')
    ((List.mergeSort_perm l le).trans (h.trans (List.mergeSort_perm l' le).symm))
  intro a b ha hb hab hba
  have hb' : b ∈ l := h.mem_iff.mpr (List.mem_mergeSort.mp hb)
  exact hanti a b (List.mem_mergeSort.mp ha) hb' hab hba

namespace RuleRow

theorem order_trans (a b c : RuleRow) (hab : a.order b = true) (hbc : b.order c = true) :
    a.order c = true := by
  simp only [order, Bool.or_eq_true, Bool.and_eq_true, beq_iff_eq, decide_eq_true_eq] at *
  rcases hab with hab | ⟨hab, hn⟩ <;> rcases hbc with hbc | ⟨hbc, hn'⟩
  · exact .inl (String.lt_trans hab hbc)
  · exact .inl (hbc ▸ hab)
  · exact .inl (hab ▸ hbc)
  · exact .inr ⟨hab.trans hbc, String.le_trans hn hn'⟩

theorem order_total (a b : RuleRow) : (a.order b || b.order a) = true := by
  simp only [order, Bool.or_eq_true, Bool.and_eq_true, beq_iff_eq, decide_eq_true_eq]
  rcases lt_trichotomy a.tenant b.tenant with h | h | h
  · exact .inl (.inl h)
  · exact (String.le_total a.name b.name).imp (fun hn => .inr ⟨h, hn⟩) fun hn => .inr ⟨h.symm, hn⟩
  · exact .inr (.inl h)

end RuleRow

namespace Database

variable {tenant : TenantId} {d d' d'' : Database}

/-! ### Parts -/

/-- The rows of the rules of a tenant. -/
def ruleRows (d : Database) (tenant : TenantId) : List RuleRow :=
  d.rules.filter fun row => row.tenant == tenant

/-- The rows of the records of a tenant. -/
def recordRows (d : Database) (tenant : TenantId) : List ExecutionRow :=
  d.executions.filter fun row => row.tenant == tenant

@[simp] theorem mem_ruleRows {row : RuleRow} :
    row ∈ d.ruleRows tenant ↔ row ∈ d.rules ∧ row.tenant = tenant := by
  simp [ruleRows]

@[simp] theorem mem_recordRows {row : ExecutionRow} :
    row ∈ d.recordRows tenant ↔ row ∈ d.executions ∧ row.tenant = tenant := by
  simp [recordRows]

/-- Whether two databases have the same rules of a tenant, and the same records in the order in
which they were appended. -/
structure Agree (tenant : TenantId) (d d' : Database) : Prop where
  rules : (d.ruleRows tenant).Perm (d'.ruleRows tenant)
  records : d.recordRows tenant = d'.recordRows tenant

/-- Whether the tenants other than one have the same rules and records in a later database. -/
def Spares (tenant : TenantId) (d d' : Database) : Prop :=
  ∀ other, other ≠ tenant →
    d'.ruleRows other = d.ruleRows other ∧ d'.recordRows other = d.recordRows other

theorem Spares.refl (tenant : TenantId) (d : Database) : d.Spares tenant d :=
  fun _ _ => ⟨rfl, rfl⟩

theorem Spares.trans (h : d.Spares tenant d') (h' : d'.Spares tenant d'') :
    d.Spares tenant d'' :=
  fun other hne => ⟨(h' other hne).1.trans (h other hne).1, (h' other hne).2.trans (h other hne).2⟩

/-- Whether an unreadable row of another tenant stands under the identifier of a rule. -/
def HidesRule (tenant : TenantId) (d : Database) (id : RuleId) : Prop :=
  ∃ row ∈ d.rules, row.id = id ∧ row.tenant ≠ tenant ∧ ∀ r, row.read ≠ .ok r

/-- Whether an unreadable row of another tenant stands under the identifier of a record. -/
def HidesRecord (tenant : TenantId) (d : Database) (id : ExecutionId) : Prop :=
  ∃ row ∈ d.executions, row.id = id ∧ row.tenant ≠ tenant ∧ ∀ r, row.read ≠ .ok r

/-! ### Questions about rules -/

/-- The row of a rule of a tenant. -/
def tenantRow? (d : Database) (tenant : TenantId) (id : RuleId) : Option RuleRow :=
  (d.row? id).filter fun row => row.tenant == tenant

theorem tenantRow?_eq_some_iff (h : d.IsKeyed) {id : RuleId} {row : RuleRow} :
    d.tenantRow? tenant id = some row ↔ row ∈ d.ruleRows tenant ∧ row.id = id := by
  rw [tenantRow?, Option.filter_eq_some_iff, h.row?_eq_some_iff, mem_ruleRows, beq_iff_eq]
  tauto

namespace Agree

variable (ha : d.Agree tenant d') (h : d.IsKeyed) (h' : d'.IsKeyed)

include ha h h'

/-- Databases that agree have the same row under an identifier. -/
theorem tenantRow?_eq (id : RuleId) :
    d.tenantRow? tenant id = d'.tenantRow? tenant id := by
  ext row
  rw [tenantRow?_eq_some_iff h, tenantRow?_eq_some_iff h', ha.rules.mem_iff]

/-- Databases that agree have the same rule under a name. -/
theorem ruleByName_eq (name : String) :
    RuleStore.ruleByName d tenant name = RuleStore.ruleByName d' tenant name := by
  change d.answer _ = d'.answer _
  rw [h.answer_eq, h'.answer_eq]
  congr 1
  refine find?_congr_of_unique (fun row hp => ?_) fun a b hm hm' hp hp' => ?_
  · simp only [Bool.and_eq_true, beq_iff_eq] at hp
    have hmem := ha.rules.mem_iff (a := row)
    simpa only [mem_ruleRows, hp.1, and_true] using hmem
  · simp only [Bool.and_eq_true, beq_iff_eq] at hp hp'
    exact h.eq_of_name_eq hm hm' (hp.1.trans hp'.1.symm) (hp.2.trans hp'.2.symm)

/-- Databases that agree list the same rules. -/
theorem rulesOf_eq :
    RuleStore.rulesOf d tenant = RuleStore.rulesOf d' tenant := by
  change d.answer _ = d'.answer _
  rw [h.answer_eq, h'.answer_eq]
  congr 1
  refine mergeSort_eq_of_perm ha.rules (fun a b c => ?_) (fun a b => ?_) fun a b hm hm' => ?_
  · simpa using fun hab hbc => String.le_trans hab hbc
  · simpa using String.le_total a.name b.name
  · obtain ⟨hm, ht⟩ := mem_ruleRows.mp hm
    obtain ⟨hm', ht'⟩ := mem_ruleRows.mp hm'
    simp only [decide_eq_true_eq]
    exact fun hab hba => h.eq_of_name_eq hm hm' (ht.trans ht'.symm) (String.le_antisymm hab hba)

/-- Databases that agree list the same active rules of a kind. -/
theorem activeRules_eq (kind : TriggerKind) : RuleStore.activeRules d (some tenant) kind =
      RuleStore.activeRules d' (some tenant) kind := by
  change d.answer _ = d'.answer _
  rw [h.answer_eq, h'.answer_eq]
  congr 1
  have hpart (x : Database) : (x.rules.filter fun row => row.active &&
      row.triggerKind == kind.name && ExecutionQuery.demand (some tenant) (· == row.tenant)) =
      (x.ruleRows tenant).filter fun row => row.active && row.triggerKind == kind.name := by
    rw [ruleRows, List.filter_filter]
    exact List.filter_congr fun row _ => congrArg _ BEq.comm
  rw [hpart, hpart]
  refine mergeSort_eq_of_perm (ha.rules.filter _) RuleRow.order_trans RuleRow.order_total
    fun a b hm hm' hab hba => ?_
  obtain ⟨hm, ht⟩ := mem_ruleRows.mp (List.mem_of_mem_filter hm)
  obtain ⟨hm', ht'⟩ := mem_ruleRows.mp (List.mem_of_mem_filter hm')
  refine h.eq_of_name_eq hm hm' (ht.trans ht'.symm) (String.le_antisymm ?_ ?_)
  · simpa [RuleRow.order, ht, ht'] using hab
  · simpa [RuleRow.order, ht, ht'] using hba

/-! ### Questions about records -/

/-- Databases that agree list the same records of the tenant, whatever tenant a query names. -/
theorem queryRecords_eq (q : ExecutionQuery) :
    ExecutionLog.queryRecords d { q with tenant := some tenant } =
      ExecutionLog.queryRecords d' { q with tenant := some tenant } := by
  change d.answer _ = d'.answer _
  rw [h.answer_eq, h'.answer_eq]
  congr 1
  have hpart (x : Database) : x.executions.filter
      (ExecutionRow.accepted { q with tenant := some tenant }) =
      (x.recordRows tenant).filter (ExecutionRow.accepted { q with tenant := some tenant }) := by
    rw [recordRows, List.filter_filter]
    refine List.filter_congr fun row _ => ?_
    by_cases ht : row.tenant = tenant
    · simp [ht]
    · have hne : ¬tenant = row.tenant := fun hn => ht hn.symm
      simp [ExecutionRow.accepted, ExecutionQuery.demand, ht, hne]
  rw [select, select, hpart, hpart, ha.records]

end Agree

/-! ### Calls that write -/

theorem ruleRows_map {f : RuleRow → RuleRow}
    (hf : ∀ row ∈ d.rules, (f row).tenant = row.tenant) (other : TenantId) :
    { d with rules := d.rules.map f }.ruleRows other = (d.ruleRows other).map f := by
  rw [ruleRows, ruleRows, List.filter_map]
  refine congrArg _ (List.filter_congr fun row hm => ?_)
  rw [Function.comp, hf row hm]

theorem ruleRows_filter (p : RuleRow → Bool) (other : TenantId) :
    { d with rules := d.rules.filter p }.ruleRows other = (d.ruleRows other).filter p := by
  rw [ruleRows, ruleRows, List.filter_filter, List.filter_filter]
  exact List.filter_congr fun row _ => Bool.and_comm _ _

theorem recordRows_append (r : ExecutionRecord) (other : TenantId) :
    { d with executions := d.executions ++ [ExecutionRow.ofRecord r] }.recordRows other =
      d.recordRows other ++ if r.tenant = other then [ExecutionRow.ofRecord r] else [] := by
  rw [recordRows, recordRows, List.filter_append, List.filter_singleton]
  have hrow : (ExecutionRow.ofRecord r).tenant = r.tenant := rfl
  simp [hrow]

/-- A row under the identifier of a rule of the tenant is the row of that rule. -/
theorem tenant_of_tenantRow? (h : d.IsKeyed) {id : RuleId} {row other : RuleRow}
    (hr : d.tenantRow? tenant id = some row) (hm : other ∈ d.rules) (hid : other.id = id) :
    other.tenant = tenant := by
  obtain ⟨hrow, hrid⟩ := (tenantRow?_eq_some_iff h).mp hr
  obtain ⟨hrow, ht⟩ := mem_ruleRows.mp hrow
  rw [h.eq_of_id_eq hm hrow (hid.trans hrid.symm)]
  exact ht

/-- A database with a rule of the tenant refuses another one in its place for its name only, which
is looked up in the part of the tenant. -/
private theorem replaceRule_of_tenantRow? (h : d.IsKeyed) {r : Rule} {row : RuleRow}
    (hr : d.tenantRow? tenant r.id = some row) (ht : r.tenant = tenant) : d.replaceRule r =
      if ∃ other ∈ d.ruleRows tenant, other.id ≠ r.id ∧ other.name = r.name then
        .error (.conflict .rule r.name)
      else .ok { d with rules := d.rules.map (RuleRow.replaced r) } := by
  obtain ⟨hrow, hrid⟩ := (tenantRow?_eq_some_iff h).mp hr
  have hthere : ¬∀ row ∈ d.rules, row.id ≠ r.id :=
    fun hnone => hnone row (mem_ruleRows.mp hrow).1 hrid
  have hname : (∃ other ∈ d.rules, other.id ≠ r.id ∧ other.tenant = r.tenant ∧
      other.name = r.name) ↔
      ∃ other ∈ d.ruleRows tenant, other.id ≠ r.id ∧ other.name = r.name := by
    simp only [mem_ruleRows, ht]
    exact exists_congr fun other => by tauto
  rw [replaceRule_eq, if_neg hthere]
  exact if_congr hname rfl rfl

/-- To write a rule of the tenant changes the rows of the tenant only. -/
private theorem ruleRows_replaced (h : d.IsKeyed) {r : Rule} {row : RuleRow}
    (hr : d.tenantRow? tenant r.id = some row) (ht : r.tenant = tenant) (other : TenantId) :
    { d with rules := d.rules.map (RuleRow.replaced r) }.ruleRows other =
      (d.ruleRows other).map (RuleRow.replaced r) := by
  refine ruleRows_map (fun row hm => ?_) other
  unfold RuleRow.replaced
  split
  · next hid => exact ht.trans (tenant_of_tenantRow? h hr hm hid).symm
  · rfl

/-- To write a rule of the tenant is of no concern to the other tenants. -/
private theorem spares_replaced (h : d.IsKeyed) {r : Rule} {row : RuleRow}
    (hr : d.tenantRow? tenant r.id = some row) (ht : r.tenant = tenant) :
    d.Spares tenant { d with rules := d.rules.map (RuleRow.replaced r) } := by
  refine fun other hne => ⟨?_, rfl⟩
  rw [ruleRows_replaced h hr ht]
  refine (List.map_congr_left fun row hm => RuleRow.replaced_of_ne fun hid => hne ?_).trans
    (List.map_id _)
  obtain ⟨hm, hother⟩ := mem_ruleRows.mp hm
  exact hother.symm.trans (tenant_of_tenantRow? h hr hm hid)

/-- To delete a rule of the tenant is of no concern to the other tenants. -/
theorem spares_filter_rules (h : d.IsKeyed) {id : RuleId} {row : RuleRow}
    (hr : d.tenantRow? tenant id = some row) :
    d.Spares tenant { d with rules := d.rules.filter fun row => row.id != id } := by
  refine fun other hne => ⟨?_, rfl⟩
  rw [ruleRows_filter]
  refine List.filter_eq_self.mpr fun row hm => bne_iff_ne.mpr fun hid => hne ?_
  obtain ⟨hm, hother⟩ := mem_ruleRows.mp hm
  exact hother.symm.trans (tenant_of_tenantRow? h hr hm hid)

/-- To append a record of the tenant is of no concern to the other tenants. -/
private theorem spares_appended {r : ExecutionRecord} (ht : r.tenant = tenant) :
    d.Spares tenant { d with executions := d.executions ++ [ExecutionRow.ofRecord r] } := by
  refine fun other hne => ⟨rfl, ?_⟩
  rw [recordRows_append, if_neg (ht ▸ Ne.symm hne), List.append_nil]

namespace Agree

/-- A rule of the tenant that replaces another one is refused for its name alike, and is of no
concern to the other tenants. -/
theorem replaceRule (ha : d.Agree tenant d') (h : d.IsKeyed) (h' : d'.IsKeyed) {r : Rule}
    {row : RuleRow} (hr : d.tenantRow? tenant r.id = some row) (ht : r.tenant = tenant) :
    (d.replaceRule r = .error (.conflict .rule r.name) ∧
      d'.replaceRule r = .error (.conflict .rule r.name)) ∨
    ∃ s s', d.replaceRule r = .ok s ∧ d'.replaceRule r = .ok s' ∧ s.Agree tenant s' ∧
      d.Spares tenant s ∧ d'.Spares tenant s' := by
  have hr' : d'.tenantRow? tenant r.id = some row := (ha.tenantRow?_eq h h' r.id) ▸ hr
  have hname : (∃ other ∈ d'.ruleRows tenant, other.id ≠ r.id ∧ other.name = r.name) ↔
      ∃ other ∈ d.ruleRows tenant, other.id ≠ r.id ∧ other.name = r.name := by
    simp only [ha.rules.mem_iff]
  rw [replaceRule_of_tenantRow? h hr ht, replaceRule_of_tenantRow? h' hr' ht]
  by_cases hc : ∃ other ∈ d.ruleRows tenant, other.id ≠ r.id ∧ other.name = r.name
  · exact .inl ⟨if_pos hc, if_pos (hname.mpr hc)⟩
  · refine .inr ⟨_, _, if_neg hc, if_neg (mt hname.mp hc), ⟨?_, ha.records⟩,
      spares_replaced h hr ht, spares_replaced h' hr' ht⟩
    rw [ruleRows_replaced h hr ht, ruleRows_replaced h' hr' ht]
    exact ha.rules.map _

/-- Databases that agree do so without a rule. -/
theorem filter_rules (ha : d.Agree tenant d') (id : RuleId) :
    { d with rules := d.rules.filter fun row => row.id != id }.Agree tenant
      { d' with rules := d'.rules.filter fun row => row.id != id } := by
  refine ⟨?_, ha.records⟩
  rw [ruleRows_filter, ruleRows_filter]
  exact ha.rules.filter _

/-- A record of the tenant is appended alike, if no record of another tenant has its identifier, and
is of no concern to the other tenants. -/
theorem insertRecord (ha : d.Agree tenant d') {r : ExecutionRecord} (ht : r.tenant = tenant)
    (hf : ∀ row ∈ d.executions, row.id = r.id → row.tenant = tenant)
    (hf' : ∀ row ∈ d'.executions, row.id = r.id → row.tenant = tenant) :
    (d.insertRecord r = .error .storage ∧ d'.insertRecord r = .error .storage) ∨
    ∃ s s', d.insertRecord r = .ok s ∧ d'.insertRecord r = .ok s' ∧ s.Agree tenant s' ∧
      d.Spares tenant s ∧ d'.Spares tenant s' := by
  have hused (x : Database) (hx : ∀ row ∈ x.executions, row.id = r.id → row.tenant = tenant) :
      (∃ row ∈ x.executions, row.id = r.id) ↔ ∃ row ∈ x.recordRows tenant, row.id = r.id := by
    simp only [mem_recordRows]
    exact exists_congr fun row => ⟨fun ⟨hm, hid⟩ => ⟨⟨hm, hx row hm hid⟩, hid⟩,
      fun ⟨hm, hid⟩ => ⟨hm.1, hid⟩⟩
  rw [insertRecord_eq, insertRecord_eq]
  by_cases hc : ∃ row ∈ d.recordRows tenant, row.id = r.id
  · exact .inl ⟨if_pos ((hused d hf).mpr hc), if_pos ((hused d' hf').mpr (ha.records ▸ hc))⟩
  · refine .inr ⟨_, _, if_neg (mt (hused d hf).mp hc),
      if_neg fun hn => hc (ha.records ▸ (hused d' hf').mp hn), ⟨ha.rules, ?_⟩,
      spares_appended ht, spares_appended ht⟩
    rw [recordRows_append, recordRows_append, ha.records]

end Agree

end Database

end RuleEngine
