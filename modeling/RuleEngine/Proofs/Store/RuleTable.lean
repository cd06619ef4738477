import RuleEngine.Proofs.Store.Status
import RuleEngine.Proofs.Time.Minute

/-!
# Rules in a store

A store that has rules answers which rule has an identifier and which rules are active, and a call
that writes sets the entry under one identifier and leaves the others alone. What is written may be
a rule that cannot be read back: then the entry is there, and no rule is seen in it. To claim a
minute later than the noted one succeeds, and to append a record touches no rule. The store in
memory is one, and every rule of it can be read.

## Main definitions

* `RuleView`: what is seen of the rules of a store that can be read.
* `RuleEntries`: what is read under the identifiers of a store, and what it can keep.
* `RuleEntries.Sets`: the writes that are about the entry under one identifier only.
* `RuleTable`: a store whose calls are answered by what is read from its entries.
-/

namespace RuleEngine

/-- What is seen of the rules of a store that can be read. -/
class RuleView (σ : Type) where
  /-- Whether calls of the store are answered. -/
  IsSound : σ → Prop
  /-- The rule under an identifier. -/
  rule? : σ → RuleId → Option Rule

/-- What is read under the identifiers of a store, and what it can keep. -/
class RuleEntries (σ : Type) where
  /-- Whether calls of the store are answered as its entries say. -/
  IsSound : σ → Prop
  /-- The entry under an identifier, and the rule in it if it can be read. -/
  stored? : σ → RuleId → Option (Option Rule)
  /-- Whether a rule can be written down. -/
  IsWritable : Rule → Prop
  /-- Whether the definition of a rule can be read back. -/
  Fits : Rule → Prop
  /-- Whether an instant can be read back. -/
  FitsTime : Timestamp → Prop
  /-- Whether records can be appended under identifiers, one after the other. -/
  Accepts : σ → List ExecutionId → Prop

namespace RuleEntries

variable {σ : Type} [RuleEntries σ] {s s' : σ} {id : RuleId} {entry : Option (Option Rule)}

/-- The rule that is read under an identifier. -/
def rule? (s : σ) (id : RuleId) : Option Rule := (stored? s id).join

theorem rule?_eq_some_iff {r : Rule} : rule? s id = some r ↔ stored? s id = some (some r) :=
  Option.join_eq_some_iff

/-- Whether every entry can be read. -/
def IsReadable (s : σ) : Prop := ∀ id, stored? s id ≠ some none

/-- Whether a store becomes one with a given entry, or none, under an identifier, and is the same
under the others. -/
structure Sets (s : σ) (id : RuleId) (entry : Option (Option Rule)) (s' : σ) : Prop where
  sound : IsSound s'
  entry_eq : stored? s' id = entry
  entry_ne : ∀ other, other ≠ id → stored? s' other = stored? s other
  accepts : ∀ ids, Accepts s ids → Accepts s' ids

theorem Sets.rule_eq (h : Sets s id entry s') : rule? s' id = entry.join :=
  congrArg Option.join h.entry_eq

theorem Sets.rule_ne (h : Sets s id entry s') {other : RuleId} (ho : other ≠ id) :
    rule? s' other = rule? s other :=
  congrArg Option.join (h.entry_ne other ho)

/-- A store that can be read stays so if the entry that is set can be read. -/
theorem Sets.isReadable (h : Sets s id entry s') (hs : IsReadable s) (he : entry ≠ some none) :
    IsReadable s' := by
  intro other
  by_cases ho : other = id
  · rw [ho, h.entry_eq]
    exact he
  · rw [h.entry_ne other ho]
    exact hs other

end RuleEntries

open RuleEntries

/-- A store whose calls about rules are answered by what is read from its entries. -/
class RuleTable (σ : Type) [RuleStore σ] [ExecutionLog σ] extends RuleEntries σ where
  /-- The minutes of clock readings can be read back. -/
  fitsTime_floorMinute {t : Timestamp} (h : t.IsReading) : FitsTime t.floorMinute
  /-- Whether a rule can be written down hangs on its trigger and its actions only. -/
  isWritable_congr {r r' : Rule} (h : IsWritable r) (ht : r'.trigger = r.trigger)
    (ha : r'.actions = r.actions) : IsWritable r'
  /-- Whether the definition of a rule can be read back hangs on its trigger, its conditions and
  its actions only. -/
  fits_congr {r r' : Rule} (h : Fits r) (ht : r'.trigger = r.trigger)
    (hc : r'.conditions = r.conditions) (ha : r'.actions = r.actions) : Fits r'
  /-- A rule that is read from a store can be written down and read back again. -/
  fits_stored {s : σ} {id : RuleId} {r : Rule} (h : IsSound s) (hr : rule? s id = some r) :
    IsWritable r ∧ Fits r
  /-- A rule is kept under its identifier. -/
  id_eq {s : σ} {id : RuleId} {r : Rule} (h : IsSound s) (hr : rule? s id = some r) : r.id = id
  /-- The question for an identifier is answered with the rule that is read. -/
  ruleById_eq_some_iff {s : σ} {id : RuleId} {r : Rule} (h : IsSound s) :
    RuleStore.ruleById s id = .ok (some r) ↔ rule? s id = some r
  /-- The question for active rules is answered with each of them once, or the storage is at fault
  since one of them cannot be read. -/
  activeRules_cases {s : σ} (h : IsSound s) (kind : TriggerKind) :
    (∃ rules, RuleStore.activeRules s none kind = .ok rules ∧ (rules.map Rule.id).Nodup ∧
      ∀ r, r ∈ rules ↔ rule? s r.id = some r ∧ r.active ∧ r.trigger.kind = kind) ∨
    RuleStore.activeRules s none kind = .error .storage ∧ ¬IsReadable s
  /-- A minute later than the noted one can be claimed. -/
  exists_claim {s : σ} {id : RuleId} {r : Rule} {tick : Timestamp} (h : IsSound s)
    (hr : rule? s id = some r) (hf : FitsTime tick) (hm : tick.IsMinute)
    (hl : ∀ last, r.lastTick = some last → last.before tick) :
    ∃ s', RuleStore.claimTick s id tick = .ok (true, s') ∧
      Sets s id (some (some { r with lastTick := some tick })) s'
  /-- A record can be appended, and rules stay as they are. -/
  exists_append {s : σ} (record : ExecutionRecord) (h : IsSound s)
    (ha : Accepts s [record.id]) :
    ∃ s', ExecutionLog.appendRecord s record = .ok s' ∧ IsSound s' ∧
      (∀ id, stored? s' id = stored? s id) ∧ ∀ ids, Accepts s (record.id :: ids) → Accepts s' ids
  /-- Fewer records can be appended if more can. -/
  accepts_sublist {s : σ} {ids fewer : List ExecutionId} (h : Accepts s ids)
    (hs : fewer.Sublist ids) : Accepts s fewer
  /-- A rule that is created is kept without a noted minute, and can be read if it fits. -/
  sets_create {s s' : σ} {r : Rule} (h : IsSound s) (hr : IsWritable r) (hl : r.lastTick = none)
    (hw : RuleStore.createRule s r = .ok s') :
    ∃ kept : Option Rule, Sets s r.id (some kept) s' ∧ (∀ k ∈ kept, k.lastTick = none) ∧
      (Fits r → FitsTime r.createdAt → FitsTime r.updatedAt → kept ≠ none)
  /-- A rule that replaces another one is kept with its noted minute, and can be read if it
  fits. -/
  sets_update {s s' : σ} {r stored : Rule} (h : IsSound s) (hs : rule? s r.id = some stored)
    (hr : IsWritable r) (hc : r.createdAt = stored.createdAt) (hl : r.lastTick = stored.lastTick)
    (hw : RuleStore.updateRule s r = .ok s') :
    ∃ kept : Option Rule, Sets s r.id (some kept) s' ∧
      (∀ k ∈ kept, k.lastTick = stored.lastTick) ∧
      (Fits r → FitsTime r.updatedAt → kept ≠ none)
  /-- A deleted rule is gone. -/
  sets_delete {s s' : σ} {id : RuleId} (h : IsSound s) (hw : RuleStore.deleteRule s id = .ok s') :
    Sets s id none s'

/-- A minute is later than the noted one if the noted one is not at it or after it. -/
theorem any_notAfter_eq_false_iff {noted : Option Timestamp} {tick : Timestamp} :
    noted.any tick.notAfter = false ↔ ∀ last, noted = some last → last.before tick := by
  cases noted with
  | none => simp
  | some last => simp [Timestamp.notAfter]

/-- A demand for a value is met by this value only, and an open one by every value. -/
theorem ExecutionQuery.demand_eq_true_iff {α : Type} [BEq α] [LawfulBEq α] {d : Option α} {b : α} :
    demand d (· == b) = true ↔ ∀ a ∈ d, a = b := by
  cases d <;> simp [demand]

/-! ### In memory -/

namespace MemoryStore

variable {s : MemoryStore} {r : Rule} {id : RuleId}

theorem mem_map_put {α κ : Type} [DecidableEq κ] {key : α → κ} {a : α} {l : List α} {k : κ} :
    k ∈ (put key a l).map key ↔ k = key a ∨ k ∈ l.map key := by
  induction l with
  | nil => simp [put]
  | cons b rest ih =>
    rw [put]
    by_cases hb : key b = key a
    · rw [if_pos hb, List.map_cons, List.map_cons, List.mem_cons, List.mem_cons, hb]
      tauto
    · rw [if_neg hb, List.map_cons, List.map_cons, List.mem_cons, List.mem_cons, ih]
      tauto

theorem nodup_map_put {α κ : Type} [DecidableEq κ] {key : α → κ} (a : α) {l : List α}
    (h : (l.map key).Nodup) : ((put key a l).map key).Nodup := by
  induction l with
  | nil => simp [put]
  | cons b rest ih =>
    obtain ⟨hb, hrest⟩ := List.nodup_cons.mp h
    rw [put]
    by_cases he : key b = key a
    · rw [if_pos he, List.map_cons, List.nodup_cons, ← he]
      exact ⟨hb, hrest⟩
    · rw [if_neg he, List.map_cons, List.nodup_cons, mem_map_put]
      exact ⟨not_or.mpr ⟨he, hb⟩, ih hrest⟩

instance : RuleView MemoryStore where
  IsSound s := (s.rules.map Rule.id).Nodup
  rule? := findRule

instance : RuleEntries MemoryStore where
  IsSound s := (s.rules.map Rule.id).Nodup
  stored? s id := (s.findRule id).map some
  IsWritable _ := True
  Fits _ := True
  FitsTime _ := True
  Accepts _ _ := True

@[simp] theorem rule?_eq_findRule (s : MemoryStore) (id : RuleId) :
    RuleEntries.rule? s id = s.findRule id := by
  rw [RuleEntries.rule?, RuleEntries.stored?]
  change ((s.findRule id).map some).join = _
  cases s.findRule id <;> rfl

/-- To write a rule sets it. -/
theorem sets_putRule (h : IsSound s) (r : Rule) : Sets s r.id (some (some r)) (s.putRule r) where
  sound := nodup_map_put r h
  entry_eq := by
    change ((s.putRule r).findRule r.id).map some = some (some r)
    rw [findRule, putRule, find?_put, if_pos rfl]
    rfl
  entry_ne other hne := by
    change ((s.putRule r).findRule other).map some = (s.findRule other).map some
    rw [findRule, putRule, find?_put, if_neg hne]
    rfl
  accepts _ _ := trivial

/-- To remove a rule leaves none. -/
theorem sets_filter (h : IsSound s) (id : RuleId) :
    Sets s id none { s with rules := s.rules.filter fun r => r.id ≠ id } where
  sound := (List.filter_sublist.map Rule.id).nodup h
  entry_eq := by
    have hnone : (s.rules.filter fun r => r.id ≠ id).find? (fun r => r.id = id) = none := by
      rw [List.find?_filter, List.find?_eq_none]
      intro r _
      simp
    exact congrArg (Option.map some) hnone
  entry_ne other hne := by
    refine congrArg (Option.map some) ?_
    change (s.rules.filter _).find? _ = s.rules.find? _
    rw [List.find?_filter]
    congr 1
    funext r
    by_cases hr : r.id = other
    · simp [hr, hne]
    · simp [hr]
  accepts _ _ := trivial

theorem claim_of_before {tick : Timestamp} (hr : s.findRule id = some r)
    (hl : ∀ last, r.lastTick = some last → last.before tick) :
    s.claim id tick = (true, s.putRule { r with lastTick := some tick }) := by
  have hd := any_notAfter_eq_false_iff.mpr hl
  unfold claim
  rw [hr]
  simp only [hd, Bool.false_eq_true, if_false]

theorem id_eq_of_findRule (h : s.findRule id = some r) : r.id = id := by
  simpa using List.find?_some h

/-- The active rules of a kind are listed once, those of one tenant or of all. -/
theorem exists_activeRules (h : RuleView.IsSound s) (tenant : Option TenantId)
    (kind : TriggerKind) :
    ∃ rules, RuleStore.activeRules s tenant kind = .ok rules ∧ (rules.map Rule.id).Nodup ∧
      ∀ r, r ∈ rules ↔ RuleView.rule? s r.id = some r ∧ r.active ∧ r.trigger.kind = kind ∧
        ∀ t ∈ tenant, r.tenant = t := by
  refine ⟨_, rfl, ?_, fun r => ?_⟩
  · refine ((List.mergeSort_perm _ _).map Rule.id).nodup_iff.mpr ?_
    exact (List.filter_sublist.map Rule.id).nodup h
  · have hf : s.findRule r.id = some r ↔ r ∈ s.rules ∧ r.id = r.id := find?_key_eq_some_iff h
    change _ ↔ s.findRule r.id = some r ∧ _
    rw [List.mem_mergeSort, List.mem_filter, hf, Bool.and_eq_true, Bool.and_eq_true,
      ExecutionQuery.demand_eq_true_iff, beq_iff_eq, and_assoc, and_iff_left rfl]
    simp only [eq_comm]

instance : RuleTable MemoryStore where
  fitsTime_floorMinute _ := trivial
  isWritable_congr _ _ _ := trivial
  fits_congr _ _ _ _ := trivial
  fits_stored _ _ := ⟨trivial, trivial⟩
  id_eq {s id r} _ hr := id_eq_of_findRule ((rule?_eq_findRule s id).symm.trans hr)
  ruleById_eq_some_iff {s id r} _ := by
    rw [rule?_eq_findRule]
    change Except.ok (s.findRule id) = .ok (some r) ↔ _
    rw [Except.ok.injEq]
  activeRules_cases {s} h kind := by
    obtain ⟨rules, hrules, hnodup, hmem⟩ := exists_activeRules (s := s) h none kind
    refine .inl ⟨rules, hrules, hnodup, fun r => ?_⟩
    rw [rule?_eq_findRule, hmem]
    change s.findRule r.id = some r ∧ _ ↔ _
    simp
  exists_claim {s id r tick} h hr _ _ hl := by
    rw [rule?_eq_findRule] at hr
    obtain rfl : r.id = id := id_eq_of_findRule hr
    refine ⟨_, ?_, sets_putRule h { r with lastTick := some tick }⟩
    change Except.ok (s.claim r.id tick) = _
    rw [claim_of_before hr hl]
  exists_append record h _ := ⟨_, rfl, h, fun _ => rfl, fun _ _ => trivial⟩
  accepts_sublist _ _ := trivial
  sets_create {s s' r} h _ hl hw := by
    cases hw
    exact ⟨some r, sets_putRule h r, fun k hk => Option.some.inj hk ▸ hl, fun _ _ _ => Option.some_ne_none r⟩
  sets_update {s s' r stored} h _ _ _ hl hw := by
    cases hw
    exact ⟨some r, sets_putRule h r, fun k hk => Option.some.inj hk ▸ hl, fun _ _ => Option.some_ne_none r⟩
  sets_delete {s s' id} h hw := by
    cases hw
    exact sets_filter h id

end MemoryStore

end RuleEngine
