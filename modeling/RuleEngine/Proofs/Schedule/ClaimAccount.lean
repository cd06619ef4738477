import Mathlib.Data.List.Nodup
import RuleEngine.Proofs.Service.ReadThenWrite
import RuleEngine.Proofs.Store.TickLedger

/-!
# An account of claimed minutes

The scheduler claims minutes for rules, and operations read rules and later write them. An account
of who looked at a rule, claimed a minute for it, or wrote it, in this order, tells which claims
were overwritten: an operation writes the minute that was noted when it looked, so that a minute
claimed in between is no longer noted.

What carries this through the calls is that every claimed minute is noted or was overwritten, and
that what an operation is about to write notes every minute that was claimed before it looked.

## Main definitions

* `Access`, `Overwritten`, `ClaimedAgain`: the account, and what it may show.
* `Traced`: whether an account is that of a store and of the operations that go on.

## Main results

* `Traced.claim`: a minute is claimed again only after an overwritten claim.
* `Traced.manage`: every call of an operation keeps the account.
-/

namespace RuleEngine

/-! ### The account -/

/-- What is done to a rule and its noted minute: an operation, given by its number, looks at the
rule or writes it, and the scheduler claims a minute. -/
inductive Access where
  | looked (operation : Nat) (id : RuleId)
  | claimed (id : RuleId) (tick : Timestamp)
  | wrote (operation : Nat) (id : RuleId)

/-- The minutes that are claimed for a rule. -/
def claimsOf (id : RuleId) (account : List Access) : List Timestamp :=
  account.filterMap fun
    | .claimed other tick => if other = id then some tick else none
    | _ => none

/-- Whether a claim was overwritten by an operation that had looked before it. -/
def Overwritten (account : List Access) (id : RuleId) (t : Timestamp) : Prop :=
  ∃ i, [.looked i id, .claimed id t, .wrote i id].Sublist account

/-- Whether a minute was claimed again after the first claim was overwritten. -/
def ClaimedAgain (account : List Access) (id : RuleId) : Prop :=
  ∃ i t, [.looked i id, .claimed id t, .wrote i id, .claimed id t].Sublist account

variable {account : List Access} {id : RuleId} {t : Timestamp} {x : Access}

theorem mem_claimsOf : t ∈ claimsOf id account ↔ .claimed id t ∈ account := by
  rw [claimsOf, List.mem_filterMap]
  constructor
  · rintro ⟨x, hx, h⟩
    split at h
    · split at h
      · next heq =>
        cases h
        rw [← heq]
        exact hx
      · cases h
    · cases h
  · exact fun h => ⟨_, h, if_pos rfl⟩

theorem claimsOf_append (id : RuleId) (account more : List Access) :
    claimsOf id (account ++ more) = claimsOf id account ++ claimsOf id more :=
  List.filterMap_append

theorem claimsOf_claimed (id other : RuleId) (t : Timestamp) :
    claimsOf id [.claimed other t] = if other = id then [t] else [] := by
  by_cases ho : other = id <;> simp [claimsOf, ho]

theorem Overwritten.append (h : Overwritten account id t) (more : List Access) :
    Overwritten (account ++ more) id t := by
  obtain ⟨i, h⟩ := h
  exact ⟨i, h.trans (List.sublist_append_left _ _)⟩

theorem ClaimedAgain.append (h : ClaimedAgain account id) (more : List Access) :
    ClaimedAgain (account ++ more) id := by
  obtain ⟨i, t, h⟩ := h
  exact ⟨i, t, h.trans (List.sublist_append_left _ _)⟩

/-! ### The noted minutes -/

section Ledger

open TickLedger

variable {σ α : Type} [RuleStore σ] [ExecutionLog σ] [TickLedger σ]
variable {s s' : σ} {i : Nat} {last : Option Timestamp}
  {operations : List (RuleScript α)} {p : RuleScript α}

variable (σ) in
/-- Whether a minute is not behind the noted one, so that it cannot be claimed. -/
def Covers (noted : Option (Mark σ)) (t : Timestamp) : Prop :=
  ∃ m, noted = some m ∧ ¬ IsBehind m (mark t)

variable (σ) in
/-- Whether an operation has read a rule with a given minute: it covers every minute that was
claimed before. -/
structure HasRead (account : List Access) (i : Nat) (id : RuleId) (last : Option Timestamp) :
    Prop where
  looked : .looked i id ∈ account
  covers : ∀ t, .claimed id t ∈ account → Covers σ (last.map mark) t ∨
    Overwritten account id t ∨ [.looked i id, .claimed id t].Sublist account

theorem HasRead.append (h : HasRead σ account i id last) (x : Access) :
    HasRead σ (account ++ [x]) i id last where
  looked := List.mem_append_left _ h.looked
  covers t ht := by
    rcases List.mem_append.mp ht with ht | ht
    · rcases h.covers t ht with hc | hw | hl
      · exact .inl hc
      · exact .inr (.inl (hw.append _))
      · exact .inr (.inr (hl.trans (List.sublist_append_left _ _)))
    · -- the minute is claimed only now
      rw [← List.mem_singleton.mp ht]
      exact .inr (.inr ((List.singleton_sublist.mpr h.looked).append (List.Sublist.refl _)))

variable (σ) in
/-- Whether an operation has still to read, or writes what it has read. -/
def GoesOn (account : List Access) (i : Nat) (p : RuleScript α) : Prop :=
  p.Reads ∨ ∃ id last, p.Writes id last ∧ HasRead σ account i id last

theorem GoesOn.append (h : GoesOn σ account i p) (x : Access) :
    GoesOn σ (account ++ [x]) i p :=
  h.imp_right fun ⟨id, last, hw, hr⟩ => ⟨id, last, hw, hr.append x⟩

theorem GoesOn.of_isDone (h : p.IsDone) : GoesOn σ account i p := by
  obtain ⟨a, rfl⟩ := h
  exact .inl (.done a)

/-- Whether an account is that of a store and of the operations that go on. Every claimed minute is
noted, or was overwritten; what an operation is about to write was read; and no minute was claimed
twice, unless it was overwritten in between. -/
structure Traced (s : σ) (operations : List (RuleScript α)) (account : List Access) : Prop where
  sound : IsSound s
  covered : ∀ id t, .claimed id t ∈ account → Covers σ (noted s id) t ∨ Overwritten account id t
  operation : ∀ i p, operations[i]? = some p → GoesOn σ account i p
  once : ∀ id, (claimsOf id account).Nodup ∨ ClaimedAgain account id

/-! ### Claims -/

/-- A minute that was claimed is claimed a second time only if the first claim was overwritten. -/
theorem Traced.overwritten_of_claim {tick : Timestamp} (h : Traced s operations account)
    (hc : RuleStore.claimTick s id tick = .ok (true, s')) (ht : .claimed id tick ∈ account) :
    Overwritten account id tick := by
  obtain ⟨-, hbehind, -⟩ := noted_claim h.sound hc
  exact (h.covered id tick ht).resolve_left fun ⟨m, hm, hnot⟩ => hnot (hbehind m hm)

/-- The minutes that were claimed for a rule stay distinct, unless a claim was overwritten. -/
theorem Traced.once_of_claim {tick : Timestamp} (h : Traced s operations account)
    (hc : RuleStore.claimTick s id tick = .ok (true, s')) (other : RuleId) :
    (claimsOf other (account ++ [.claimed id tick])).Nodup ∨
      ClaimedAgain (account ++ [.claimed id tick]) other := by
  rcases h.once other with hn | ha
  · rw [claimsOf_append, claimsOf_claimed]
    split
    · next ho =>
      subst ho
      by_cases ht : .claimed id tick ∈ account
      · obtain ⟨i, hw⟩ := h.overwritten_of_claim hc ht
        exact .inr ⟨i, tick, hw.append (List.Sublist.refl [Access.claimed id tick])⟩
      · rw [← mem_claimsOf] at ht
        rw [← List.concat_eq_append]
        exact .inl (hn.concat ht)
    · rw [List.append_nil]
      exact .inl hn
  · exact .inr (ha.append _)

/-- A claim notes its minute, and goes into the account. -/
theorem Traced.claim {tick : Timestamp} (h : Traced s operations account)
    (hc : RuleStore.claimTick s id tick = .ok (true, s')) :
    Traced s' operations (account ++ [.claimed id tick]) := by
  obtain ⟨hsound, hbehind, hnoted⟩ := noted_claim h.sound hc
  refine ⟨hsound, fun other t ht => ?_, fun i p hp => (h.operation i p hp).append _,
    h.once_of_claim hc⟩
  rw [hnoted]
  rcases List.mem_append.mp ht with ht | ht
  · refine (h.covered other t ht).imp (fun hcovers => ?_) (·.append _)
    split
    · next ho =>
      obtain ⟨m, hm, hnot⟩ := hcovers
      rw [ho] at hm
      exact ⟨_, rfl, fun hb => hnot (isBehind_trans (hbehind m hm) hb)⟩
    · exact hcovers
  · cases List.mem_singleton.mp ht
    rw [if_pos rfl]
    exact .inl ⟨_, rfl, not_isBehind_self _⟩

/-- What does not touch the noted minutes keeps the account. -/
theorem Traced.of_noted_eq (h : Traced s operations account) (hs : IsSound s')
    (hn : noted s' = noted s) : Traced s' operations account where
  sound := hs
  covered id t ht := by
    rw [hn]
    exact h.covered id t ht
  operation := h.operation
  once := h.once

/-! ### Operations -/

/-- An operation may start with a script that reads first. -/
theorem Traced.start (h : Traced s operations account) (hp : p.Reads) :
    Traced s (operations ++ [p]) account where
  sound := h.sound
  covered := h.covered
  operation i q hq := by
    rcases Nat.lt_trichotomy i operations.length with hi | rfl | hi
    · rw [List.getElem?_append_left hi] at hq
      exact h.operation i q hq
    · rw [List.getElem?_concat_length] at hq
      cases hq
      exact .inl hp
    · rw [List.getElem?_eq_none (by rw [List.length_append]; exact hi)] at hq
      cases hq
  once := h.once

/-- What an operation accesses by its next call. -/
def accesses (i : Nat) (s : σ) : RuleScript α → List Access
  | .call (.byId id) _ => [.looked i id]
  | .call (.update r) _ => match RuleStore.updateRule s r with
    | .ok _ => [.wrote i r.id]
    | .error _ => []
  | _ => []

omit [TickLedger σ] [ExecutionLog σ] in
theorem claimed_notMem_accesses : .claimed id t ∉ accesses i s p := by
  unfold accesses
  split
  · simp
  · split <;> simp
  · exact List.not_mem_nil

omit [TickLedger σ] [ExecutionLog σ] in
theorem claimsOf_accesses : claimsOf id (accesses i s p) = [] :=
  List.eq_nil_iff_forall_not_mem.mpr fun _ ht => claimed_notMem_accesses (mem_claimsOf.mp ht)

/-- A step of one operation leaves the others as they are. -/
theorem Traced.set (h : Traced s operations account) {p' : RuleScript α}
    (hp : GoesOn σ account i p') :
    Traced s (operations.set i p') account where
  sound := h.sound
  covered := h.covered
  operation j q hq := by
    rw [List.getElem?_set] at hq
    split at hq
    · next hij =>
      split at hq
      · cases hq
        rw [← hij]
        exact hp
      · cases hq
    · exact h.operation j q hq
  once := h.once

theorem Traced.looked (h : Traced s operations account) (i : Nat) (id : RuleId) :
    Traced s operations (account ++ [.looked i id]) := by
  have hnew {other : RuleId} {t : Timestamp}
      (ht : .claimed other t ∈ account ++ [.looked i id]) : .claimed other t ∈ account := by
    simpa using ht
  refine ⟨h.sound, fun other t ht => ?_, fun j q hq => ?_, fun other => ?_⟩
  · exact (h.covered other t (hnew ht)).imp_right (·.append _)
  · exact (h.operation j q hq).append _
  · rw [claimsOf_append]
    simpa [claimsOf] using (h.once other).imp_right (·.append _)

/-- A rule that is written with the minute that was read leaves every claimed minute noted or
overwritten. -/
theorem Traced.wrote {r : Rule} (h : Traced s operations account)
    (hr : HasRead σ account i r.id r.lastTick) (hw : RuleStore.updateRule s r = .ok s') :
    Traced s' operations (account ++ [.wrote i r.id]) := by
  obtain ⟨hsound, hnoted⟩ := noted_update h.sound hw
  have hnew {other : RuleId} {t : Timestamp}
      (ht : .claimed other t ∈ account ++ [.wrote i r.id]) : .claimed other t ∈ account := by
    simpa using ht
  refine ⟨hsound, fun other t ht => ?_, fun j q hq => ?_, fun other => ?_⟩
  · rw [hnoted]
    split
    · next ho =>
      subst ho
      rcases hr.covers t (hnew ht) with hc | ho | hl
      · exact .inl hc
      · exact .inr (ho.append _)
      · exact .inr ⟨i, hl.append (List.Sublist.refl [Access.wrote i r.id])⟩
    · exact (h.covered other t (hnew ht)).imp_right (·.append _)
  · exact (h.operation j q hq).append _
  · rw [claimsOf_append]
    simpa [claimsOf] using (h.once other).imp_right (·.append _)

/-- Every step of an operation keeps the account. -/
theorem Traced.manage (h : Traced s operations account) (hp : operations[i]? = some p) :
    Traced (p.step s).2 (operations.set i (p.step s).1) (account ++ accesses i s p) := by
  rcases h.operation i p hp with hreads | ⟨id, last, hwrites, hread⟩
  · cases hreads with
    | done a =>
      change Traced s (operations.set i (.done a)) (account ++ [])
      rw [List.append_nil]
      exact h.set (.of_isDone ⟨a, rfl⟩)
    | @read id next hsome hnone herror =>
      have hl := h.looked i id
      change Traced s (operations.set i (next (RuleStore.ruleById s id))) _
      cases hanswer : RuleStore.ruleById s id with
      | error e => exact hl.set (.of_isDone (herror e))
      | ok found =>
        cases found with
        | none => exact hl.set (.of_isDone hnone)
        | some r =>
          obtain ⟨rfl, hnoted⟩ := noted_read h.sound hanswer
          refine hl.set (.inr ⟨r.id, r.lastTick, hsome r rfl, ?_, fun t ht => ?_⟩)
          · exact List.mem_append_right _ (List.mem_singleton_self _)
          · rw [← hnoted]
            exact (hl.covered r.id t ht).imp_right .inl
  · cases hwrites with
    | done a =>
      change Traced s (operations.set i (.done a)) (account ++ [])
      rw [List.append_nil]
      exact h.set (.of_isDone ⟨a, rfl⟩)
    | @search tenant name next hnext =>
      change Traced s (operations.set i (next (RuleStore.ruleByName s tenant name))) (account ++ [])
      rw [List.append_nil]
      exact h.set (.inr ⟨id, last, hnext _, hread⟩)
    | @write r next hid hlast hnext =>
      subst hid hlast
      rw [accesses, RuleScript.step, RuleCall.perform]
      cases hw : RuleStore.updateRule s r with
      | error e =>
        rw [List.append_nil]
        exact h.set (.of_isDone (hnext (.error e)))
      | ok s' => exact (h.wrote hread hw).set (.of_isDone (hnext (.ok ())))

end Ledger

end RuleEngine
