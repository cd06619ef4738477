import RuleEngine.Proofs.Service.Effect
import RuleEngine.Proofs.Tenant.Part
import RuleEngine.Service.Request

/-!
# Requests of a tenant

A tenant sees and changes its own part of a database only. What it asks is answered alike by
databases that agree on its part, and whatever it does leaves the parts of the other tenants as they
are. A rule or a record of another tenant is not found, as if nothing had its identifier. The one
exception is a row of another tenant that cannot be read: who asks for its identifier is told that
the storage is at fault.

## Main definitions

* `Database.Twin`: something was done alike in two databases.
* `Request.Subject`, `Request.Concerns`: what a request of a tenant is about.
* `Engine.ActsAlike`: engines came to the same, as far as a tenant can tell.

## Main results

* `Engine.actsAlike_answer`: a request is answered alike, if nothing is hidden under its identifier.
* `Engine.answer_of_isHidden`, `Engine.answer_of_isMissing`: what a tenant is told otherwise.
-/

namespace RuleEngine

namespace ExecutionRow

variable {row : ExecutionRow}

theorem tenant_of_read {r : ExecutionRecord} (h : row.read = .ok r) : r.tenant = row.tenant := by
  unfold read at h
  simp only [bind, Except.bind] at h
  repeat' split at h
  all_goals cases h
  rfl

/-- A row that cannot be read is a fault of the storage. -/
theorem failsAsStorage_read (row : ExecutionRow) : FailsAsStorage row.read :=
  (Column.failsAsStorage_tag _ _).bind fun _ =>
    (Column.failsAsStorage_structured _ _).bind fun _ =>
      (Column.failsAsStorage_tag _ _).bind fun _ =>
        (Column.failsAsStorage_structured _ _).bind fun _ =>
          (Column.failsAsStorage_structured _ _).bind fun _ =>
            (Column.failsAsStorage_optionalInstant _).bind fun _ =>
              (Column.failsAsStorage_instant _).bind fun _ =>
                (Column.failsAsStorage_optionalInstant _).bind fun _ => .pure _

end ExecutionRow

namespace Database

variable {tenant : TenantId} {d d' : Database}

/-! ### Doing alike -/

/-- Whether what was done in two databases has the same result, leaves databases that agree on the
part of a tenant, and is of no concern to the other tenants. -/
structure Twin {ρ : Type} (tenant : TenantId) (d d' : Database) (x x' : ρ × Database) : Prop where
  result : x.1 = x'.1
  agree : x.2.Agree tenant x'.2
  spares : d.Spares tenant x.2
  spares' : d'.Spares tenant x'.2

theorem Agree.twin {ρ : Type} (ha : d.Agree tenant d') {a a' : ρ} (h : a = a') :
    Twin tenant d d' (a, d) (a', d') :=
  ⟨h, ha, .refl tenant d, .refl tenant d'⟩

/-- An operation in two parts is done alike, if the first part looks alike and the second one is
done alike. -/
theorem Twin.bind {α β : Type} {o : RuleOperation α} {f : α → RuleOperation β}
    (ha : d.Agree tenant d') (ho : (o.perform d).2 = d) (ho' : (o.perform d').2 = d')
    (hr : (o.perform d).1 = (o.perform d').1)
    (hf : ∀ a, (o.perform d).1 = .ok a → Twin tenant d d' ((f a).perform d) ((f a).perform d')) :
    Twin tenant d d' ((o >>= f).perform d) ((o >>= f).perform d') := by
  rw [RuleOperation.perform_bind, RuleOperation.perform_bind]
  rcases hx : o.perform d with ⟨result, s⟩
  rcases hx' : o.perform d' with ⟨result', s'⟩
  rw [hx] at ho hr hf
  rw [hx'] at ho' hr
  obtain rfl : s = d := ho
  obtain rfl : s' = d' := ho'
  obtain rfl : result = result' := hr
  cases result with
  | error e => exact ha.twin rfl
  | ok a => exact hf a rfl

/-! ### Looking for a rule of the tenant -/

/-- A tenant gets its own rule, and none of another tenant. -/
theorem perform_get_of_not_hidesRule (h : d.IsKeyed) {id : RuleId} (hn : ¬d.HidesRule tenant id) :
    (RuleService.get tenant id).perform d = (match d.tenantRow? tenant id with
      | some row => row.read
      | none => .error (.notFound .rule id), d) := by
  rw [RuleService.perform_get]
  have hfind : RuleStore.ruleById d id = (d.row? id).mapM RuleRow.read := h.answer_eq _
  rw [hfind, tenantRow?]
  cases hrow : d.row? id with
  | none => rfl
  | some row =>
    obtain ⟨hm, hid⟩ := h.row?_eq_some_iff.mp hrow
    rw [Option.mapM_some, Option.filter_some]
    by_cases ht : row.tenant = tenant
    · rw [if_pos (beq_iff_eq.mpr ht)]
      dsimp only
      cases hread : row.read with
      | error e => rfl
      | ok r =>
        have hrt : r.tenant = tenant := (RuleRow.read_eq_ok_iff.mp hread).tenant.trans ht
        exact congrArg (·, d) (if_pos hrt)
    · rw [if_neg (by simpa using ht)]
      cases hread : row.read with
      | error e => exact absurd ⟨row, hm, hid, ht, fun r hr => by simp [hread] at hr⟩ hn
      | ok r =>
        have hrt : r.tenant ≠ tenant := (RuleRow.read_eq_ok_iff.mp hread).tenant ▸ ht
        exact congrArg (·, d) (if_neg hrt)

/-- An unreadable row of another tenant is a fault of the storage. -/
theorem perform_get_of_hidesRule (h : d.IsKeyed) {id : RuleId} (hn : d.HidesRule tenant id) :
    (RuleService.get tenant id).perform d = (.error .storage, d) := by
  obtain ⟨row, hm, hid, -, hread⟩ := hn
  rw [RuleService.perform_get]
  have hfind : RuleStore.ruleById d id = (d.row? id).mapM RuleRow.read := h.answer_eq _
  rw [hfind, h.row?_eq_some_iff.mpr ⟨hm, hid⟩, Option.mapM_some]
  cases hr : row.read with
  | ok r => exact absurd hr (hread r)
  | error e =>
    obtain rfl := row.failsAsStorage_read e hr
    rfl

/-! ### Operations of the tenant -/

namespace Agree

open RuleService

variable {id : RuleId} (ha : d.Agree tenant d') (h : d.IsKeyed) (h' : d'.IsKeyed)

include ha h h'

/-- An operation that starts by looking for a rule of the tenant is done alike, if what follows is
done alike with a rule of the tenant. -/
theorem twin_get_bind {β : Type} {f : Rule → RuleOperation β} (hn : ¬d.HidesRule tenant id)
    (hn' : ¬d'.HidesRule tenant id)
    (hf : ∀ row r, d.tenantRow? tenant id = some row → row.read = .ok r →
      Twin tenant d d' ((f r).perform d) ((f r).perform d')) :
    Twin tenant d d' ((get tenant id >>= f).perform d) ((get tenant id >>= f).perform d') := by
  have hget := perform_get_of_not_hidesRule h hn
  have hget' := perform_get_of_not_hidesRule h' hn'
  rw [← ha.tenantRow?_eq h h'] at hget'
  refine Twin.bind ha (by rw [hget]) (by rw [hget']) (by rw [hget, hget']) fun r hr => ?_
  rw [hget] at hr
  cases hrow : d.tenantRow? tenant id with
  | none => simp [hrow] at hr
  | some row => exact hf row r hrow (by simpa only [hrow] using hr)

/-- A rule of the tenant is looked for alike. -/
theorem twin_get (hn : ¬d.HidesRule tenant id) (hn' : ¬d'.HidesRule tenant id) :
    Twin tenant d d' ((get tenant id).perform d) ((get tenant id).perform d') := by
  rw [perform_get_of_not_hidesRule h hn, perform_get_of_not_hidesRule h' hn',
    ha.tenantRow?_eq h h']
  exact ha.twin rfl

/-- A rule of the tenant is written alike. -/
theorem twin_write {r : Rule} {row : RuleRow} (hrow : d.tenantRow? tenant r.id = some row)
    (ht : r.tenant = tenant) :
    Twin tenant d d' ((RuleOperation.ask (.update r) >>= fun _ => pure r).perform d)
      ((RuleOperation.ask (.update r) >>= fun _ => pure r).perform d') := by
  have hw (x : Database) (hx : x.IsKeyed) : RuleStore.updateRule x r = x.replaceRule r :=
    hx.answer_eq _
  rw [RuleOperation.perform_bind, RuleOperation.perform_bind, RuleOperation.perform_ask,
    RuleOperation.perform_ask, RuleCall.perform, RuleCall.perform, hw d h, hw d' h']
  rcases ha.replaceRule h h' hrow ht with ⟨he, he'⟩ | ⟨s, s', hs, hs', hagree, hspares, hspares'⟩
  · rw [he, he']
    exact ha.twin rfl
  · rw [hs, hs']
    exact ⟨rfl, hagree, hspares, hspares'⟩

theorem twin_ensureNameFree_bind {β : Type} {f : Unit → RuleOperation β} {r : Rule}
    (ht : r.tenant = tenant)
    (hf : Twin tenant d d' ((f ()).perform d) ((f ()).perform d')) :
    Twin tenant d d' ((ensureNameFree r >>= f).perform d)
      ((ensureNameFree r >>= f).perform d') := by
  refine Twin.bind ha (perform_ensureNameFree d r) (perform_ensureNameFree d' r) ?_ fun _ _ => hf
  have hname :
      RuleStore.ruleByName d r.tenant r.name = RuleStore.ruleByName d' r.tenant r.name := by
    rw [ht]
    exact ha.ruleByName_eq h h' r.name
  rw [ensureNameFree, RuleOperation.perform_bind, RuleOperation.perform_bind,
    RuleOperation.perform_ask, RuleOperation.perform_ask, RuleCall.perform, RuleCall.perform, hname]
  rcases RuleStore.ruleByName d' r.tenant r.name with e | _ | other
  · rfl
  · rfl
  · simp only
    split <;> rfl

/-- A definition of the tenant replaces its rule alike. -/
theorem twin_update {r : Rule} (ht : r.tenant = tenant) (hn : ¬d.HidesRule tenant r.id)
    (hn' : ¬d'.HidesRule tenant r.id) (now : Timestamp) :
    Twin tenant d d' ((update r now).perform d) ((update r now).perform d') := by
  have hu : update r now = check r >>= fun _ => get r.tenant r.id >>= fun stored =>
      if stored.name ≠ r.name then ensureNameFree r >>= fun _ =>
        RuleOperation.ask (.update (revised r stored now)) >>= fun _ => pure (revised r stored now)
      else RuleOperation.ask (.update (revised r stored now)) >>= fun _ =>
        pure (revised r stored now) := rfl
  rw [hu]
  refine Twin.bind ha (congrArg Prod.snd (perform_check d r))
    (congrArg Prod.snd (perform_check d' r)) (by rw [perform_check, perform_check]) fun _ _ => ?_
  rw [ht]
  refine ha.twin_get_bind h h' hn hn' fun row stored hrow _ => ?_
  have hwrite := ha.twin_write (r := revised r stored now) h h' hrow ht
  split
  · exact ha.twin_ensureNameFree_bind h h' ht hwrite
  · exact hwrite

/-- A rule of the tenant is switched alike. -/
theorem twin_setActive (hn : ¬d.HidesRule tenant id) (hn' : ¬d'.HidesRule tenant id)
    (active : Bool) (now : Timestamp) :
    Twin tenant d d' ((setActive tenant id active now).perform d)
      ((setActive tenant id active now).perform d') := by
  have hu : setActive tenant id active now = get tenant id >>= fun stored =>
      if stored.active = active then pure stored
      else RuleOperation.ask (.update { stored with active, updatedAt := now }) >>= fun _ =>
        pure { stored with active, updatedAt := now } := rfl
  rw [hu]
  refine ha.twin_get_bind h h' hn hn' fun row stored hrow hread => ?_
  split
  · exact ha.twin rfl
  · obtain ⟨hm, hid⟩ := (tenantRow?_eq_some_iff h).mp hrow
    have hreads := RuleRow.read_eq_ok_iff.mp hread
    exact ha.twin_write (r := { stored with active, updatedAt := now }) h h'
      ((hreads.id.trans hid).symm ▸ hrow) (hreads.tenant.trans (mem_ruleRows.mp hm).2)

/-- A rule of the tenant is deleted alike. -/
theorem twin_delete (hn : ¬d.HidesRule tenant id) (hn' : ¬d'.HidesRule tenant id) :
    Twin tenant d d' ((delete tenant id).perform d) ((delete tenant id).perform d') := by
  refine ha.twin_get_bind h h' hn hn' fun row stored hrow _ => ?_
  have hrow' : d'.tenantRow? tenant id = some row := ha.tenantRow?_eq h h' id ▸ hrow
  have hw (x : Database) (hx : x.IsKeyed) : RuleStore.deleteRule x id =
      .ok { x with rules := x.rules.filter fun row => row.id != id } := hx.answer_eq _
  rw [RuleOperation.perform_ask, RuleOperation.perform_ask, RuleCall.perform, RuleCall.perform,
    hw d h, hw d' h']
  exact ⟨rfl, ha.filter_rules id, spares_filter_rules h hrow, spares_filter_rules h' hrow'⟩

end Agree

/-! ### Looking for a record of the tenant -/

/-- The row of a record of a tenant. -/
def tenantRecord? (d : Database) (tenant : TenantId) (id : ExecutionId) : Option ExecutionRow :=
  (d.recordRows tenant).find? fun row => row.id == id

/-- The row under an identifier is that of the tenant's record, unless it is of another tenant. -/
theorem tenantRecord?_eq (h : d.IsKeyed) (id : ExecutionId) :
    d.tenantRecord? tenant id = (d.executionRow? id).filter fun row => row.tenant == tenant := by
  ext row
  have hpart : ((d.recordRows tenant).map ExecutionRow.id).Nodup :=
    (List.filter_sublist.map _).nodup h.records
  have hfound : d.tenantRecord? tenant id = some row ↔ row ∈ d.recordRows tenant ∧ row.id = id :=
    find?_key_eq_some_iff hpart
  rw [hfound, mem_recordRows, Option.filter_eq_some_iff, h.executionRow?_eq_some_iff, beq_iff_eq]
  tauto

/-- A tenant gets its own record, and none of another tenant. -/
theorem getExecution_of_not_hidesRecord (h : d.IsKeyed) {id : ExecutionId}
    (hn : ¬d.HidesRecord tenant id) : ExecutionService.get d tenant id =
      match d.tenantRecord? tenant id with
      | some row => row.read
      | none => .error (.notFound .execution id) := by
  have hfind : ExecutionLog.recordById d id = (d.executionRow? id).mapM ExecutionRow.read :=
    h.answer_eq _
  rw [ExecutionService.get, hfind, tenantRecord?_eq h]
  cases hrow : d.executionRow? id with
  | none => rfl
  | some row =>
    obtain ⟨hm, hid⟩ := h.executionRow?_eq_some_iff.mp hrow
    rw [Option.mapM_some, Option.filter_some]
    by_cases ht : row.tenant = tenant
    · rw [if_pos (beq_iff_eq.mpr ht)]
      dsimp only
      cases hread : row.read with
      | error e => rfl
      | ok r => exact if_pos ((ExecutionRow.tenant_of_read hread).trans ht)
    · rw [if_neg (by simpa using ht)]
      cases hread : row.read with
      | error e => exact absurd ⟨row, hm, hid, ht, fun r hr => by simp [hread] at hr⟩ hn
      | ok r => exact if_neg (ExecutionRow.tenant_of_read hread ▸ ht)

/-- An unreadable row of another tenant is a fault of the storage. -/
theorem getExecution_of_hidesRecord (h : d.IsKeyed) {id : ExecutionId}
    (hn : d.HidesRecord tenant id) : ExecutionService.get d tenant id = .error .storage := by
  obtain ⟨row, hm, hid, -, hread⟩ := hn
  have hfind : ExecutionLog.recordById d id = (d.executionRow? id).mapM ExecutionRow.read :=
    h.answer_eq _
  rw [ExecutionService.get, hfind, h.executionRow?_eq_some_iff.mpr ⟨hm, hid⟩, Option.mapM_some]
  cases hr : row.read with
  | ok r => exact absurd hr (hread r)
  | error e =>
    obtain rfl := row.failsAsStorage_read e hr
    rfl

end Database

/-! ### Requests -/

namespace Request

/-- What a request of a tenant is about: a rule, a record, or whatever the tenant has. -/
inductive Subject where
  | rule (id : RuleId)
  | record (id : ExecutionId)
  | all

/-- What a request is about, if it is one of a tenant about the rules or records that it has. -/
def subject (tenant : TenantId) : Request → Option Subject
  | .updateRule r => if r.tenant = tenant then some (.rule r.id) else none
  | .getRule t id | .setActive t id _ | .deleteRule t id =>
    if t = tenant then some (.rule id) else none
  | .getExecution t id => if t = tenant then some (.record id) else none
  | .listRules t | .listExecutions t _ => if t = tenant then some .all else none
  | _ => none

namespace Subject

/-- Whether an unreadable row of another tenant stands under the identifier. -/
def IsHidden (tenant : TenantId) (d : Database) : Subject → Prop
  | rule id => d.HidesRule tenant id
  | record id => d.HidesRecord tenant id
  | all => False

/-- Whether the tenant has nothing under the identifier. -/
def IsMissing (tenant : TenantId) (d : Database) : Subject → Prop
  | rule id => ∀ row ∈ d.ruleRows tenant, row.id ≠ id
  | record id => ∀ row ∈ d.recordRows tenant, row.id ≠ id
  | all => False

/-- The error for an identifier that nothing has. -/
def notFound : Subject → Option EngineError
  | rule id => some (.notFound .rule id)
  | record id => some (.notFound .execution id)
  | all => none

end Subject

/-- The requests of a tenant, each with what it is about. -/
inductive Concerns (tenant : TenantId) : Request → Subject → Prop
  | updateRule (r : Rule) (h : r.tenant = tenant) : Concerns tenant (.updateRule r) (.rule r.id)
  | getRule (id : RuleId) : Concerns tenant (.getRule tenant id) (.rule id)
  | listRules : Concerns tenant (.listRules tenant) .all
  | setActive (id : RuleId) (active : Bool) :
      Concerns tenant (.setActive tenant id active) (.rule id)
  | deleteRule (id : RuleId) : Concerns tenant (.deleteRule tenant id) (.rule id)
  | getExecution (id : ExecutionId) : Concerns tenant (.getExecution tenant id) (.record id)
  | listExecutions (q : ExecutionQuery) : Concerns tenant (.listExecutions tenant q) .all

theorem concerns_of_subject {tenant : TenantId} {request : Request} {subject : Subject}
    (h : request.subject tenant = some subject) : Concerns tenant request subject := by
  cases request
  all_goals simp only [Request.subject, Option.ite_none_right_eq_some, Option.some.injEq,
    reduceCtorEq] at h
  all_goals obtain ⟨rfl, rfl⟩ := h
  all_goals constructor
  rfl

/-- Whether a request comes with a faulty definition. -/
def fault? : Request → Option DefinitionFault
  | .updateRule r => match r.validate with
    | .ok () => none
    | .error fault => some fault
  | _ => none

end Request

namespace Engine

open Database Request

variable {tenant : TenantId} {d d' : Database} {subject : Subject} {request : Request}

/-- Whether two engines came to the same result, and are then the same but for their databases,
which agree on the part of a tenant. The other tenants have what they had. -/
structure ActsAlike {ρ : Type} (tenant : TenantId) (d d' : Database)
    (x x' : ρ × Engine Database) : Prop where
  result : x.1 = x'.1
  engine : x'.2 = { x.2 with store := x'.2.store }
  agree : x.2.store.Agree tenant x'.2.store
  spares : d.Spares tenant x.2.store
  spares' : d'.Spares tenant x'.2.store

/-- What an engine answers is told by what was done in its database. -/
theorem ActsAlike.of_twin {ρ κ : Type} {x x' : ρ × Database} (h : Twin tenant d d' x x')
    (f : ρ → κ) (e : Engine Database) : ActsAlike tenant d d' (f x.1, { e with store := x.2 })
      (f x'.1, { e with store := x'.2 }) :=
  ⟨congrArg f h.result, rfl, h.agree, h.spares, h.spares'⟩

/-- A request of a tenant is answered alike by databases that agree on its part, if nothing is
hidden under the identifier that it is about. -/
theorem actsAlike_answer (ha : d.Agree tenant d') (h : d.IsKeyed) (h' : d'.IsKeyed)
    (hs : request.subject tenant = some subject) (hn : ¬subject.IsHidden tenant d)
    (hn' : ¬subject.IsHidden tenant d') (e : Engine Database) (now : Timestamp) :
    ActsAlike tenant d d' (({ e with store := d } : Engine Database).answer now request)
      (({ e with store := d' } : Engine Database).answer now request) := by
  have hlook {ρ : Type} {a a' : ρ} (hr : a = a') :
      ActsAlike tenant d d' (a, { e with store := d }) (a', { e with store := d' }) :=
    ⟨hr, rfl, ha, .refl tenant d, .refl tenant d'⟩
  cases concerns_of_subject hs with
  | updateRule r ht => exact .of_twin (ha.twin_update h h' ht hn hn' now) _ e
  | getRule id => exact .of_twin (ha.twin_get h h' hn hn') _ e
  | listRules => exact hlook (congrArg _ (ha.rulesOf_eq h h'))
  | setActive id active => exact .of_twin (ha.twin_setActive h h' hn hn' active now) _ e
  | deleteRule id => exact .of_twin (ha.twin_delete h h' hn hn') _ e
  | getExecution id =>
    refine hlook (congrArg _ ?_)
    rw [getExecution_of_not_hidesRecord h hn, getExecution_of_not_hidesRecord h' hn',
      tenantRecord?, tenantRecord?, ha.records]
  | listExecutions q => exact hlook (congrArg _ (ha.queryRecords_eq h h' q))

/-- An operation that starts with a part that is refused is refused with it. -/
private theorem perform_bind_of_error {α β : Type} {o : RuleOperation α} {error : EngineError}
    (h : o.perform d = (.error error, d)) (f : α → RuleOperation β) :
    (o >>= f).perform d = (.error error, d) := by
  rw [RuleOperation.perform_bind, h]

/-- A definition is refused for its fault, and else for its identifier. -/
private theorem perform_update_of_error {r : Rule} {error : EngineError}
    (h : (RuleService.get r.tenant r.id).perform d = (.error error, d)) (now : Timestamp) :
    (RuleService.update r now).perform d =
      (.error (((updateRule r).fault?.map EngineError.definition).getD error), d) := by
  have hcheck := RuleService.perform_check d r
  rw [fault?]
  cases hv : r.validate with
  | error fault =>
    rw [hv] at hcheck
    exact perform_bind_of_error hcheck _
  | ok u =>
    rw [hv] at hcheck
    rw [RuleService.update, RuleOperation.perform_bind, hcheck]
    exact perform_bind_of_error h _

/-- What a tenant is told that gets nothing under an identifier. A faulty definition is refused
before, and nothing is changed. -/
private theorem answer_of_get_error (hs : request.subject tenant = some subject)
    {error : EngineError} (hrule : ∀ id, subject = .rule id →
      (RuleService.get tenant id).perform d = (.error error, d))
    (hrecord : ∀ id, subject = .record id → ExecutionService.get d tenant id = .error error)
    (hall : subject ≠ .all) (e : Engine Database) (now : Timestamp) :
    ({ e with store := d } : Engine Database).answer now request =
      (.error ((request.fault?.map EngineError.definition).getD error),
        { e with store := d }) := by
  have hmanage {α : Type} {o : RuleOperation α} {error : EngineError} (f : α → Reply)
      (ho : o.perform d = (.error error, d)) :
      ((o.perform d).1.map f, ({ e with store := (o.perform d).2 } : Engine Database)) =
        (.error error, { e with store := d }) := by
    rw [ho]
    rfl
  cases concerns_of_subject hs with
  | updateRule r ht =>
    subst ht
    exact hmanage _ (perform_update_of_error (hrule _ rfl) now)
  | getRule id => exact hmanage _ (hrule _ rfl)
  | setActive id active => exact hmanage _ (perform_bind_of_error (hrule _ rfl) _)
  | deleteRule id => exact hmanage _ (perform_bind_of_error (hrule _ rfl) _)
  | getExecution id =>
    exact Prod.ext (congrArg (Except.map fun r => Reply.record (some r)) (hrecord _ rfl)) rfl
  | listRules | listExecutions => exact absurd rfl hall

/-- An identifier under which an unreadable row of another tenant is hidden is a fault of the
storage to a tenant that asks for it, and nothing is changed. -/
theorem answer_of_isHidden (h : d.IsKeyed) (hs : request.subject tenant = some subject)
    (hn : subject.IsHidden tenant d) (e : Engine Database) (now : Timestamp) :
    ({ e with store := d } : Engine Database).answer now request =
      (.error ((request.fault?.map EngineError.definition).getD .storage),
        { e with store := d }) := by
  refine answer_of_get_error hs (fun id hid => ?_) (fun id hid => ?_) (fun hall => ?_) e now
  · subst hid
    exact perform_get_of_hidesRule h hn
  · subst hid
    exact getExecution_of_hidesRecord h hn
  · subst hall
    exact hn

/-- An identifier that nothing or another tenant has is not found, unless an unreadable row of the
other tenant is hidden under it, and nothing is changed. -/
theorem answer_of_isMissing (h : d.IsKeyed) (hs : request.subject tenant = some subject)
    {error : EngineError} (herror : subject.notFound = some error)
    (hm : subject.IsMissing tenant d) (hn : ¬subject.IsHidden tenant d) (e : Engine Database)
    (now : Timestamp) : ({ e with store := d } : Engine Database).answer now request =
      (.error ((request.fault?.map EngineError.definition).getD error),
        { e with store := d }) := by
  refine answer_of_get_error hs (fun id hid => ?_) (fun id hid => ?_) (fun hall => ?_) e now
  · subst hid
    cases herror
    have hrow : d.tenantRow? tenant id = none :=
      Option.eq_none_iff_forall_ne_some.mpr fun row hrow =>
        have hrow := (tenantRow?_eq_some_iff h).mp hrow
        hm row hrow.1 hrow.2
    rw [perform_get_of_not_hidesRule h hn, hrow]
  · subst hid
    cases herror
    have hrow : d.tenantRecord? tenant id = none :=
      List.find?_eq_none.mpr fun row hrow => by simpa using hm row hrow
    rw [getExecution_of_not_hidesRecord h hn, hrow]
  · subst hall
    cases herror

end Engine

end RuleEngine
