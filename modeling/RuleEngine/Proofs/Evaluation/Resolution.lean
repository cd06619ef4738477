import Mathlib.Data.List.Chain
import RuleEngine.Evaluation.Path

/-!
# What a path resolves to

A path is taken apart at its dots. One with a dollar sign in front names a field of the instant at
which the rule fired. Of the subject of a change, a path of one segment reads the side of the change
that shows the subject as it is now. Every other path is a walk: each segment is asked of the entity
at which the walk has come, and leads to a related entity, or ends the walk. A minute of the
scheduler has no subject, so that nothing is found for it. Here this is said once as a relation,
case by case, and the paths that are resolved are shown to satisfy it. The numbers in values are
finite, here and below.

## Main definitions

* `pathSegments`: what stands between the dots of a path.
* `Timestamp.systemFields`: the fields of an instant by name.
* `ChangeNotification.Shows`: the side of a change that shows the subject as it is now.
* `Resolution.Walk`: the questions of a walk along segments, and the value at its end.
* `Resolution.Resolves`: what a path resolves to.
* `Resolution.IsHopByHop`: questions that are the hops of a walk.

## Main results

* `Resolution.walk_follow`: to follow segments is to walk along them.
* `Resolution.resolves_iff`: to resolve a path yields what it resolves to, hop by hop.
-/

namespace RuleEngine

/-! ### Segments -/

/-- The segments of a path: what stands between its dots. -/
def pathSegments (path : String) : List String :=
  (path.toList.splitOn '.').map String.ofList

/-- The pieces of a text between separators are those at which the text is split. -/
theorem Text.pieces_eq_splitOnP (p : Char → Bool) (cs : List Char) :
    pieces p cs = cs.splitOnP p := by
  induction cs with
  | nil => rfl
  | cons c cs ih =>
    rw [pieces, List.splitOnP_cons_eq_if_modifyHead, ih]
    split
    · rfl
    · obtain ⟨w, ws, hw⟩ := List.exists_cons_of_ne_nil (List.splitOnP_ne_nil p cs)
      rw [hw]
      rfl

theorem pathSteps_eq (path : String) : pathSteps path = pathSegments path :=
  congrArg (List.map String.ofList) (Text.pieces_eq_splitOnP _ _)

theorem pathSegments_ne_nil (path : String) : pathSegments path ≠ [] := by
  rw [pathSegments, ne_eq, List.map_eq_nil_iff]
  exact List.splitOnP_ne_nil _ _

/-! ### Fields of an instant -/

/-- The fields of an instant by name. Hours and minutes are those of universal time, and weekdays
are counted from Sunday as 0. -/
def Timestamp.systemFields (t : Timestamp) : List (String × Value) :=
  [("now", .string t.textWithOffset), ("timestamp", .ofInt t.second),
    ("minute", .ofInt (t.second % 3600 / 60)), ("hour", .ofInt (t.second % 86400 / 3600)),
    ("day_of_month", .ofInt t.date.day), ("month", .ofInt t.date.month),
    ("day_of_week", .ofInt ((t.second / 86400 + 4) % 7))]

theorem Timestamp.minute_eq (t : Timestamp) : (t.minute : Int) = t.second % 3600 / 60 := by
  rw [minute, secondOfDay]
  omega

theorem Timestamp.hour_eq (t : Timestamp) : (t.hour : Int) = t.second % 86400 / 3600 := by
  rw [hour, secondOfDay]
  omega

theorem Timestamp.weekday_eq (t : Timestamp) : (t.weekday : Int) = (t.second / 86400 + 4) % 7 := by
  rw [weekday, Date.weekday, dayNumber]
  omega

namespace Resolution

/-- The field of an instant is the one of its name, if there is one. -/
theorem systemField_eq (name : String) (t : Timestamp) :
    systemField name t = t.systemFields.lookup name := by
  unfold systemField
  split
  case h_8 now timestamp minute hour day month weekday =>
    refine (List.lookup_eq_none_iff.mpr ?_).symm
    simpa [Timestamp.systemFields] using ⟨now, timestamp, minute, hour, day, month, weekday⟩
  all_goals simp [Timestamp.systemFields, List.lookup_cons, t.minute_eq, t.hour_eq, t.weekday_eq]

end Resolution

/-! ### The side that is shown -/

namespace ChangeNotification

/-- Whether a change shows its subject with given fields. A deletion shows the side before it, any
other change the side after it, and the other side only stands in for one that is absent. -/
def Shows (n : ChangeNotification) (fields : Fields) : Prop :=
  if n.eventKind = .deleted then n.before = some fields ∨ n.before = none ∧ n.after = some fields
  else n.after = some fields ∨ n.after = none ∧ n.before = some fields

theorem shows_iff {n : ChangeNotification} {fields : Fields} :
    n.Shows fields ↔ n.current = some fields := by
  unfold Shows current
  cases n.eventKind <;> cases n.before <;> cases n.after <;> simp

end ChangeNotification

namespace Resolution

variable {lookup : Lookup} {tenant : TenantId} {context : TriggerContext}

/-! ### Walks -/

/-- A walk along segments from an entity: the value at its end, if it has one, and the questions
that are asked. The last segment yields the value that is found, or the identifier of the entity
that it leads to. Any other one has to lead to an entity, from which the walk goes on. -/
inductive Walk (lookup : Lookup) (tenant : TenantId) :
    EntityRef → List String → Option Value → List LookupCall → Prop
  | value {e : EntityRef} {segment : String} {v : Value}
      (h : lookup tenant e segment = .value v) :
      Walk lookup tenant e [segment] (some v) [⟨tenant, e, segment⟩]
  | identifier {e target : EntityRef} {segment : String}
      (h : lookup tenant e segment = .related target) :
      Walk lookup tenant e [segment] (some (.string target.id)) [⟨tenant, e, segment⟩]
  | hop {e target : EntityRef} {segment : String} {rest : List String} {v : Option Value}
      {calls : List LookupCall} (hrest : rest ≠ [])
      (h : lookup tenant e segment = .related target)
      (later : Walk lookup tenant target rest v calls) :
      Walk lookup tenant e (segment :: rest) v (⟨tenant, e, segment⟩ :: calls)
  | scalar {e : EntityRef} {segment : String} {rest : List String} {v : Value} (hrest : rest ≠ [])
      (h : lookup tenant e segment = .value v) :
      Walk lookup tenant e (segment :: rest) none [⟨tenant, e, segment⟩]
  | missing {e : EntityRef} {segment : String} {rest : List String}
      (h : lookup tenant e segment = .notFound ∨ lookup tenant e segment = .failed) :
      Walk lookup tenant e (segment :: rest) none [⟨tenant, e, segment⟩]

/-- To follow segments is to walk along them. -/
theorem walk_follow (e : EntityRef) {segments : List String} (hs : segments ≠ []) :
    Walk lookup tenant e segments (follow lookup tenant e segments).value
      (follow lookup tenant e segments).calls := by
  induction segments generalizing e with
  | nil => exact absurd rfl hs
  | cons segment rest ih =>
    cases h : lookup tenant e segment with
    | value v =>
      cases rest with
      | nil => simpa only [follow, h] using .value h
      | cons next rest => simpa only [follow, h] using .scalar (List.cons_ne_nil _ _) h
    | related target =>
      cases rest with
      | nil => simpa only [follow, h] using .identifier h
      | cons next rest =>
        have hne : next :: rest ≠ [] := List.cons_ne_nil _ _
        simpa only [follow, h] using .hop hne h (ih target hne)
    | notFound => simpa only [follow, h] using .missing (.inl h)
    | failed => simpa only [follow, h] using .missing (.inr h)

/-- A walk is told by where it starts and by its segments. -/
theorem Walk.eq_follow {e : EntityRef} {segments : List String} {v : Option Value}
    {calls : List LookupCall} (h : Walk lookup tenant e segments v calls) :
    follow lookup tenant e segments = ⟨v, calls⟩ := by
  induction h with
  | value h | identifier h => simp only [follow, h]
  | hop hrest h _ ih =>
    obtain ⟨next, rest, rfl⟩ := List.exists_cons_of_ne_nil hrest
    rw [follow, ih]
    exact h
  | scalar hrest h =>
    obtain ⟨next, rest, rfl⟩ := List.exists_cons_of_ne_nil hrest
    simp only [follow, h]
  | missing h =>
    rcases h with h | h <;> simp only [follow, h]

/-! ### Questions hop by hop -/

/-- Whether questions are the hops of a walk from an entity: they are asked for the tenant about the
first segments in their order, at most one about each, the first question at the entity and every
other one where the answer to the question before it leads to. -/
structure IsHopByHop (lookup : Lookup) (tenant : TenantId) (e : EntityRef) (segments : List String)
    (calls : List LookupCall) : Prop where
  tenant : ∀ c ∈ calls, c.tenant = tenant
  fields : calls.map (·.field) <+: segments
  start : ∀ c ∈ calls.head?, c.entity = e
  hops : calls.IsChain fun c d => lookup c.tenant c.entity c.field = .related d.entity

/-- The questions of a walk are its hops. -/
theorem Walk.isHopByHop {e : EntityRef} {segments : List String} {v : Option Value}
    {calls : List LookupCall} (h : Walk lookup tenant e segments v calls) :
    IsHopByHop lookup tenant e segments calls := by
  induction h with
  | value | identifier | scalar | missing =>
    exact ⟨by simp, by simp, by simp, List.isChain_singleton _⟩
  | @hop e target segment rest v calls hrest h later ih =>
    refine ⟨List.forall_mem_cons.mpr ⟨rfl, ih.tenant⟩, ?_, by simp, ?_⟩
    · rw [List.map_cons]
      exact (List.prefix_cons_inj segment).mpr ih.fields
    · refine List.isChain_cons.mpr ⟨fun d hd => ?_, ih.hops⟩
      rw [ih.start d hd]
      exact h

/-! ### Paths -/

/-- What a path resolves to in a context: the value, if there is one, and the questions that are
asked for it. -/
inductive Resolves (lookup : Lookup) (context : TriggerContext) :
    String → Option Value → List LookupCall → Prop
  | system (name : String) :
      Resolves lookup context ("$" ++ name) (context.firedAt.systemFields.lookup name) []
  | scheduled {path : String} {tick : Timestamp} (hp : ∀ name, path ≠ "$" ++ name)
      (hc : context.source = .schedule tick) : Resolves lookup context path none []
  | shown {path segment : String} {n : ChangeNotification} {fields : Fields} {v : Value}
      (hp : ∀ name, path ≠ "$" ++ name) (hc : context.source = .change n)
      (hs : pathSegments path = [segment]) (hf : n.Shows fields)
      (hv : fields.get? segment = some v) : Resolves lookup context path (some v) []
  | walked {path : String} {n : ChangeNotification} {v : Option Value} {calls : List LookupCall}
      (hp : ∀ name, path ≠ "$" ++ name) (hc : context.source = .change n)
      (hs : ∀ segment, pathSegments path = [segment] →
        ∀ fields, n.Shows fields → fields.get? segment = none)
      (hw : Walk lookup context.tenant ⟨n.subjectType, n.subjectId⟩ (pathSegments path) v calls) :
      Resolves lookup context path v calls

/-- A path that does not begin with a dollar sign is resolved in the change of the context. -/
theorem resolve_of_ne {path : String} (hp : ∀ name, path ≠ "$" ++ name) :
    resolve lookup context path = match context.change with
      | none => direct none
      | some n => match currentField n (pathSegments path) with
        | some v => direct (some v)
        | none =>
          follow lookup context.tenant ⟨n.subjectType, n.subjectId⟩ (pathSegments path) := by
  rw [← pathSteps_eq]
  unfold resolve
  split
  · next name hname =>
    refine absurd ?_ (hp (String.ofList name))
    rw [← String.toList_inj, hname, String.toList_append, String.toList_ofList]
    simp
  · rfl

/-- The own field of a subject is that of a path of one segment on the side that is shown. -/
theorem currentField_eq_some_iff {n : ChangeNotification} {segments : List String} {v : Value} :
    currentField n segments = some v ↔
      ∃ segment fields, segments = [segment] ∧ n.Shows fields ∧ fields.get? segment = some v := by
  simp only [ChangeNotification.shows_iff]
  unfold currentField
  split
  · simp [Option.bind_eq_some_iff]
  · next h =>
    refine iff_of_false (fun hn => nomatch hn) ?_
    rintro ⟨segment, fields, hs, -⟩
    exact h segment hs

/-- Every path is resolved to what it resolves to. -/
theorem resolves_resolve (lookup : Lookup) (context : TriggerContext) (path : String) :
    Resolves lookup context path (resolve lookup context path).value
      (resolve lookup context path).calls := by
  by_cases hp : ∃ name, path = "$" ++ name
  · obtain ⟨name, rfl⟩ := hp
    have hr : resolve lookup context ("$" ++ name) =
        direct (context.firedAt.systemFields.lookup name) := by
      rw [← systemField_eq]
      unfold resolve
      simp
    rw [hr]
    exact .system name
  · have hp : ∀ name, path ≠ "$" ++ name := not_exists.mp hp
    rw [resolve_of_ne hp]
    unfold TriggerContext.change
    cases hc : context.source with
    | schedule tick => exact .scheduled hp hc
    | change n =>
      dsimp only
      cases hf : currentField n (pathSegments path) with
      | some v =>
        obtain ⟨segment, fields, hs, hshows, hv⟩ := currentField_eq_some_iff.mp hf
        exact .shown hp hc hs hshows hv
      | none =>
        refine .walked hp hc (fun segment hs fields hshows => ?_)
          (walk_follow _ (pathSegments_ne_nil path))
        refine Option.eq_none_iff_forall_ne_some.mpr fun v hv => ?_
        cases hf.symm.trans (currentField_eq_some_iff.mpr ⟨segment, fields, hs, hshows, hv⟩)

/-- What a path resolves to is told by the context, the path and the lookup. -/
theorem Resolves.eq_resolve {path : String} {v : Option Value} {calls : List LookupCall}
    (h : Resolves lookup context path v calls) : resolve lookup context path = ⟨v, calls⟩ := by
  cases h with
  | system name =>
    rw [← systemField_eq]
    unfold resolve
    simp [direct]
  | scheduled hp hc => simp [resolve_of_ne hp, TriggerContext.change, hc, direct]
  | shown hp hc hs hf hv =>
    have hcurrent := currentField_eq_some_iff.mpr ⟨_, _, hs, hf, hv⟩
    simp [resolve_of_ne hp, TriggerContext.change, hc, hcurrent, direct]
  | @walked path n v calls hp hc hs hw =>
    have hcurrent : currentField n (pathSegments path) = none := by
      refine Option.eq_none_iff_forall_ne_some.mpr fun v hv => ?_
      obtain ⟨segment, fields, hsegment, hshows, hfield⟩ := currentField_eq_some_iff.mp hv
      cases (hs segment hsegment fields hshows).symm.trans hfield
    simp [resolve_of_ne hp, TriggerContext.change, hc, hcurrent, hw.eq_follow]

/-- What every path resolves to, in every context and with every lookup. A field of the instant of
firing, what a minute of the scheduler finds and a field that the shown side of a change has are
found without a question. Everything else is found by a walk, and the questions of a walk are its
hops from the subject on, for the tenant of the context. -/
theorem resolves_iff (lookup : Lookup) (context : TriggerContext) (path : String) :
    (∀ v calls, Resolves lookup context path v calls ↔
      resolve lookup context path = ⟨v, calls⟩) ∧
    ((resolve lookup context path).calls = [] ∨
      ∃ n, context.source = .change n ∧
        IsHopByHop lookup context.tenant ⟨n.subjectType, n.subjectId⟩ (pathSegments path)
          (resolve lookup context path).calls) := by
  have hresolve := resolves_resolve lookup context path
  refine ⟨fun v calls => ⟨fun h => h.eq_resolve, fun h => ?_⟩, ?_⟩
  · rw [h] at hresolve
    exact hresolve
  · generalize (resolve lookup context path).value = v at hresolve
    generalize (resolve lookup context path).calls = calls at hresolve
    cases hresolve with
    | system | scheduled | shown => exact .inl rfl
    | walked hp hc hs hw => exact .inr ⟨_, hc, hw.isHopByHop⟩

end Resolution

end RuleEngine
