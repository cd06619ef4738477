import RuleEngine.Execution.Json
import RuleEngine.Proofs.Data.Rule
import RuleEngine.Proofs.Time.Text

/-!
# The parts of execution records are kept by their data

The data of the recorded cause, of the trace of a condition and of the trace of an action denotes
it. A field that was not found stays apart from one that is null, and the times inside are exact.

## Main results

* `TriggerSnapshot.ofJson?_toJson`, `ConditionResult.ofJson?_toJson`, `ActionStep.ofJson?_toJson`:
  the data of a part denotes the part.
-/

namespace RuleEngine

theorem Timestamp.ofJson?_toJson (t : Timestamp) : ofJson? t.toJson = some t := by
  have ht : t.toJson.text? = some t.text := rfl
  rw [ofJson?, ht, Option.bind_some, t.read?_text]

/-- The recorded cause is denoted by its data. -/
theorem TriggerSnapshot.ofJson?_toJson (t : TriggerSnapshot) : ofJson? t.toJson = some t := by
  cases t with
  | event subjectType subjectId eventKind =>
    have hk := EventKind.ofJson?_name .held eventKind
    simp [toJson, ofJson?, Json.tagged?, Json.isReadable, Json.membersReadable, Json.record?,
      Json.distinctMembers, Json.required, Json.text?, hk]
  | schedule tick =>
    have ht := Timestamp.ofJson?_toJson tick
    have hr : tick.toJson.isReadable := rfl
    simp [toJson, ofJson?, Json.tagged?, Json.isReadable, Json.membersReadable, Json.record?,
      Json.distinctMembers, Json.required, ht, hr]

/-! ### Traces -/

/-- The data of a value is not null, not even that of null. -/
theorem Value.toJson_ne_null (v : Value) : v.toJson ≠ .null := by
  cases v <;> simp [toJson]

/-- The members of the data of the trace of a condition. -/
theorem ConditionResult.toJson_eq_present (r : ConditionResult) :
    r.toJson = .obj (Json.present [("field", some (.str r.field)),
      ("operator", some (.str r.operator.name)), ("expected", some r.expected.toJson),
      ("resolved", some (.ofOption Value.toJson r.resolved)),
      ("previous", r.previous.map Value.toJson), ("passed", some (.bool r.passed)),
      ("note", r.note.map Json.str)]) := by
  obtain ⟨field, op, expected, resolved, previous, passed, note⟩ := r
  cases previous <;> cases note <;> rfl

/-- The trace of a condition is denoted by its data. -/
theorem ConditionResult.ofJson?_toJson (r : ConditionResult) : ofJson? r.toJson = some r := by
  have hvalue (v : Option Value) (x : Value) (_ : v = some x) :=
    And.intro x.toJson_ne_null (x.ofJson?_toJson .direct)
  have hnote : Json.optional Json.text? (r.note.map Json.str) = some r.note :=
    Json.optional_map fun s _ => ⟨nofun, rfl⟩
  rw [toJson_eq_present, ofJson?, Json.record?_present rfl (by decide)]
  refine Option.bind_eq_some_iff.mpr ⟨_, rfl, ?_⟩
  refine Option.bind_eq_some_iff.mpr ⟨r.field, rfl, ?_⟩
  refine Option.bind_eq_some_iff.mpr ⟨_, Json.required_eq_some r.operator.ofJson?_name, ?_⟩
  refine Option.bind_eq_some_iff.mpr
    ⟨_, Json.required_eq_some (r.expected.ofJson?_toJson .direct), ?_⟩
  refine Option.bind_eq_some_iff.mpr ⟨_, Json.optional_ofOption (hvalue r.resolved), ?_⟩
  refine Option.bind_eq_some_iff.mpr ⟨_, Json.optional_map (hvalue r.previous), ?_⟩
  refine Option.bind_eq_some_iff.mpr ⟨r.passed, rfl, ?_⟩
  exact Option.bind_eq_some_iff.mpr ⟨_, hnote, rfl⟩

theorem StepOutcome.choice?_name (access : Json.Access) (o : StepOutcome) :
    Json.choice? access names (.str o.name) = some o := by
  cases o <;> rfl

/-- The members of the data of the trace of an action. -/
theorem ActionStep.toJson_eq_present (s : ActionStep) :
    s.toJson = .obj (Json.present [("order", some (.int s.order)),
      ("action_type", some (.str s.actionType)), ("parameters", some s.parameters.toJson),
      ("outcome", some (.str s.outcome.name)), ("message", s.message.map Json.str),
      ("effect", s.effect.map Value.toJson), ("started_at", some s.startedAt.toJson),
      ("finished_at", some s.finishedAt.toJson)]) := by
  obtain ⟨order, actionType, parameters, outcome, message, effect, startedAt, finishedAt⟩ := s
  cases message <;> cases effect <;> rfl

/-- The trace of an action is denoted by its data. -/
theorem ActionStep.ofJson?_toJson {s : ActionStep} (ho : s.order < wordBound) :
    ofJson? s.toJson = some s := by
  have horder : Json.natBelow? wordBound (.int s.order) = some s.order := if_pos ho
  have hmessage : Json.optional Json.text? (s.message.map Json.str) = some s.message :=
    Json.optional_map fun m _ => ⟨nofun, rfl⟩
  have heffect : Json.optional (Value.ofJson? .direct) (s.effect.map Value.toJson) =
      some s.effect :=
    Json.optional_map fun v _ => ⟨v.toJson_ne_null, v.ofJson?_toJson .direct⟩
  rw [toJson_eq_present, ofJson?, Json.record?_present rfl (by decide)]
  refine Option.bind_eq_some_iff.mpr ⟨_, rfl, ?_⟩
  refine Option.bind_eq_some_iff.mpr ⟨_, Json.required_eq_some horder, ?_⟩
  refine Option.bind_eq_some_iff.mpr ⟨s.actionType, rfl, ?_⟩
  refine Option.bind_eq_some_iff.mpr ⟨_, Fields.ofJson?_toJson .direct s.parameters, ?_⟩
  refine Option.bind_eq_some_iff.mpr
    ⟨_, Json.required_eq_some (s.outcome.choice?_name .direct), ?_⟩
  refine Option.bind_eq_some_iff.mpr ⟨_, hmessage, ?_⟩
  refine Option.bind_eq_some_iff.mpr ⟨_, heffect, ?_⟩
  refine Option.bind_eq_some_iff.mpr ⟨_, Json.required_eq_some s.startedAt.ofJson?_toJson, ?_⟩
  exact Option.bind_eq_some_iff.mpr
    ⟨_, Json.required_eq_some s.finishedAt.ofJson?_toJson, rfl⟩

/-- The data of the trace of an action denotes nothing else: an order that does not fit 32 bits
cannot be read. -/
theorem ActionStep.eq_of_ofJson?_toJson {s s' : ActionStep} (h : ofJson? s.toJson = some s') :
    s' = s := by
  by_cases ho : s.order < wordBound
  · rw [ofJson?_toJson ho] at h
    exact (Option.some.inj h).symm
  · have horder : Json.natBelow? wordBound (.int s.order) = none := if_neg ho
    rw [toJson_eq_present, ofJson?, Json.record?_present rfl (by decide)] at h
    obtain ⟨_, hvalues, h⟩ := Option.bind_eq_some_iff.mp h
    cases hvalues
    obtain ⟨_, hread, -⟩ := Option.bind_eq_some_iff.mp h
    exact absurd (horder.symm.trans hread) nofun

end RuleEngine
