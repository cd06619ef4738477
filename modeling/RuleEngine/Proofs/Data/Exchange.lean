import RuleEngine.Proofs.Data.Execution
import RuleEngine.Proofs.Data.Identifier

/-!
# What is exchanged is kept by its data

Rules, change notifications, the contexts of evaluations and execution records go over the wire as
data. Their data denotes them: nothing that tells two of them apart is lost on the way, neither
whether an optional part is absent nor the nanoseconds of an instant, at any depth of lists.

## Main definitions

* `Rule.IsExpressible`, `ExecutionRecord.IsExpressible`: the numbers are as wide as the fields that
  hold them, and a cron expression was read from a text.

## Main results

* `Rule.ofJson?_toJson`, `ChangeNotification.ofJson?_toJson`, `TriggerContext.ofJson?_toJson` and
  `ExecutionRecord.ofJson?_toJson`: the data denotes what it was written for.
* `exchanged_data_denotes`: all of these together with the cron expressions.
-/

namespace RuleEngine

theorem Timestamp.optional_ofOption (t : Option Timestamp) :
    Json.optional ofJson? (some (.ofOption toJson t)) = some t :=
  Json.optional_ofOption fun t _ => ⟨nofun, t.ofJson?_toJson⟩

theorem Combination.ofJson?_name (c : Combination) : ofJson? (.str c.name) = some c := by
  cases c <;> rfl

theorem TriggerKind.ofJson?_name (k : TriggerKind) : ofJson? (.str k.name) = some k := by
  cases k <;> rfl

theorem ExecutionStatus.ofJson?_name (s : ExecutionStatus) : ofJson? (.str s.name) = some s := by
  cases s <;> rfl

/-! ### Rules -/

namespace Rule

/-- Whether the numbers of a rule are as wide as its fields, and its cron expression was read from
a text. -/
structure IsExpressible (r : Rule) : Prop where
  cron : ∀ c, r.trigger = .schedule c → c.IsRead
  order : ∀ a ∈ r.actions, a.order < wordBound
  delay : ∀ s, r.delaySeconds = some s → s < longBound

/-- The data of a rule denotes the rule. -/
theorem ofJson?_toJson {r : Rule} (h : r.IsExpressible) : ofJson? r.toJson = some r := by
  have htrigger := Trigger.ofJson?_toJson h.cron
  have hdelay : Json.optional (Json.natBelow? longBound)
      (some (.ofOption (fun s => .int (s : Nat)) r.delaySeconds)) = some r.delaySeconds :=
    Json.optional_ofOption fun s hs => ⟨nofun, if_pos (h.delay s hs)⟩
  have hconditions := Json.defaulted_list_eq_some (l := r.conditions) fun c _ => c.ofJson?_toJson
  have hactions := Json.defaulted_list_eq_some fun a ha => Action.ofJson?_toJson (h.order a ha)
  rw [ofJson?, toJson, Json.record?_obj rfl (by decide)]
  refine Option.bind_eq_some_iff.mpr ⟨_, rfl, ?_⟩
  refine Option.bind_eq_some_iff.mpr ⟨_, Json.required_eq_some r.id.ofJson?_toJson, ?_⟩
  refine Option.bind_eq_some_iff.mpr ⟨r.tenant, rfl, ?_⟩
  refine Option.bind_eq_some_iff.mpr ⟨r.name, rfl, ?_⟩
  refine Option.bind_eq_some_iff.mpr ⟨_, Json.required_eq_some htrigger, ?_⟩
  refine Option.bind_eq_some_iff.mpr ⟨_, r.combination.ofJson?_name, ?_⟩
  refine Option.bind_eq_some_iff.mpr ⟨r.active, rfl, ?_⟩
  refine Option.bind_eq_some_iff.mpr ⟨_, hdelay, ?_⟩
  refine Option.bind_eq_some_iff.mpr ⟨_, hconditions, ?_⟩
  refine Option.bind_eq_some_iff.mpr ⟨_, hactions, ?_⟩
  refine Option.bind_eq_some_iff.mpr ⟨_, Timestamp.optional_ofOption r.lastTick, ?_⟩
  refine Option.bind_eq_some_iff.mpr ⟨_, Json.required_eq_some r.createdAt.ofJson?_toJson, ?_⟩
  refine Option.bind_eq_some_iff.mpr ⟨_, Json.required_eq_some r.updatedAt.ofJson?_toJson, ?_⟩
  rfl

end Rule

/-! ### Changes and contexts -/

theorem Fields.isReadable_toJson (d : Fields) : (toJson d).isReadable := by
  have h (l : List (String × Value)) :
      Json.membersReadable (l.map fun e => (e.1, e.2.toJson)) := by
    induction l with
    | nil => rfl
    | cons e rest ih =>
      rw [List.map_cons, Json.membersReadable, e.2.isReadable_toJson, ih]
      rfl
  rw [toJson, Json.isReadable]
  exact h d.entries

theorem Fields.isReadable_ofOption (d : Option Fields) : (Json.ofOption toJson d).isReadable := by
  cases d with
  | none => rfl
  | some d => exact d.isReadable_toJson

/-- Fields that are absent stay apart from fields without entries. -/
theorem Fields.optional_ofOption (access : Json.Access) (d : Option Fields) :
    Json.optional (ofJson? access) (some (.ofOption toJson d)) = some d :=
  Json.optional_ofOption fun d _ => ⟨nofun, d.ofJson?_toJson access⟩

/-- The data of a change denotes the change, directly or held back. -/
theorem ChangeNotification.ofJson?_toJson (access : Json.Access) (n : ChangeNotification) :
    ofJson? access n.toJson = some n := by
  rw [ofJson?, toJson, members, Json.record?_obj rfl (by decide)]
  simp only [List.map_cons, List.map_nil, Option.bind_eq_bind, Option.bind_some, Json.required,
    Json.text?, EventKind.ofJson?_name, Fields.optional_ofOption]

namespace TriggerSource

/-- The data of a cause denotes the cause: a change has its tag among its own members. -/
theorem ofJson?_toJson (s : TriggerSource) : ofJson? s.toJson = some s := by
  cases s with
  | change n =>
    have hr : (Json.obj (("type", .str "change") :: n.members)).isReadable := by
      simp [Json.isReadable, Json.membersReadable, ChangeNotification.members,
        Fields.isReadable_ofOption]
    have ht : Json.tagged? "type" (.obj (("type", .str "change") :: n.members)) =
        some ("change", n.toJson) := by
      rw [Json.tagged?, hr]
      simp [ChangeNotification.members, ChangeNotification.toJson]
    rw [ofJson?, toJson, ht, Option.bind_eq_bind, Option.bind_some]
    simp only [n.ofJson?_toJson .held, Option.bind_eq_bind, Option.bind_some]
  | schedule tick =>
    have ht : Json.tagged? "type" (.obj [("type", .str "schedule"), ("tick", tick.toJson)]) =
        some ("schedule", .obj [("tick", tick.toJson)]) := by
      simp [Json.tagged?, Json.isReadable, Json.membersReadable, Timestamp.toJson]
    have hr : (Json.obj [("tick", tick.toJson)]).record? [("tick", false)] =
        some [some tick.toJson] := Json.record?_obj rfl (by decide)
    rw [ofJson?, toJson, ht, Option.bind_eq_bind, Option.bind_some]
    simp only [hr, Option.bind_eq_bind, Option.bind_some, Json.required, tick.ofJson?_toJson]

end TriggerSource

/-- The data of a context denotes the context. -/
theorem TriggerContext.ofJson?_toJson (c : TriggerContext) : ofJson? c.toJson = some c := by
  rw [ofJson?, toJson, Json.record?_obj rfl (by decide)]
  simp only [List.map_cons, List.map_nil, Option.bind_eq_bind, Option.bind_some, Json.required,
    Json.text?, Timestamp.ofJson?_toJson, TriggerSource.ofJson?_toJson]

/-! ### Records -/

namespace ExecutionRecord

/-- Whether the orders of the steps of a record are as wide as their fields. -/
def IsExpressible (r : ExecutionRecord) : Prop := ∀ s ∈ r.steps, s.order < wordBound

instance (r : ExecutionRecord) : Decidable r.IsExpressible :=
  inferInstanceAs (Decidable (∀ s ∈ r.steps, s.order < wordBound))

/-- The data of a record denotes the record. -/
theorem ofJson?_toJson {r : ExecutionRecord} (h : r.IsExpressible) :
    ofJson? r.toJson = some r := by
  have hconditions := Json.defaulted_list_eq_some (l := r.conditions) fun c _ => c.ofJson?_toJson
  have hsteps := Json.defaulted_list_eq_some fun s hs => ActionStep.ofJson?_toJson (h s hs)
  have herror : Json.optional Json.text? (some (.ofOption Json.str r.error)) = some r.error :=
    Json.optional_ofOption fun s _ => ⟨nofun, rfl⟩
  rw [ofJson?, toJson, Json.record?_obj rfl (by decide)]
  refine Option.bind_eq_some_iff.mpr ⟨_, rfl, ?_⟩
  refine Option.bind_eq_some_iff.mpr ⟨_, Json.required_eq_some r.id.ofJson?_toJson, ?_⟩
  refine Option.bind_eq_some_iff.mpr ⟨r.tenant, rfl, ?_⟩
  refine Option.bind_eq_some_iff.mpr ⟨_, Json.required_eq_some r.ruleId.ofJson?_toJson, ?_⟩
  refine Option.bind_eq_some_iff.mpr ⟨r.ruleName, rfl, ?_⟩
  refine Option.bind_eq_some_iff.mpr ⟨_, Json.required_eq_some r.triggerKind.ofJson?_name, ?_⟩
  refine Option.bind_eq_some_iff.mpr ⟨_, Json.required_eq_some r.trigger.ofJson?_toJson, ?_⟩
  refine Option.bind_eq_some_iff.mpr ⟨_, Json.required_eq_some r.status.ofJson?_name, ?_⟩
  refine Option.bind_eq_some_iff.mpr ⟨_, hconditions, ?_⟩
  refine Option.bind_eq_some_iff.mpr ⟨_, hsteps, ?_⟩
  refine Option.bind_eq_some_iff.mpr ⟨_, herror, ?_⟩
  refine Option.bind_eq_some_iff.mpr ⟨_, Timestamp.optional_ofOption r.delayedUntil, ?_⟩
  refine Option.bind_eq_some_iff.mpr ⟨_, Json.required_eq_some r.startedAt.ofJson?_toJson, ?_⟩
  refine Option.bind_eq_some_iff.mpr ⟨_, Timestamp.optional_ofOption r.finishedAt, ?_⟩
  rfl

end ExecutionRecord

/-! ### Everything that is exchanged -/

variable {r : Rule} {e : ExecutionRecord}

/-- The data of a rule, a context, a change and a record denotes each of them, and the text that a
cron expression keeps is read as the expression. -/
theorem exchanged_data_denotes (hr : r.IsExpressible) (he : e.IsExpressible) (c : TriggerContext)
    (n : ChangeNotification) (access : Json.Access) :
    Rule.ofJson? r.toJson = some r ∧
      ExecutionRecord.ofJson? e.toJson = some e ∧
      TriggerContext.ofJson? c.toJson = some c ∧
      ChangeNotification.ofJson? access n.toJson = some n ∧
      ∀ text cron, CronExpression.parse text = .ok cron →
        CronExpression.parse cron.source = .ok cron :=
  ⟨Rule.ofJson?_toJson hr, ExecutionRecord.ofJson?_toJson he, c.ofJson?_toJson,
    n.ofJson?_toJson access, fun _ _ h => CronExpression.parse_source h⟩

namespace Sample

/-- Nine o'clock from Monday to Friday. -/
def weekdayMornings : CronExpression where
  source := "0 9 * * 1-5"
  minutes := [0]
  hours := [9]
  daysOfMonth := List.range' 1 31
  months := List.range' 1 12
  daysOfWeek := [1, 2, 3, 4, 5]
  daysOfMonthRestricted := false
  daysOfWeekRestricted := true

/-- Null in a list in a list, beside the negative zero. -/
def nestedValue : Value := .list [.list [.null], .number (.zero true)]

/-- An instant with nanoseconds in a leap second, before the year 0. -/
def longAgo : Timestamp := (Timestamp.of? (-62199999961) 1000000001).getD .epoch

/-- A rule for the mornings with a nested value in its action. -/
def morningRule : Rule where
  id := .numbered 3
  tenant := "acme"
  name := "good morning"
  trigger := .schedule weekdayMornings
  combination := .any
  active := false
  delaySeconds := some 0xFFFFFFFFFFFFFFFF
  conditions := []
  actions := [⟨0xFFFFFFFF, "webhook", Dictionary.empty.insert "items" nestedValue⟩]
  lastTick := some longAgo
  createdAt := longAgo
  updatedAt := .epoch

/-- A deletion of which the fields before it are known to be none, and those after it are not
known. -/
def deletion : ChangeNotification := ⟨"acme", "order", .deleted, "17", some .empty, none⟩

/-- A record with a condition on a field that is null and an action without a message. -/
def tracedRecord : ExecutionRecord :=
  { ExecutionRecord.pending (.numbered 4) morningRule (.ofTick "acme" longAgo) longAgo with
    status := .runningActions
    conditions := [⟨"order.note", .equal, .string "", some .null, none, false, none⟩]
    steps := [⟨0xFFFFFFFF, "webhook", .empty, .success, none, some .null, longAgo, .epoch⟩] }

end Sample

/-- A rule, a record, a context and a change whose data is nested, null or absent in places. -/
theorem exchanged_data_denotes_morning :
    Sample.morningRule.IsExpressible ∧ Sample.tracedRecord.IsExpressible ∧
      Rule.ofJson? Sample.morningRule.toJson = some Sample.morningRule ∧
      ExecutionRecord.ofJson? Sample.tracedRecord.toJson = some Sample.tracedRecord := by
  have hr : Sample.morningRule.IsExpressible := by
    refine ⟨fun c hc => ?_, by decide, by decide⟩
    obtain rfl : Sample.weekdayMornings = c := Trigger.schedule.inj hc
    exact ⟨"0 9 * * 1-5", by decide +kernel⟩
  have he : Sample.tracedRecord.IsExpressible := by decide
  obtain ⟨hrule, hrecord, -⟩ := exchanged_data_denotes hr he
    (.ofChange Sample.deletion Sample.longAgo) Sample.deletion .direct
  exact ⟨hr, he, hrule, hrecord⟩

end RuleEngine
