import RuleEngine.Proofs.Run.Consistency
import RuleEngine.Proofs.Store.ExecutionRow

/-!
# The log of a database refines the log in memory

Records are appended under fresh identifiers, and a new version of a record agrees with the one that
was appended in what stays the same in the course of an execution. Then a database answers every
sequence of calls as a store in memory does, up to the microseconds to which it cuts three times of
a record: the calls that are refused are the same, for the same reason, and change nothing. The
rows of the database are at all times those of the records in memory.

## Main definitions

* `LogCall`, `LogAnswer`, `performAll`: sequences of calls, and their answers.
* `LogCall.Follows`, `LogCall.IsProper`: the calls that an engine makes.
* `LogsAgree`: what the two stores answer to the next call.

## Main results

* `perform_refines`: the next call is answered alike, and the rows stay those of the records.
* `logsAgree_of_isProper`: every sequence of calls is answered alike.
-/

namespace RuleEngine

open ExecutionLog

/-! ### Calls -/

/-- A call of a log. -/
inductive LogCall where
  | append (r : ExecutionRecord)
  | update (r : ExecutionRecord)
  | find (id : ExecutionId)
  | abandon (now : Timestamp)

/-- The answer to a call that is not refused. -/
inductive LogAnswer where
  | written
  | found (r : Option ExecutionRecord)
  | counted (n : Nat)

/-- The answer with the times that are kept. -/
def LogAnswer.kept : LogAnswer → LogAnswer
  | .found r => .found (r.map ExecutionRecord.kept)
  | a => a

namespace ExecutionLog

variable {σ : Type}

/-- The answer to a call and the log after it. A refused call changes nothing. -/
def settle (s : σ) : Except EngineError (LogAnswer × σ) → Except EngineError LogAnswer × σ
  | .ok (a, s') => (.ok a, s')
  | .error e => (.error e, s)

variable [ExecutionLog σ]

/-- Makes a call. -/
def perform (s : σ) : LogCall → Except EngineError LogAnswer × σ
  | .append r => settle s ((appendRecord s r).map fun s' => (.written, s'))
  | .update r => settle s ((updateRecord s r).map fun s' => (.written, s'))
  | .find id => settle s ((recordById s id).map fun r => (.found r, s))
  | .abandon now => settle s ((abandonOpen s now).map fun (n, s') => (.counted n, s'))

/-- Makes calls one after the other. -/
def performAll (s : σ) : List LogCall → List (Except EngineError LogAnswer) × σ
  | [] => ([], s)
  | c :: cs =>
    ((perform s c).1 :: (performAll (perform s c).2 cs).1, (performAll (perform s c).2 cs).2)

theorem performAll_concat (s : σ) (cs : List LogCall) (c : LogCall) :
    performAll s (cs ++ [c]) = ((performAll s cs).1 ++ [(perform (performAll s cs).2 c).1],
      (perform (performAll s cs).2 c).2) := by
  induction cs generalizing s with
  | nil => rfl
  | cons b cs ih => rw [List.cons_append, performAll, ih, performAll, List.cons_append]

end ExecutionLog

namespace LogCall

/-- The records that calls append. -/
def appended (calls : List LogCall) : List ExecutionRecord :=
  calls.filterMap fun
    | .append r => some r
    | _ => none

/-- Whether a call may follow others: a record is appended under a fresh identifier, a new version
agrees with the record that was appended under its identifier, if any, and all times can be
kept. -/
def Follows (calls : List LogCall) : LogCall → Prop
  | .append r => r.IsStorable ∧ ∀ a ∈ appended calls, a.id ≠ r.id
  | .update r => r.IsStorable ∧ ∀ a ∈ appended calls, a.id = r.id → r.SameOrigin a
  | .find _ => True
  | .abandon now => now.HasFourDigitYear

/-- Whether in a sequence every call may follow those before it. -/
inductive IsProper : List LogCall → Prop
  | nil : IsProper []
  | concat {calls : List LogCall} {c : LogCall} (h : IsProper calls) (hc : c.Follows calls) :
    IsProper (calls ++ [c])

end LogCall

open LogCall

/-! ### Records and their rows -/

namespace MemoryStore

theorem put_of_not_mem {α κ : Type} [DecidableEq κ] {key : α → κ} {a : α} {l : List α}
    (h : key a ∉ l.map key) : put key a l = l ++ [a] := by
  induction l with
  | nil => rfl
  | cons b rest ih =>
    obtain ⟨hb, hrest⟩ := not_or.mp (List.mem_cons.not.mp h)
    rw [put, if_neg (Ne.symm hb), ih hrest, List.cons_append]

theorem put_of_mem {α κ : Type} [DecidableEq κ] {key : α → κ} {a : α} {l : List α}
    (hn : (l.map key).Nodup) (h : key a ∈ l.map key) :
    put key a l = l.map fun b => if key b = key a then a else b := by
  induction l with
  | nil => cases h
  | cons b rest ih =>
    obtain ⟨hb, hrest⟩ := List.nodup_cons.mp hn
    rw [put, List.map_cons]
    by_cases he : key b = key a
    · have hsame : ∀ c ∈ rest, (if key c = key a then a else c) = c := by
        intro c hc
        refine if_neg fun hk => hb ?_
        rw [he, ← hk]
        exact List.mem_map_of_mem hc
      rw [if_pos he, if_pos he, List.map_congr_left hsame, List.map_id']
    · have hmem : key a ∈ rest.map key := (List.mem_cons.mp h).resolve_left (Ne.symm he)
      rw [if_neg he, if_neg he, ih hrest hmem]

variable {m : MemoryStore} {r stored : ExecutionRecord}

theorem updateRecord_of_none (m : MemoryStore) (hs : m.findRecord r.id = none) :
    updateRecord m r = .error (.notFound .execution r.id) := by
  change m.update r = _
  rw [update, hs]

theorem updateRecord_of_isTerminal (m : MemoryStore) (hs : m.findRecord r.id = some stored)
    (ht : stored.isTerminal) :
    updateRecord m r = .error (.transition ⟨stored.status, r.status⟩) := by
  change m.update r = _
  rw [update, hs]
  exact if_pos ht

theorem updateRecord_of_not_isTerminal (m : MemoryStore) (hs : m.findRecord r.id = some stored)
    (ht : ¬ stored.isTerminal) : updateRecord m r = .ok (m.putRecord r) := by
  change m.update r = _
  rw [update, hs]
  exact if_neg ht

/-- The number of records that have not ended. -/
def openCount (m : MemoryStore) : Nat := (m.records.filter fun r => !r.isTerminal).length

theorem abandonOpen_eq (m : MemoryStore) (now : Timestamp) : abandonOpen m now =
    .ok (m.openCount, { m with records := m.records.map (abandon now) }) :=
  rfl

end MemoryStore

/-- Whether the rows of an open database are those of the records in memory after calls of a
log. -/
structure RowsMirror (calls : List LogCall) (d : Database) (m : MemoryStore) : Prop where
  isOpen : d.isOpen
  executions : d.executions = m.records.map ExecutionRow.ofRecord
  nodup : (m.records.map ExecutionRecord.id).Nodup
  storable : ∀ r ∈ m.records, r.IsStorable
  origin : ∀ r ∈ m.records, ∃ a ∈ appended calls, r.SameOrigin a

variable {calls : List LogCall} {c : LogCall} {d : Database} {m : MemoryStore}
variable {r stored : ExecutionRecord} {id : ExecutionId} {now : Timestamp}

theorem mem_appended_concat {a : ExecutionRecord} (h : a ∈ appended calls) (c : LogCall) :
    a ∈ appended (calls ++ [c]) := by
  rw [appended, List.filterMap_append]
  exact List.mem_append_left _ h

theorem mem_appended_append (calls : List LogCall) (r : ExecutionRecord) :
    r ∈ appended (calls ++ [.append r]) := by
  rw [appended, List.filterMap_append]
  exact List.mem_append_right _ (List.mem_singleton_self r)

namespace RowsMirror

theorem answer_eq {α : Type} (h : RowsMirror calls d m) (a : Except EngineError α) :
    d.answer a = a :=
  if_pos h.isOpen

theorem row_eq (h : RowsMirror calls d m) (id : ExecutionId) :
    d.executions.find? (fun row => row.id == id) = (m.findRecord id).map ExecutionRow.ofRecord := by
  rw [h.executions, List.find?_map, MemoryStore.findRecord]
  congr 2

/-- What is read back is what is in memory, with the times that are kept. -/
theorem recordById_eq (h : RowsMirror calls d m) (id : ExecutionId) :
    recordById d id = .ok ((m.findRecord id).map ExecutionRecord.kept) := by
  change d.answer ((d.executions.find? _).mapM ExecutionRow.read) = _
  rw [h.answer_eq, h.row_eq]
  cases hf : m.findRecord id with
  | none => rfl
  | some r =>
    have hread := ExecutionRow.read_ofRecord (h.storable r (List.mem_of_find?_eq_some hf))
    rw [Option.map_some, Option.mapM_some, hread]
    rfl

/-- The calls so far may be followed by others. -/
theorem mono (h : RowsMirror calls d m) (c : LogCall) : RowsMirror (calls ++ [c]) d m where
  isOpen := h.isOpen
  executions := h.executions
  nodup := h.nodup
  storable := h.storable
  origin r hr := by
    obtain ⟨a, ha, hra⟩ := h.origin r hr
    exact ⟨a, mem_appended_concat ha c, hra⟩

/-! ### Appended records -/

theorem id_not_mem (h : RowsMirror calls d m) (hf : (LogCall.append r).Follows calls) :
    r.id ∉ m.records.map ExecutionRecord.id := by
  intro hm
  obtain ⟨stored, hstored, hid⟩ := List.mem_map.mp hm
  obtain ⟨a, ha, hsame⟩ := h.origin stored hstored
  exact hf.2 a ha (hsame.id.symm.trans hid)

theorem appendRecord_eq (h : RowsMirror calls d m) (hf : (LogCall.append r).Follows calls) :
    appendRecord d r = .ok { d with executions := d.executions ++ [.ofRecord r] } := by
  change d.answer (d.insertRecord r) = _
  rw [h.answer_eq, Database.insertRecord, if_neg]
  intro hany
  obtain ⟨row, hrow, hid⟩ := List.any_eq_true.mp hany
  rw [h.executions] at hrow
  obtain ⟨stored, hstored, rfl⟩ := List.mem_map.mp hrow
  exact h.id_not_mem hf (List.mem_map.mpr ⟨stored, hstored, beq_iff_eq.mp hid⟩)

/-- An appended record gets the row that belongs to it. -/
theorem append (h : RowsMirror calls d m) (hf : (LogCall.append r).Follows calls) :
    RowsMirror (calls ++ [.append r]) { d with executions := d.executions ++ [.ofRecord r] }
      (m.putRecord r) := by
  have hput : (m.putRecord r).records = m.records ++ [r] :=
    MemoryStore.put_of_not_mem (h.id_not_mem hf)
  refine ⟨h.isOpen, ?_, MemoryStore.nodup_map_put r h.nodup, ?_, ?_⟩
  · rw [hput, List.map_append, ← h.executions]
    rfl
  · rw [hput]
    intro r' hr'
    rcases List.mem_append.mp hr' with hr' | hr'
    · exact h.storable r' hr'
    · rw [List.mem_singleton.mp hr']
      exact hf.1
  · rw [hput]
    intro r' hr'
    rcases List.mem_append.mp hr' with hr' | hr'
    · exact (h.mono _).origin r' hr'
    · rw [List.mem_singleton.mp hr']
      exact ⟨r, mem_appended_append calls r, .refl r⟩

/-! ### Updated records -/

/-- A new version agrees with the record that it is a version of. -/
theorem sameOrigin (h : RowsMirror calls d m) (hf : (LogCall.update r).Follows calls)
    (hs : stored ∈ m.records) (hid : stored.id = r.id) : r.SameOrigin stored := by
  obtain ⟨a, ha, hsame⟩ := h.origin stored hs
  exact (hf.2 a ha (hsame.id.symm.trans hid)).trans hsame.symm

theorem updateRecord_of_none (h : RowsMirror calls d m) (hs : m.findRecord r.id = none) :
    updateRecord d r = .error (.notFound .execution r.id) := by
  change d.answer (d.reviseRecord r) = _
  rw [h.answer_eq, Database.reviseRecord, h.row_eq, hs]
  rfl

theorem updateRecord_of_isTerminal (h : RowsMirror calls d m)
    (hs : m.findRecord r.id = some stored) (ht : stored.isTerminal) :
    updateRecord d r = .error (.transition ⟨stored.status, r.status⟩) := by
  change d.answer (d.reviseRecord r) = _
  rw [h.answer_eq, Database.reviseRecord, h.row_eq, hs]
  have htag : Column.tag ExecutionStatus.names stored.status.name = .ok stored.status :=
    Column.tag_eq_ok_iff.mpr stored.status.lookup_name
  simp only [Option.map_some, ExecutionRow.isOpen_ofRecord, ht, Bool.not_true]
  simp only [ExecutionRow.ofRecord, htag]
  rfl

theorem updateRecord_of_not_isTerminal (h : RowsMirror calls d m)
    (hs : m.findRecord r.id = some stored) (ht : ¬ stored.isTerminal) :
    updateRecord d r = .ok { d with
      executions := d.executions.map fun row => if row.id = r.id then row.revise r else row } := by
  change d.answer (d.reviseRecord r) = _
  rw [h.answer_eq, Database.reviseRecord, h.row_eq, hs]
  simp only [Option.map_some, ExecutionRow.isOpen_ofRecord, ht, Bool.not_false, if_true]

/-- The row of a new version becomes the one that belongs to it. -/
theorem update (h : RowsMirror calls d m) (hf : (LogCall.update r).Follows calls)
    (hs : m.findRecord r.id = some stored) :
    RowsMirror (calls ++ [.update r])
      { d with
        executions := d.executions.map fun row => if row.id = r.id then row.revise r else row }
      (m.putRecord r) := by
  have hmem : r.id ∈ m.records.map ExecutionRecord.id :=
    List.mem_map.mpr ⟨stored, List.mem_of_find?_eq_some hs, by simpa using List.find?_some hs⟩
  have hput : (m.putRecord r).records =
      m.records.map fun b => if b.id = r.id then r else b :=
    MemoryStore.put_of_mem h.nodup hmem
  refine ⟨h.isOpen, ?_, MemoryStore.nodup_map_put r h.nodup, ?_, ?_⟩
  · rw [hput, List.map_map]
    change d.executions.map _ = _
    rw [h.executions, List.map_map]
    refine List.map_congr_left fun b hb => ?_
    simp only [Function.comp]
    by_cases hid : b.id = r.id
    · rw [if_pos hid, if_pos (show (ExecutionRow.ofRecord b).id = r.id from hid)]
      exact ExecutionRow.revise_ofRecord (h.sameOrigin hf hb hid)
    · rw [if_neg hid, if_neg (show ¬ (ExecutionRow.ofRecord b).id = r.id from hid)]
  · rw [hput]
    intro r' hr'
    obtain ⟨b, hb, rfl⟩ := List.mem_map.mp hr'
    split
    · exact hf.1
    · exact h.storable b hb
  · rw [hput]
    intro r' hr'
    obtain ⟨b, hb, rfl⟩ := List.mem_map.mp hr'
    obtain ⟨a, ha, hba⟩ := (h.mono (.update r)).origin b hb
    split
    · next hid => exact ⟨a, ha, (h.sameOrigin hf hb hid).trans hba⟩
    · exact ⟨a, ha, hba⟩

/-! ### Abandoned records -/

theorem abandonOpen_eq (h : RowsMirror calls d m) (now : Timestamp) : abandonOpen d now =
    .ok (m.openCount, { d with executions := d.executions.map (ExecutionRow.abandon now) }) := by
  change d.answer _ = _
  rw [h.answer_eq, h.executions, List.filter_map, List.length_map]
  have hopen : ExecutionRow.isOpen ∘ ExecutionRow.ofRecord = fun r => !r.isTerminal :=
    funext ExecutionRow.isOpen_ofRecord
  rw [hopen]
  rfl

/-- The rows of abandoned records become those that belong to them. -/
theorem abandon (h : RowsMirror calls d m) (hn : now.HasFourDigitYear) :
    RowsMirror (calls ++ [.abandon now])
      { d with executions := d.executions.map (ExecutionRow.abandon now) }
      { m with records := m.records.map (MemoryStore.abandon now) } := by
  refine ⟨h.isOpen, ?_, ?_, ?_, ?_⟩
  · change d.executions.map _ = _
    rw [h.executions, List.map_map, List.map_map]
    exact List.map_congr_left fun r _ => ExecutionRow.abandon_ofRecord
  · have hid : ExecutionRecord.id ∘ MemoryStore.abandon now = ExecutionRecord.id :=
      funext fun r => ExecutionRecord.sameOrigin_abandon.id
    rw [List.map_map, hid]
    exact h.nodup
  · intro r' hr'
    obtain ⟨r, hr, rfl⟩ := List.mem_map.mp hr'
    exact (h.storable r hr).abandon hn
  · intro r' hr'
    obtain ⟨r, hr, rfl⟩ := List.mem_map.mp hr'
    obtain ⟨a, ha, hra⟩ := (h.mono (.abandon now)).origin r hr
    exact ⟨a, ha, ExecutionRecord.sameOrigin_abandon.trans hra⟩

end RowsMirror

/-! ### Calls are answered alike -/

/-- The next call is answered alike, and the rows stay those of the records. -/
theorem perform_refines (h : RowsMirror calls d m) (hc : c.Follows calls) :
    (perform d c).1 = (perform m c).1.map LogAnswer.kept ∧
      RowsMirror (calls ++ [c]) (perform d c).2 (perform m c).2 := by
  cases c with
  | append r =>
    rw [perform, perform, h.appendRecord_eq hc]
    exact ⟨rfl, h.append hc⟩
  | update r =>
    cases hs : m.findRecord r.id with
    | none =>
      rw [perform, perform, h.updateRecord_of_none hs, m.updateRecord_of_none hs]
      exact ⟨rfl, h.mono _⟩
    | some stored =>
      by_cases ht : stored.isTerminal
      · rw [perform, perform, h.updateRecord_of_isTerminal hs ht,
          m.updateRecord_of_isTerminal hs ht]
        exact ⟨rfl, h.mono _⟩
      · rw [perform, perform, h.updateRecord_of_not_isTerminal hs ht,
          m.updateRecord_of_not_isTerminal hs ht]
        exact ⟨rfl, h.update hc hs⟩
  | find id =>
    rw [perform, perform, h.recordById_eq]
    exact ⟨rfl, h.mono _⟩
  | abandon now =>
    rw [perform, perform, h.abandonOpen_eq]
    exact ⟨rfl, h.abandon hc⟩

/-- Sequences of calls are answered alike, and the rows are those of the records. -/
theorem performAll_refines (hd : d.isOpen) (he : d.executions = []) (hm : m.records = [])
    (h : IsProper calls) :
    (performAll d calls).1 = (performAll m calls).1.map (Except.map LogAnswer.kept) ∧
      RowsMirror calls (performAll d calls).2 (performAll m calls).2 := by
  induction h with
  | nil =>
    have hnone : ∀ r, r ∉ m.records := by
      rw [hm]
      exact fun _ => List.not_mem_nil
    refine ⟨rfl, ⟨hd, ?_, ?_, fun r hr => absurd hr (hnone r), fun r hr => absurd hr (hnone r)⟩⟩
    · rw [performAll, performAll, he, hm]
      rfl
    · rw [performAll, hm]
      exact List.nodup_nil
  | concat _ hc ih =>
    obtain ⟨hanswers, hrows⟩ := ih
    obtain ⟨hanswer, hrows⟩ := perform_refines hrows hc
    rw [performAll_concat, performAll_concat, List.map_append, hanswers, hanswer]
    exact ⟨rfl, hrows⟩

/-! ### What is answered -/

/-- Whether a log in memory becomes one in which the records that had not ended are abandoned. -/
def Abandons (now : Timestamp) (m m' : MemoryStore) : Prop :=
  ∀ id, (m.findRecord id = none → m'.findRecord id = none) ∧
    ∀ r, m.findRecord id = some r →
      (r.isTerminal → m'.findRecord id = some r) ∧
        (¬ r.isTerminal →
          ∃ r', r.transition .abandoned now = .ok r' ∧ m'.findRecord id = some r')

theorem MemoryStore.abandons (m : MemoryStore) (now : Timestamp) :
    Abandons now m { m with records := m.records.map (abandon now) } := by
  intro id
  have hfind : { m with records := m.records.map (abandon now) }.findRecord id =
      (m.findRecord id).map (abandon now) := by
    have hid : (fun r : ExecutionRecord => decide (r.id = id)) ∘ abandon now =
        fun r => decide (r.id = id) :=
      funext fun r => by rw [Function.comp, ExecutionRecord.sameOrigin_abandon.id]
    rw [findRecord, List.find?_map, hid]
    rfl
  refine ⟨fun hn => ?_, fun r hr => ⟨fun ht => ?_, fun ht => ?_⟩⟩
  · rw [hfind, hn]
    rfl
  · rw [hfind, hr, Option.map_some, ExecutionRecord.abandon_of_isTerminal ht]
  · refine ⟨_, ExecutionRecord.transition_abandoned ht, ?_⟩
    rw [hfind, hr, Option.map_some, ExecutionRecord.abandon_of_not_isTerminal ht]

/-- Abandoned records are not abandoned again. -/
theorem MemoryStore.openCount_abandon (m : MemoryStore) (now : Timestamp) :
    { m with records := m.records.map (abandon now) }.openCount = 0 := by
  rw [openCount, List.length_eq_zero_iff, List.filter_eq_nil_iff]
  intro r' hr'
  obtain ⟨r, -, rfl⟩ := List.mem_map.mp hr'
  simp [ExecutionRecord.isTerminal_abandon]

/-- What a database and a store in memory answer to the next call. -/
structure LogsAgree (calls : List LogCall) (d : Database) (m : MemoryStore) : Prop where
  /-- A record is found with all that it has in memory but for the digits of three times. -/
  find (id : ExecutionId) : recordById m id = .ok (m.findRecord id) ∧
    recordById d id = .ok ((m.findRecord id).map ExecutionRecord.kept)
  /-- A record is appended. -/
  append {r : ExecutionRecord} (hc : (LogCall.append r).Follows calls) :
    (∃ m', appendRecord m r = .ok m') ∧ ∃ d', appendRecord d r = .ok d'
  /-- A new version of a record that is not there is refused. -/
  update_missing {r : ExecutionRecord} (hs : m.findRecord r.id = none) :
    perform m (.update r) = (.error (.notFound .execution r.id), m) ∧
      perform d (.update r) = (.error (.notFound .execution r.id), d)
  /-- A new version of a record that has ended is refused. -/
  update_terminal {r stored : ExecutionRecord} (hs : m.findRecord r.id = some stored)
    (ht : stored.isTerminal) :
    perform m (.update r) = (.error (.transition ⟨stored.status, r.status⟩), m) ∧
      perform d (.update r) = (.error (.transition ⟨stored.status, r.status⟩), d)
  /-- A new version of a record that has not ended is written. -/
  update_open {r stored : ExecutionRecord} (hc : (LogCall.update r).Follows calls)
    (hs : m.findRecord r.id = some stored) (ht : ¬ stored.isTerminal) :
    ∃ m' d', updateRecord m r = .ok m' ∧ updateRecord d r = .ok d' ∧
      ∀ id, m'.findRecord id = (if id = r.id then some r else m.findRecord id) ∧
        recordById d' id = .ok ((m'.findRecord id).map ExecutionRecord.kept)
  /-- The records that have not ended are counted and abandoned, and then there are none. -/
  abandon {now : Timestamp} (hn : now.HasFourDigitYear) :
    ∃ m' d', abandonOpen m now = .ok (m.openCount, m') ∧
      abandonOpen d now = .ok (m.openCount, d') ∧ Abandons now m m' ∧
      (∀ id, recordById d' id = .ok ((m'.findRecord id).map ExecutionRecord.kept)) ∧
      ∀ later, (∃ m'', abandonOpen m' later = .ok (0, m'')) ∧
        ∃ d'', abandonOpen d' later = .ok (0, d'')

theorem RowsMirror.logsAgree (h : RowsMirror calls d m) : LogsAgree calls d m where
  find id := ⟨rfl, h.recordById_eq id⟩
  append hc := ⟨⟨_, rfl⟩, _, h.appendRecord_eq hc⟩
  update_missing hs := by
    rw [perform, perform, h.updateRecord_of_none hs, m.updateRecord_of_none hs]
    exact ⟨rfl, rfl⟩
  update_terminal hs ht := by
    rw [perform, perform, h.updateRecord_of_isTerminal hs ht, m.updateRecord_of_isTerminal hs ht]
    exact ⟨rfl, rfl⟩
  update_open hc hs ht :=
    ⟨_, _, m.updateRecord_of_not_isTerminal hs ht, h.updateRecord_of_not_isTerminal hs ht,
      fun id => ⟨m.findRecord_putRecord _ id, (h.update hc hs).recordById_eq id⟩⟩
  abandon {now} hn := by
    have hlater := h.abandon hn
    refine ⟨_, _, m.abandonOpen_eq now, h.abandonOpen_eq now, m.abandons now,
      hlater.recordById_eq, fun later => ?_⟩
    have hm := { m with records := m.records.map (MemoryStore.abandon now) }.abandonOpen_eq later
    have hd := hlater.abandonOpen_eq later
    rw [m.openCount_abandon now] at hm hd
    exact ⟨⟨_, hm⟩, _, hd⟩

/-- From empty logs on, a database answers calls as a store in memory does, up to the digits of the
times that it keeps, and goes on to do so. -/
theorem logsAgree_of_isProper (hd : d.isOpen) (he : d.executions = []) (hm : m.records = [])
    (h : IsProper calls) :
    (performAll d calls).1 = (performAll m calls).1.map (Except.map LogAnswer.kept) ∧
      LogsAgree calls (performAll d calls).2 (performAll m calls).2 := by
  obtain ⟨hanswers, hrows⟩ := performAll_refines hd he hm h
  exact ⟨hanswers, hrows.logsAgree⟩

/-! ### The log of one execution -/

namespace Sample

/-- A record that starts between two microseconds. -/
def startedRecord : ExecutionRecord :=
  { record rule with startedAt := (Timestamp.of? 0 1500).getD .epoch }

/-- A record is appended, evaluated, abandoned, completed too late, and looked up. -/
def logCalls : List LogCall :=
  [.append startedRecord, .update { startedRecord with status := .evaluating }, .abandon .epoch,
    .update { startedRecord with status := .completed }, .find startedRecord.id]

theorem isProper_logCalls : IsProper logCalls := by
  have hepoch : Timestamp.epoch.HasFourDigitYear := by decide +kernel
  have hr : startedRecord.IsStorable := by
    refine ⟨?_, by decide +kernel, by decide +kernel, ?_, ?_, ?_, by decide +kernel, ?_⟩
    all_goals
      intro _ h
      cases h
  have hs (status : ExecutionStatus) : { startedRecord with status }.IsStorable :=
    ⟨hr.tick, hr.conditions, hr.steps, hr.stepOrder, hr.stepTimes, hr.delayedUntil, hr.startedAt,
      hr.finishedAt⟩
  have hu (status : ExecutionStatus) (calls : List LogCall)
      (ha : appended calls = [startedRecord]) :
      (LogCall.update { startedRecord with status }).Follows calls := by
    refine ⟨hs status, fun a hm _ => ?_⟩
    rw [ha] at hm
    rw [List.mem_singleton.mp hm]
    exact ⟨rfl, rfl, rfl, rfl, rfl, rfl, rfl⟩
  have happend : IsProper [.append startedRecord] := .concat .nil ⟨hr, fun _ h => nomatch h⟩
  have hevaluate := happend.concat (hu .evaluating _ rfl)
  have habandon := hevaluate.concat (c := .abandon .epoch) hepoch
  have hcomplete := habandon.concat (hu .completed _ rfl)
  exact hcomplete.concat (c := .find startedRecord.id) trivial

end Sample

/-- The log of an execution that is abandoned in a database and in memory. -/
theorem logsAgree_of_isProper_logCalls :
    IsProper Sample.logCalls ∧
      (performAll ({} : Database) Sample.logCalls).1 =
        (performAll ({} : MemoryStore) Sample.logCalls).1.map (Except.map LogAnswer.kept) ∧
      LogsAgree Sample.logCalls (performAll ({} : Database) Sample.logCalls).2
        (performAll ({} : MemoryStore) Sample.logCalls).2 :=
  ⟨Sample.isProper_logCalls, logsAgree_of_isProper rfl rfl rfl Sample.isProper_logCalls⟩

end RuleEngine
