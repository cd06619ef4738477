import RuleEngine.Proofs.Cron.Grammar

/-!
# The faults of cron expressions

A text of five fields that is no expression is refused with the fault of one field, and of one entry
of it. Within an entry the step is looked at before the range, the first value of a range before the
last, and their order comes last; within a field the first malformed entry counts. The fields are
not read in the order in which they are written: the day of the week is read before the others. So
the fault that is reported is that of the leftmost malformed field only if that is the day of the
week, or the day of the week is well-formed.

## Main definitions

* `Cron.ValueFault`, `Cron.RangeFault`, `Cron.EntryFault`, `Cron.FieldFault`: what is wrong with a
  text that is not what it should be.
* `Cron.Field.written`, `Cron.Field.readingOrder`: the fields as they are written, and as they are
  read.
* `Cron.FirstFault`: the first malformed field in an order, and its fault.

## Main results

* `Cron.readEntry_eq_error_iff`, `Cron.readField_eq_error_iff`: entries and fields are refused with
  their faults.
* `CronExpression.parse_fault_of_hasFields`: the fault of a text of five fields, and when it is the
  fault of the leftmost malformed one.
-/

namespace RuleEngine

namespace Cron

/-! ### Errors of sequences -/

theorem bind_eq_error_iff {ε α β : Type} {x : Except ε α} {g : α → Except ε β} {e : ε} :
    x >>= g = .error e ↔ x = .error e ∨ ∃ y, x = .ok y ∧ g y = .error e := by
  cases x with
  | error e' => simp [bind, Except.bind]
  | ok y => simp [bind, Except.bind]

/-- A list is refused for its first element that is. -/
theorem mapM_eq_error_iff {ε α β : Type} {g : α → Except ε β} {l : List α} {e : ε} :
    l.mapM g = .error e ↔ ∃ before a after, l = before ++ a :: after ∧
      (∀ b ∈ before, ∃ y, g b = .ok y) ∧ g a = .error e := by
  induction l with
  | nil =>
    constructor
    · intro h
      cases h
    · rintro ⟨before, a, after, h, -⟩
      simp at h
  | cons b l ih =>
    rw [List.mapM_cons, bind_eq_error_iff]
    constructor
    · rintro (h | ⟨y, hy, h⟩)
      · exact ⟨[], b, l, rfl, by simp, h⟩
      · obtain h | ⟨_, -, h⟩ := bind_eq_error_iff.mp h
        · obtain ⟨before, a, after, rfl, hok, ha⟩ := ih.mp h
          exact ⟨b :: before, a, after, rfl, List.forall_mem_cons.mpr ⟨⟨y, hy⟩, hok⟩, ha⟩
        · cases h
    · rintro ⟨before, a, after, h, hok, ha⟩
      cases before with
      | nil =>
        cases h
        exact .inl ha
      | cons c before =>
        cases h
        obtain ⟨⟨y, hy⟩, hok⟩ := List.forall_mem_cons.mp hok
        exact .inr ⟨y, hy, bind_eq_error_iff.mpr (.inl (ih.mpr ⟨before, a, after, rfl, hok, ha⟩))⟩

/-! ### What is wrong with a text -/

/-- What is wrong with a text that is no value of a field: it is neither a number nor a name, or
it is outside the range of the field. -/
inductive ValueFault (f : Field) (cs : List Char) : Fault → Prop
  | unspelled (h : ∀ v, ¬(IsNumber cs v ∨ IsName f cs v)) :
      ValueFault f cs (.invalidValue f (String.ofList cs))
  | outside {v : Nat} (h : IsNumber cs v ∨ IsName f cs v) (hv : v < f.least ∨ f.greatest < v) :
      ValueFault f cs (.outOfRange f v)

/-- What is wrong with a text that is no range of a field: its value is malformed, or that before
the hyphen is, or only that behind it is, or the two are in the wrong order. -/
inductive RangeFault (f : Field) : List Char → Fault → Prop
  | value {cs fault} (hne : cs ≠ ['*']) (hc : '-' ∉ cs) (h : ValueFault f cs fault) :
      RangeFault f cs fault
  | first {as bs fault} (hc : '-' ∉ as) (h : ValueFault f as fault) :
      RangeFault f (as ++ '-' :: bs) fault
  | last {as bs a fault} (ha : IsValue f as a) (h : ValueFault f bs fault) :
      RangeFault f (as ++ '-' :: bs) fault
  | reversed {as bs a b} (ha : IsValue f as a) (hb : IsValue f bs b) (hab : b < a) :
      RangeFault f (as ++ '-' :: bs) (.reversedRange f a b)

/-- What is wrong with a text that is no entry of a field: it is empty, its step is no positive
number, or its range is malformed and its step, if there is one, is not. -/
inductive EntryFault (f : Field) : List Char → Fault → Prop
  | empty : EntryFault f [] (.emptyEntry f)
  | range {cs fault} (hne : cs ≠ []) (hc : '/' ∉ cs) (h : RangeFault f cs fault) :
      EntryFault f cs fault
  | step {cs ds} (hc : '/' ∉ cs) (h : ∀ s, ¬(IsNumber ds s ∧ 0 < s)) :
      EntryFault f (cs ++ '/' :: ds) (.invalidStep f (String.ofList ds))
  | stepped {cs ds s fault} (hc : '/' ∉ cs) (hs : IsNumber ds s) (hpos : 0 < s)
      (h : RangeFault f cs fault) : EntryFault f (cs ++ '/' :: ds) fault

/-- What is wrong with a text that is no field: the fault of its first malformed entry. -/
def FieldFault (f : Field) (cs : List Char) (fault : Fault) : Prop :=
  ∃ before entry after, Text.pieces (· == ',') cs = before ++ entry :: after ∧
    (∀ p ∈ before, ∃ e, IsEntry f p e) ∧ EntryFault f entry fault

/-- The field that a fault is about. -/
def Fault.field? : Fault → Option Field
  | .fieldCount _ | .unknownMacro _ => none
  | .emptyEntry f | .invalidValue f _ | .outOfRange f _ | .invalidStep f _ |
    .reversedRange f _ _ => some f

variable {f : Field} {cs : List Char} {fault : Fault}

theorem ValueFault.field?_eq (h : ValueFault f cs fault) : fault.field? = some f := by
  cases h <;> rfl

theorem RangeFault.field?_eq (h : RangeFault f cs fault) : fault.field? = some f := by
  cases h with
  | value _ _ h => exact h.field?_eq
  | first _ h => exact h.field?_eq
  | last _ h => exact h.field?_eq
  | reversed => rfl

/-- The fault of a field names the field. -/
theorem FieldFault.field?_eq (h : FieldFault f cs fault) : fault.field? = some f := by
  obtain ⟨-, entry, -, -, -, h⟩ := h
  cases h with
  | empty => rfl
  | range _ _ h => exact h.field?_eq
  | step => rfl
  | stepped _ _ _ h => exact h.field?_eq

/-! ### Texts are refused with their faults -/

theorem readValue_eq_error_iff : readValue f cs = .error fault ↔ ValueFault f cs fault := by
  rw [readValue_eq_elim]
  constructor
  · intro h
    cases hw : (Text.readUnsigned? numberLimit cs).or (f.named? cs) with
    | none =>
      rw [hw] at h
      cases h
      exact .unspelled fun v hv => by
        rw [or_named?_eq_some_iff.mpr hv] at hw
        cases hw
    | some v =>
      rw [hw, Option.elim_some] at h
      split at h
      · next hout =>
        cases h
        rw [Bool.or_eq_true, decide_eq_true_eq, decide_eq_true_eq] at hout
        exact .outside (or_named?_eq_some_iff.mp hw) hout
      · cases h
  · rintro (h | ⟨h, hv⟩)
    · have hw : (Text.readUnsigned? numberLimit cs).or (f.named? cs) = none :=
        Option.eq_none_iff_forall_ne_some.mpr fun v hv => h v (or_named?_eq_some_iff.mp hv)
      rw [hw]
      rfl
    · rw [or_named?_eq_some_iff.mpr h, Option.elim_some, if_pos (by simpa using hv)]

section

variable {stepped : Bool} {s : Nat}

theorem readRange_of_cut_none (hne : cs ≠ ['*']) (hc : Text.cut '-' cs = none) :
    readRange f stepped cs =
      readValue f cs >>= fun v => .ok (v, if stepped then f.greatest else v) := by
  rw [readRange, if_neg hne, hc]

theorem readRange_of_cut_some {as bs : List Char} (hc : Text.cut '-' cs = some (as, bs)) :
    readRange f stepped cs =
      readValue f as >>= fun a => readValue f bs >>= fun b => .ok (a, b) := by
  have hne : cs ≠ ['*'] := by
    rintro rfl
    cases hc
  rw [readRange, if_neg hne, hc]

theorem entryOfRange_eq_error_iff {range : Nat × Nat} :
    entryOfRange f s range = .error fault ↔
      range.2 < range.1 ∧ fault = .reversedRange f range.1 range.2 := by
  rw [entryOfRange]
  split
  · next h => simp [h, eq_comm]
  · next h => simp [h]

/-- Ranges are refused with their faults, with a step behind them or without one. -/
theorem bind_entryOfRange_eq_error_iff :
    readRange f stepped cs >>= entryOfRange f s = .error fault ↔ RangeFault f cs fault := by
  constructor
  · intro h
    cases hc : Text.cut '-' cs with
    | none =>
      by_cases hstar : cs = ['*']
      · subst hstar
        obtain ⟨hr, -⟩ := entryOfRange_eq_error_iff.mp h
        exact absurd hr (by cases f <;> decide)
      · rw [readRange_of_cut_none hstar hc] at h
        obtain h | ⟨range, hr, h⟩ := bind_eq_error_iff.mp h
        · obtain h | ⟨v, -, h⟩ := bind_eq_error_iff.mp h
          · exact .value hstar (Text.cut_eq_none_iff.mp hc) (readValue_eq_error_iff.mp h)
          · cases h
        · -- one value is not behind the end of its field
          obtain ⟨v, hv, hr⟩ := bind_eq_ok_iff.mp hr
          cases hr
          obtain ⟨hlt, -⟩ := entryOfRange_eq_error_iff.mp h
          have hle := (readValue_eq_ok_iff.mp hv).le_greatest
          cases stepped
          · exact absurd hlt (Nat.lt_irrefl v)
          · exact absurd hlt (Nat.not_lt.mpr hle)
    | some parts =>
      obtain ⟨as, bs⟩ := parts
      rw [readRange_of_cut_some hc] at h
      obtain ⟨rfl, has⟩ := Text.cut_eq_some_iff.mp hc
      obtain h | ⟨range, hr, h⟩ := bind_eq_error_iff.mp h
      · obtain h | ⟨a, ha, h⟩ := bind_eq_error_iff.mp h
        · exact .first has (readValue_eq_error_iff.mp h)
        · obtain h | ⟨b, -, h⟩ := bind_eq_error_iff.mp h
          · exact .last (readValue_eq_ok_iff.mp ha) (readValue_eq_error_iff.mp h)
          · cases h
      · obtain ⟨a, ha, hr⟩ := bind_eq_ok_iff.mp hr
        obtain ⟨b, hb, hr⟩ := bind_eq_ok_iff.mp hr
        cases hr
        obtain ⟨hlt, rfl⟩ := entryOfRange_eq_error_iff.mp h
        exact .reversed (readValue_eq_ok_iff.mp ha) (readValue_eq_ok_iff.mp hb) hlt
  · intro h
    cases h with
    | value hne hc h =>
      rw [readRange_of_cut_none hne (Text.cut_eq_none_iff.mpr hc), readValue_eq_error_iff.mpr h]
      rfl
    | first hc h =>
      rw [readRange_of_cut_some (Text.cut_append_cons hc), readValue_eq_error_iff.mpr h]
      rfl
    | last ha h =>
      rw [readRange_of_cut_some (Text.cut_append_cons (ha.not_mem (by decide))),
        readValue_eq_ok_iff.mpr ha, readValue_eq_error_iff.mpr h]
      rfl
    | reversed ha hb hab =>
      rw [readRange_of_cut_some (Text.cut_append_cons (ha.not_mem (by decide))),
        readValue_eq_ok_iff.mpr ha, readValue_eq_ok_iff.mpr hb]
      exact entryOfRange_eq_error_iff.mpr ⟨hab, rfl⟩

theorem readStep_eq_error_iff : readStep f cs = .error fault ↔
    (∀ s, ¬(IsNumber cs s ∧ 0 < s)) ∧ fault = .invalidStep f (String.ofList cs) := by
  cases h : readStep f cs with
  | ok s =>
    have hs := readStep_eq_ok_iff.mp h
    simp only [reduceCtorEq, false_iff]
    exact fun hn => hn.1 s hs
  | error found =>
    have hfound : found = .invalidStep f (String.ofList cs) := by
      rw [readStep] at h
      split at h
      · cases h; rfl
      · cases h; rfl
      · cases h
    have hn (s : Nat) : ¬(IsNumber cs s ∧ 0 < s) := fun hs => by
      rw [readStep_eq_ok_iff.mpr hs] at h
      cases h
    rw [hfound, Except.error.injEq]
    exact ⟨fun he => ⟨hn, he.symm⟩, fun he => he.2.symm⟩

end

/-- Entries are refused with their faults. -/
theorem readEntry_eq_error_iff : readEntry f cs = .error fault ↔ EntryFault f cs fault := by
  constructor
  · intro h
    cases hc : Text.cut '/' cs with
    | none =>
      by_cases hne : cs = []
      · subst hne
        cases h
        exact .empty
      · rw [readEntry_of_cut_none hne hc] at h
        exact .range hne (Text.cut_eq_none_iff.mp hc) (bind_entryOfRange_eq_error_iff.mp h)
    | some parts =>
      obtain ⟨range, ds⟩ := parts
      rw [readEntry_of_cut_some hc] at h
      obtain ⟨rfl, hslash⟩ := Text.cut_eq_some_iff.mp hc
      obtain h | ⟨s, hs, h⟩ := bind_eq_error_iff.mp h
      · obtain ⟨hn, rfl⟩ := readStep_eq_error_iff.mp h
        exact .step hslash hn
      · obtain ⟨hnumber, hpos⟩ := readStep_eq_ok_iff.mp hs
        exact .stepped hslash hnumber hpos (bind_entryOfRange_eq_error_iff.mp h)
  · intro h
    cases h with
    | empty => rfl
    | range hne hc h =>
      rw [readEntry_of_cut_none hne (Text.cut_eq_none_iff.mpr hc)]
      exact bind_entryOfRange_eq_error_iff.mpr h
    | step hc h =>
      rw [readEntry_of_cut_some (Text.cut_append_cons hc)]
      exact bind_eq_error_iff.mpr (.inl (readStep_eq_error_iff.mpr ⟨h, rfl⟩))
    | stepped hc hs hpos h =>
      rw [readEntry_of_cut_some (Text.cut_append_cons hc)]
      exact bind_eq_error_iff.mpr (.inr ⟨_, readStep_eq_ok_iff.mpr ⟨hs, hpos⟩,
        bind_entryOfRange_eq_error_iff.mpr h⟩)

/-- Fields are refused with the faults of their first malformed entries. -/
theorem readField_eq_error_iff : readField f cs = .error fault ↔ FieldFault f cs fault := by
  simp only [readField, mapM_eq_error_iff, readEntry_eq_ok_iff, readEntry_eq_error_iff, FieldFault]

/-- A text is a field, or there is something wrong with it. -/
theorem isField_or_fieldFault (f : Field) (cs : List Char) :
    (∃ es, IsField f cs es) ∨ ∃ fault, FieldFault f cs fault := by
  cases h : readField f cs with
  | ok es => exact .inl ⟨es, readField_eq_ok_iff.mp h⟩
  | error fault => exact .inr ⟨fault, readField_eq_error_iff.mp h⟩

/-! ### The first malformed field -/

/-- The fields in the order in which they are written. -/
def Field.written : List Field := [.minute, .hour, .dayOfMonth, .month, .dayOfWeek]

/-- The fields in the order in which they are read. -/
def Field.readingOrder : List Field := [.dayOfWeek, .minute, .hour, .dayOfMonth, .month]

variable {t : Field → List Char} {order after : List Field}

/-- Whether a field is the first malformed one in an order, with its fault and the fields behind
it. -/
def FirstFault (order : List Field) (t : Field → List Char) (f : Field) (after : List Field)
    (fault : Fault) : Prop :=
  ∃ before, order = before ++ f :: after ∧ (∀ g ∈ before, ∃ es, IsField g (t g) es) ∧
    FieldFault f (t f) fault

theorem mapM_readField_eq_error_iff :
    (order.mapM fun f => readField f (t f)) = .error fault ↔
      ∃ f after, FirstFault order t f after fault := by
  simp only [mapM_eq_error_iff, readField_eq_ok_iff, readField_eq_error_iff, FirstFault]
  constructor
  · rintro ⟨before, f, after, h⟩
    exact ⟨f, after, before, h⟩
  · rintro ⟨f, after, before, h⟩
    exact ⟨before, f, after, h⟩

/-- If one field only is malformed then it is the first one in every order. -/
theorem exists_firstFault_of_only (hf : f ∈ order)
    (hok : ∀ g, g ≠ f → ∃ es, IsField g (t g) es) (h : FieldFault f (t f) fault) :
    ∃ after, FirstFault order t f after fault := by
  obtain ⟨before, after, horder, hbefore⟩ := List.eq_append_cons_of_mem hf
  exact ⟨after, before, horder, fun g hg => hok g fun hgf => hbefore (hgf ▸ hg), h⟩

/-- A list of fields with a malformed one has a first malformed one. -/
theorem exists_firstFault (hf : f ∈ order) (h : FieldFault f (t f) fault) :
    ∃ f after fault, FirstFault order t f after fault := by
  induction order with
  | nil => cases hf
  | cons g order ih =>
    rcases isField_or_fieldFault g (t g) with hg | ⟨found, hg⟩
    · have hne : f ≠ g := by
        rintro rfl
        obtain ⟨es, hes⟩ := hg
        have hread := readField_eq_ok_iff.mpr hes
        rw [readField_eq_error_iff.mpr h] at hread
        cases hread
      obtain ⟨f', after, fault', before, rfl, hok, hfault⟩ :=
        ih ((List.mem_cons.mp hf).resolve_left hne)
      exact ⟨f', after, fault', g :: before, rfl, List.forall_mem_cons.mpr ⟨hg, hok⟩, hfault⟩
    · exact ⟨g, order, found, [], rfl, by simp, hg⟩

/-- The fields with an asterisk in place of each one of a list. -/
def starred (after : List Field) (t : Field → List Char) : Field → List Char :=
  fun f => if f ∈ after then ['*'] else t f

theorem isField_star (f : Field) : IsField f ['*'] [⟨f.least, f.greatest, 1⟩] :=
  .single (.plain .all)

/-- Every field is written, and once only. -/
theorem Field.of_written_eq {before : List Field} (h : written = before ++ f :: after) :
    f ∉ after ∧ ∀ g, g ≠ f → g ∈ before ∨ g ∈ after := by
  have hnodup : written.Nodup := by decide
  rw [h] at hnodup
  refine ⟨(List.nodup_cons.mp (List.nodup_append.mp hnodup).2.1).1, fun g hg => ?_⟩
  have hmem : g ∈ written := by cases g <;> decide
  rw [h] at hmem
  simpa [hg] using hmem

/-- With asterisks behind it, the leftmost malformed field is the only one. -/
theorem FirstFault.starred (h : FirstFault Field.written t f after fault) :
    (∀ g, g ≠ f → ∃ es, IsField g (starred after t g) es) ∧
      FieldFault f (starred after t f) fault := by
  obtain ⟨before, hw, hok, hfault⟩ := h
  obtain ⟨hf, hg⟩ := Field.of_written_eq hw
  refine ⟨fun g hne => ?_, ?_⟩
  · by_cases ha : g ∈ after
    · rw [Cron.starred, if_pos ha]
      exact ⟨_, isField_star g⟩
    · rw [Cron.starred, if_neg ha]
      exact hok g ((hg g hne).resolve_right ha)
  · rw [Cron.starred, if_neg hf]
    exact hfault

/-- The leftmost malformed field is the first one that is read if it is the day of the week or the
day of the week is well-formed. -/
theorem FirstFault.readingOrder (h : FirstFault Field.written t f after fault)
    (hd : f = .dayOfWeek ∨ ∃ es, IsField .dayOfWeek (t .dayOfWeek) es) :
    ∃ after, FirstFault Field.readingOrder t f after fault := by
  obtain ⟨before, hw, hok, hfault⟩ := h
  have hsplit : Field.written = [.minute, .hour, .dayOfMonth, .month] ++ [.dayOfWeek] := rfl
  rw [hsplit] at hw
  rcases List.eq_nil_or_concat after with rfl | ⟨others, g, rfl⟩
  · -- the day of the week is the only malformed field
    obtain ⟨rfl, hf⟩ := List.append_inj' hw rfl
    cases hf
    refine exists_firstFault_of_only (by decide) (fun g hg => hok g ?_) hfault
    cases g <;> first | decide | exact absurd rfl hg
  · rw [List.concat_eq_append, ← List.cons_append, ← List.append_assoc] at hw
    obtain ⟨hothers, hg⟩ := List.append_inj' hw rfl
    have hne : f ≠ .dayOfWeek := by
      rintro rfl
      have hm : Field.dayOfWeek ∈ [Field.minute, .hour, .dayOfMonth, .month] := by
        rw [hothers]
        simp
      exact absurd hm (by decide)
    have hweek := hd.resolve_left hne
    exact ⟨others, .dayOfWeek :: before, congrArg (List.cons Field.dayOfWeek) hothers,
      List.forall_mem_cons.mpr ⟨hweek, hok⟩, hfault⟩

/-- The day of the week is well-formed if another field is the first malformed one that is read. -/
theorem FirstFault.isField_dayOfWeek (h : FirstFault Field.readingOrder t f after fault)
    (hne : f ≠ .dayOfWeek) : ∃ es, IsField .dayOfWeek (t .dayOfWeek) es := by
  obtain ⟨before, hr, hok, -⟩ := h
  cases before with
  | nil =>
    cases hr
    exact absurd rfl hne
  | cons g before =>
    obtain ⟨rfl, -⟩ := List.cons.inj hr
    exact hok _ List.mem_cons_self

/-- The fields of a text can be replaced by asterisks. -/
theorem HasFields.exists_starred (h : HasFields cs t) (after : List Field) :
    ∃ masked : String, HasFields masked.toList (Cron.starred after t) := by
  have hword (f : Field) : Cron.starred after t f ≠ [] ∧
      ∀ c ∈ Cron.starred after t f, Text.isBlank c = false := by
    rw [Cron.starred]
    split
    · refine ⟨List.cons_ne_nil _ _, fun c hc => ?_⟩
      obtain rfl := List.mem_singleton.mp hc
      rfl
    · exact h.1.isWord _ (by cases f <;> simp [wordsOf])
  have hwords : ∀ w ∈ wordsOf (Cron.starred after t),
      w ≠ [] ∧ ∀ c ∈ w, Text.isBlank c = false := by
    intro w hw
    simp only [wordsOf, List.mem_cons, List.not_mem_nil, or_false] at hw
    rcases hw with rfl | rfl | rfl | rfl | rfl <;> exact hword _
  obtain ⟨masked, hm⟩ := Text.exists_spaced hwords
  refine ⟨String.ofList masked, by rwa [String.toList_ofList], ?_⟩
  rw [Cron.starred]
  split
  · decide
  · exact h.2

end Cron

namespace CronExpression

open Cron

variable {text : String} {t : Field → List Char} {f : Field} {after : List Field} {fault : Fault}

/-- Five texts are refused for the first one that is malformed in the order in which they are
read. -/
theorem ofFields_eq_error_iff {source : String} :
    ofFields source (t .minute) (t .hour) (t .dayOfMonth) (t .month) (t .dayOfWeek) =
      .error fault ↔ ∃ f after, FirstFault Field.readingOrder t f after fault := by
  rw [← mapM_readField_eq_error_iff]
  simp only [ofFields, Field.readingOrder, List.mapM_cons, List.mapM_nil, bind_eq_error_iff]
  simp [pure, Except.pure]

theorem parse_eq_error_iff (h : HasFields text.toList t) :
    parse text = .error fault ↔ ∃ f after, FirstFault Field.readingOrder t f after fault := by
  rw [parse_of_spells (.inr h), ofFields_eq_error_iff]

/-- A text of five fields is refused with the fault of the first malformed field in the order in
which the fields are read, of which the day of the week is the first; if it is refused then one
field is the leftmost malformed one, and the text with an asterisk for every field to the right of
it is refused with the fault of that field. The text itself is refused with this fault if and only
if the field is the day of the week, or the day of the week is well-formed. -/
theorem parse_fault_of_hasFields (h : HasFields text.toList t) :
    (∀ fault, parse text = .error fault ↔
      ∃ f after, FirstFault Field.readingOrder t f after fault) ∧
    ((∃ fault, parse text = .error fault) ↔
      ∃ f after named, FirstFault Field.written t f after named) ∧
    ∀ f after named, FirstFault Field.written t f after named →
      (∃ masked : String, HasFields masked.toList (starred after t)) ∧
      (∀ masked : String, HasFields masked.toList (starred after t) →
        parse masked = .error named) ∧
      (parse text = .error named ↔
        f = .dayOfWeek ∨ ∃ es, IsField .dayOfWeek (t .dayOfWeek) es) := by
  refine ⟨fun fault => parse_eq_error_iff h, ?_, fun f after named hf =>
    ⟨h.exists_starred after, fun masked hm => ?_, fun hp => ?_, fun hd => ?_⟩⟩
  · constructor
    · rintro ⟨fault, hp⟩
      obtain ⟨f, -, -, -, -, hfault⟩ := (parse_eq_error_iff h).mp hp
      have hmem : f ∈ Field.written := by cases f <;> decide
      exact exists_firstFault hmem hfault
    · rintro ⟨f, after, named, -, -, -, hfault⟩
      have hmem : f ∈ Field.readingOrder := by cases f <;> decide
      obtain ⟨f, after, fault, hfirst⟩ := exists_firstFault hmem hfault
      exact ⟨fault, (parse_eq_error_iff h).mpr ⟨f, after, hfirst⟩⟩
  · obtain ⟨hok, hfault⟩ := hf.starred
    exact (parse_eq_error_iff hm).mpr
      ⟨f, exists_firstFault_of_only (by cases f <;> decide) hok hfault⟩
  · obtain ⟨f', after', hr⟩ := (parse_eq_error_iff h).mp hp
    have hsame : f' = f := by
      obtain ⟨-, -, -, hfault⟩ := hf
      obtain ⟨-, -, -, hfault'⟩ := id hr
      exact Option.some.inj (hfault'.field?_eq.symm.trans hfault.field?_eq)
    by_cases hne : f = .dayOfWeek
    · exact .inl hne
    · exact .inr (hr.isField_dayOfWeek (hsame ▸ hne))
  · exact (parse_eq_error_iff h).mpr ⟨f, hf.readingOrder hd⟩

end CronExpression

/-! ### A text with two malformed fields -/

namespace Sample

/-- A minute and a day of the week that are both out of range. -/
def malformedFields : Cron.Field → List Char :=
  Cron.fiveFields "60" "*" "*" "*" "8"

/-- The fields behind the minute. -/
def behindMinute : List Cron.Field := [.hour, .dayOfMonth, .month, .dayOfWeek]

end Sample

/-- Of two malformed fields the day of the week is reported, and the minute only once the day of the
week is replaced. -/
theorem CronExpression.parse_fault_of_hasFields_malformedFields :
    Cron.HasFields "60 * * * 8".toList Sample.malformedFields ∧
      Cron.FirstFault Cron.Field.written Sample.malformedFields .minute Sample.behindMinute
        (.outOfRange .minute 60) ∧
      parse "60 * * * *" = .error (.outOfRange .minute 60) ∧
      parse "60 * * * 8" ≠ .error (.outOfRange .minute 60) := by
  have h : Cron.HasFields "60 * * * 8".toList Sample.malformedFields :=
    ⟨Text.spaced_iff.mpr (by decide +kernel), by decide⟩
  have hfirst : Cron.FirstFault Cron.Field.written Sample.malformedFields .minute
      Sample.behindMinute (.outOfRange .minute 60) :=
    ⟨[], rfl, by simp, Cron.readField_eq_error_iff.mp rfl⟩
  have hmasked : Cron.HasFields "60 * * * *".toList
      (Cron.starred Sample.behindMinute Sample.malformedFields) :=
    ⟨Text.spaced_iff.mpr (by decide +kernel), by decide⟩
  obtain ⟨-, hparse, hiff⟩ := (parse_fault_of_hasFields h).2.2 _ _ _ hfirst
  refine ⟨h, hfirst, hparse _ hmasked, fun hp => ?_⟩
  rcases hiff.mp hp with hm | ⟨es, hes⟩
  · cases hm
  · cases Cron.readField_eq_ok_iff.mpr hes

end RuleEngine
