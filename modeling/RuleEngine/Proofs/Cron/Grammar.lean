import RuleEngine.Cron
import RuleEngine.Proofs.Text.Numeral
import RuleEngine.Proofs.Text.Pieces

/-!
# The grammar of cron expressions

A text is a cron expression if it is one of seven macros, or has five fields with white space
between them. A field is a list of entries with commas between them, an entry is a range with a step
or without one, and a range is an asterisk, a value, or two values in ascending order. The grammar
is stated here by how texts are put together, together with the entries that they denote, and the
reader is proved to accept the texts of the grammar and no others.

## Main definitions

* `Cron.IsNumber`, `Cron.IsName`, `Cron.IsValue`: the values that are written in a field.
* `Cron.Spans`, `Cron.IsEntry`, `Cron.IsField`: ranges, entries and fields, with what they denote.
* `Cron.macros`: what the macros stand for.
* `Cron.IsMacro`, `Cron.HasFields`, `Cron.Spells`: the fields of a text.
* `Cron.IsExpression`: the texts of the grammar.

## Main results

* `Cron.readEntry_eq_ok_iff`, `Cron.readField_eq_ok_iff`: entries and fields are read as what they
  denote.
* `CronExpression.parse_of_spells`, `CronExpression.exists_spells_of_parse`: an expression is read
  from the fields of its text.
* `CronExpression.parse_isExpression`: the texts of the grammar are read, and no others.
-/

namespace RuleEngine

namespace Cron

/-! ### The texts of fields -/

/-- Whether a text is a number of at most 32 bits: digits, perhaps with a plus sign in front. -/
def IsNumber (cs : List Char) (n : Nat) : Prop :=
  ∃ ds, (cs = ds ∨ cs = '+' :: ds) ∧ ds ≠ [] ∧ (∀ c ∈ ds, Text.isDigit c) ∧
    n = Text.digitsValue ds ∧ n < 2 ^ 32

/-- Whether a text is the name of a value of a field, in any case of the ASCII letters. -/
def IsName (f : Field) (cs : List Char) (v : Nat) : Prop :=
  ∃ name, (name, v) ∈ f.names ∧ Text.asciiLower cs = Text.asciiLower name.toList

/-- Whether a text is a value of a field: a number or a name, inside the range of the field. -/
structure IsValue (f : Field) (cs : List Char) (v : Nat) : Prop where
  spelled : IsNumber cs v ∨ IsName f cs v
  least_le : f.least ≤ v
  le_greatest : v ≤ f.greatest

/-- Whether a text is a range of a field, with its first and last value. One value with a step
behind it stands for the range up to the end of the field. -/
inductive Spans (f : Field) : Bool → List Char → Nat → Nat → Prop
  | all {stepped : Bool} : Spans f stepped ['*'] f.least f.greatest
  | one {cs : List Char} {v : Nat} (h : IsValue f cs v) : Spans f false cs v v
  | onward {cs : List Char} {v : Nat} (h : IsValue f cs v) : Spans f true cs v f.greatest
  | between {stepped : Bool} {as bs : List Char} {a b : Nat} (ha : IsValue f as a)
      (hb : IsValue f bs b) (hab : a ≤ b) : Spans f stepped (as ++ '-' :: bs) a b

/-- Whether a text is an entry of a field: a range, or a range with a positive step behind a
slash. -/
inductive IsEntry (f : Field) : List Char → Entry → Prop
  | plain {cs : List Char} {a b : Nat} (h : Spans f false cs a b) : IsEntry f cs ⟨a, b, 1⟩
  | stepped {cs ds : List Char} {a b s : Nat} (h : Spans f true cs a b) (hs : IsNumber ds s)
      (hpos : 0 < s) : IsEntry f (cs ++ '/' :: ds) ⟨a, b, s⟩

/-- Whether a text is a field: entries with commas between them. -/
inductive IsField (f : Field) : List Char → List Entry → Prop
  | single {cs : List Char} {e : Entry} (h : IsEntry f cs e) : IsField f cs [e]
  | cons {cs rest : List Char} {e : Entry} {es : List Entry} (h : IsEntry f cs e)
      (hr : IsField f rest es) : IsField f (cs ++ ',' :: rest) (e :: es)

/-! ### The texts of expressions -/

/-- The texts of five fields. -/
def fiveFields (minute hour dayOfMonth month dayOfWeek : String) : Field → List Char
  | .minute => minute.toList
  | .hour => hour.toList
  | .dayOfMonth => dayOfMonth.toList
  | .month => month.toList
  | .dayOfWeek => dayOfWeek.toList

/-- The macros, and the fields that they stand for. -/
def macros : List (String × (Field → List Char)) :=
  [("@yearly", fiveFields "0" "0" "1" "1" "*"), ("@annually", fiveFields "0" "0" "1" "1" "*"),
    ("@monthly", fiveFields "0" "0" "1" "*" "*"), ("@weekly", fiveFields "0" "0" "*" "*" "0"),
    ("@daily", fiveFields "0" "0" "*" "*" "*"), ("@midnight", fiveFields "0" "0" "*" "*" "*"),
    ("@hourly", fiveFields "0" "*" "*" "*" "*")]

/-- Whether a text is a macro in any case of the ASCII letters, with white space around it. -/
def IsMacro (cs : List Char) (fields : Field → List Char) : Prop :=
  ∃ before after name macroName, cs = before ++ name ++ after ∧
    (∀ c ∈ before, Text.isBlank c) ∧ (∀ c ∈ after, Text.isBlank c) ∧
    (macroName, fields) ∈ macros ∧ Text.asciiLower name = macroName.toList

/-- The five fields in the order of an expression. -/
def wordsOf (fields : Field → List Char) : List (List Char) :=
  [fields .minute, fields .hour, fields .dayOfMonth, fields .month, fields .dayOfWeek]

/-- Whether a text consists of five words, of which the first does not start with an at sign. -/
def HasFields (cs : List Char) (fields : Field → List Char) : Prop :=
  Text.Spaced cs (wordsOf fields) ∧ (fields .minute).head? ≠ some '@'

/-- Whether a text comes to five fields, as a macro or by itself. -/
def Spells (cs : List Char) (fields : Field → List Char) : Prop :=
  IsMacro cs fields ∨ HasFields cs fields

/-- Whether a text is a cron expression: a macro, or five fields by the grammar. -/
def IsExpression (cs : List Char) : Prop :=
  (∃ fields, IsMacro cs fields) ∨
    ∃ fields, HasFields cs fields ∧ ∀ f, ∃ es, IsField f (fields f) es

/-! ### Characters of values -/

theorem isLower_of_mem_names {f : Field} {name : String} {v : Nat} (h : (name, v) ∈ f.names) :
    name.toList ≠ [] ∧ ∀ c ∈ Text.asciiLower name.toList, 'a' ≤ c ∧ c ≤ 'z' := by
  have hall : ∀ f : Field, ∀ n ∈ f.names, n.1.toList ≠ [] ∧
      (Text.asciiLower n.1.toList).all fun c => 'a' ≤ c ∧ c ≤ 'z' := by
    intro f
    cases f <;> decide
  exact (hall f _ h).imp_right fun hl c hc => of_decide_eq_true (List.all_eq_true.mp hl c hc)

variable {f : Field} {cs : List Char} {v : Nat}

/-- A name is made of letters. -/
theorem IsName.isLower (h : IsName f cs v) :
    cs ≠ [] ∧ ∀ c ∈ cs, 'a' ≤ c.toLower ∧ c.toLower ≤ 'z' := by
  obtain ⟨name, hmem, hlower⟩ := h
  obtain ⟨hne, hletters⟩ := isLower_of_mem_names hmem
  refine ⟨?_, fun c hc => ?_⟩
  · rintro rfl
    have hl := congrArg List.length hlower
    rw [Text.asciiLower, Text.asciiLower, List.length_map, List.length_map] at hl
    exact hne (List.length_eq_zero_iff.mp hl.symm)
  · have hm : c.toLower ∈ Text.asciiLower cs := List.mem_map_of_mem hc
    rw [hlower] at hm
    exact hletters _ hm

/-- Only capital letters have another lower-case form, and it is a letter. -/
theorem toLower_eq_self_or (c : Char) :
    c.toLower = c ∨ 65 ≤ c.toNat ∧ c.toNat ≤ 90 ∧ c.toLower.toNat = c.toNat + 32 := by
  by_cases hupper : c.val ≥ 'A'.val ∧ c.val ≤ 'Z'.val
  · have hge : 65 ≤ c.toNat := hupper.1
    have hle : c.toNat ≤ 90 := hupper.2
    refine .inr ⟨hge, hle, ?_⟩
    have hlower : c.toLower.val = c.val + 32 := congrArg Char.val (dif_pos hupper)
    change c.val.toNat ≤ 90 at hle
    change c.toLower.val.toNat = c.val.toNat + 32
    have h32 : UInt32.toNat 32 = 32 := rfl
    rw [hlower, UInt32.toNat_add, h32]
    exact Nat.mod_eq_of_lt (by omega)
  · exact .inl (dif_neg hupper)

theorem not_isLower_of_isDigit {c : Char} (h : Text.isDigit c) : ¬ 'a' ≤ c.toLower := by
  obtain ⟨hle, hge⟩ := Text.toNat_of_isDigit h
  intro ha
  have ha : 97 ≤ c.toLower.toNat := ha
  rcases toLower_eq_self_or c with hc | hc
  · rw [hc] at ha
    omega
  · omega

/-- A number is made of digits and perhaps a plus sign. -/
theorem IsNumber.isDigit (h : IsNumber cs v) {c : Char} (hc : c ∈ cs) :
    Text.isDigit c ∨ c = '+' := by
  obtain ⟨ds, rfl | rfl, -, hd, -⟩ := h
  · exact .inl (hd c hc)
  · rcases List.mem_cons.mp hc with rfl | hc
    · exact .inr rfl
    · exact .inl (hd c hc)

/-- A number is no name. -/
theorem IsNumber.not_isName (h : IsNumber cs v) (w : Nat) : ¬ IsName f cs w := by
  intro hname
  obtain ⟨hne, hletters⟩ := hname.isLower
  obtain ⟨c, cs, rfl⟩ := List.exists_cons_of_ne_nil hne
  have hc := (hletters c List.mem_cons_self).1
  rcases h.isDigit List.mem_cons_self with hd | rfl
  · exact not_isLower_of_isDigit hd hc
  · exact absurd hc (by decide)

/-- A value is made of digits, a plus sign and letters. -/
theorem IsValue.not_mem_of (h : IsValue f cs v) {c : Char} (hdigit : ¬ Text.isDigit c)
    (hplus : c ≠ '+') (hletter : ¬ 'a' ≤ c.toLower) : c ∉ cs := by
  intro hm
  rcases h.spelled with hnumber | hname
  · exact (hnumber.isDigit hm).elim hdigit hplus
  · exact hletter (hname.isLower.2 c hm).1

/-- The characters that stand between values are in no value. -/
theorem IsValue.not_mem (h : IsValue f cs v) {sep : Char} (hs : sep ∈ ['*', '-', '/', ',']) :
    sep ∉ cs := by
  obtain ⟨hdigit, hplus, hletter⟩ :
      ¬ Text.isDigit sep ∧ sep ≠ '+' ∧ ¬ 'a' ≤ sep.toLower := by
    simp only [List.mem_cons, List.not_mem_nil, or_false] at hs
    rcases hs with rfl | rfl | rfl | rfl <;> decide
  exact h.not_mem_of hdigit hplus hletter

theorem IsNumber.ne_nil (h : IsNumber cs v) : cs ≠ [] := by
  obtain ⟨ds, rfl | rfl, hne, -⟩ := h
  · exact hne
  · exact List.cons_ne_nil _ _

theorem IsValue.ne_nil (h : IsValue f cs v) : cs ≠ [] :=
  h.spelled.elim IsNumber.ne_nil fun hname => hname.isLower.1

/-! ### Values are read -/

theorem readNat?_eq_some_iff {ds : List Char} {n : Nat} : Text.readNat? ds = some n ↔
    ds ≠ [] ∧ (∀ c ∈ ds, Text.isDigit c) ∧ n = Text.digitsValue ds := by
  rw [Text.readNat?, Option.ite_none_right_eq_some, Bool.and_eq_true, Bool.not_eq_true',
    List.isEmpty_eq_false_iff, List.all_eq_true, and_assoc, Option.some_inj, eq_comm (a := n)]

theorem readUnsigned?_of_head?_ne {limit : Nat} (h : cs.head? ≠ some '+') :
    Text.readUnsigned? limit cs = (Text.readNat? cs).filter (· ≤ limit) := by
  cases cs with
  | nil => rfl
  | cons c cs =>
    have hc : c ≠ '+' := fun hc => h (congrArg some hc)
    rw [Text.readUnsigned?]
    simp [hc]

/-- The numbers of at most 32 bits are read. -/
theorem readUnsigned?_eq_some_iff :
    Text.readUnsigned? numberLimit cs = some v ↔ IsNumber cs v := by
  have hread {ds : List Char} : (Text.readNat? ds).filter (· ≤ numberLimit) = some v ↔
      ds ≠ [] ∧ (∀ c ∈ ds, Text.isDigit c) ∧ v = Text.digitsValue ds ∧ v < 2 ^ 32 := by
    rw [Option.filter_eq_some_iff, readNat?_eq_some_iff, decide_eq_true_eq, and_assoc, and_assoc]
    simp only [numberLimit, Nat.lt_succ_iff.symm, Nat.reduceAdd, Nat.reducePow, Nat.succ_eq_add_one]
  constructor
  · intro h
    by_cases hplus : cs.head? = some '+'
    · obtain ⟨ds, rfl⟩ := List.head?_eq_some_iff.mp hplus
      exact ⟨ds, .inr rfl, hread.mp h⟩
    · rw [readUnsigned?_of_head?_ne hplus] at h
      exact ⟨cs, .inl rfl, hread.mp h⟩
  · rintro ⟨ds, rfl | rfl, hds⟩
    · have hplus : cs.head? ≠ some '+' := by
        intro hhead
        have := hds.2.1 '+' (List.mem_of_mem_head? hhead)
        exact absurd this (by decide)
      rw [readUnsigned?_of_head?_ne hplus]
      exact hread.mpr hds
    · exact hread.mpr hds

/-- The names of a field are found, in any case. -/
theorem named?_eq_some_iff : f.named? cs = some v ↔ IsName f cs v := by
  have hfind : ∀ f : Field, ∀ n ∈ f.names, (f.names.find? fun m =>
      Text.asciiLower m.1.toList == Text.asciiLower n.1.toList) = some n := by
    intro f
    cases f <;> decide
  constructor
  · intro h
    obtain ⟨n, hn, rfl⟩ := Option.map_eq_some_iff.mp h
    have hlower := List.find?_some hn
    exact ⟨n.1, List.mem_of_find?_eq_some hn, (beq_iff_eq.mp hlower).symm⟩
  · rintro ⟨name, hmem, hlower⟩
    rw [Field.named?, hlower, hfind f _ hmem]
    rfl

theorem or_named?_eq_some_iff : (Text.readUnsigned? numberLimit cs).or (f.named? cs) = some v ↔
    IsNumber cs v ∨ IsName f cs v := by
  rw [← readUnsigned?_eq_some_iff, ← named?_eq_some_iff]
  cases hn : Text.readUnsigned? numberLimit cs with
  | none => simp
  | some n =>
    -- a text that is a number is looked up in vain
    have hname : ¬ f.named? cs = some v := fun h =>
      (readUnsigned?_eq_some_iff.mp hn).not_isName v (named?_eq_some_iff.mp h)
    simp [hname]

theorem readValue_eq_elim (f : Field) (cs : List Char) :
    readValue f cs = ((Text.readUnsigned? numberLimit cs).or (f.named? cs)).elim
      (.error (.invalidValue f (String.ofList cs))) fun v =>
        if v < f.least || f.greatest < v then .error (.outOfRange f v) else .ok v := by
  rw [readValue]
  cases Text.readUnsigned? numberLimit cs
  · cases f.named? cs <;> rfl
  · rfl

/-- The values of a field are read. -/
theorem readValue_eq_ok_iff : readValue f cs = .ok v ↔ IsValue f cs v := by
  rw [readValue_eq_elim]
  constructor
  · intro h
    cases hw : (Text.readUnsigned? numberLimit cs).or (f.named? cs) with
    | none =>
      rw [hw] at h
      cases h
    | some w =>
      rw [hw, Option.elim_some] at h
      split at h
      · cases h
      · next hin =>
        cases h
        rw [Bool.or_eq_true, decide_eq_true_eq, decide_eq_true_eq] at hin
        exact ⟨or_named?_eq_some_iff.mp hw, by omega, by omega⟩
  · rintro ⟨hs, hle, hge⟩
    rw [or_named?_eq_some_iff.mpr hs]
    simp [hle, hge]

/-! ### Ranges are read -/

variable {stepped : Bool} {a b s : Nat} {es : List Entry} {e : Entry}

theorem bind_eq_ok_iff {ε α β : Type} {x : Except ε α} {g : α → Except ε β} {y : β} :
    x >>= g = .ok y ↔ ∃ z, x = .ok z ∧ g z = .ok y := by
  cases x with
  | error e =>
    constructor
    · intro h
      cases h
    · rintro ⟨_, h, -⟩
      cases h
  | ok z =>
    constructor
    · exact fun h => ⟨z, rfl, h⟩
    · rintro ⟨_, hz, h⟩
      cases hz
      exact h

/-- The characters that stand between ranges are in no range. -/
theorem Spans.not_mem (h : Spans f stepped cs a b) {sep : Char} (hs : sep ∈ ['/', ',']) :
    sep ∉ cs := by
  have hvalue : sep ∈ ['*', '-', '/', ','] :=
    List.mem_cons_of_mem _ (List.mem_cons_of_mem _ hs)
  have hne : sep ≠ '*' ∧ sep ≠ '-' := by
    simp only [List.mem_cons, List.not_mem_nil, or_false] at hs
    rcases hs with rfl | rfl <;> decide
  cases h with
  | all => exact List.not_mem_cons_of_ne_of_not_mem hne.1 List.not_mem_nil
  | one h => exact h.not_mem hvalue
  | onward h => exact h.not_mem hvalue
  | between ha hb _ =>
    exact List.not_mem_append (ha.not_mem hvalue)
      (List.not_mem_cons_of_ne_of_not_mem hne.2 (hb.not_mem hvalue))

theorem Spans.ne_nil (h : Spans f stepped cs a b) : cs ≠ [] := by
  cases h with
  | all => exact List.cons_ne_nil _ _
  | one h => exact h.ne_nil
  | onward h => exact h.ne_nil
  | between ha hb _ => exact List.append_ne_nil_of_left_ne_nil ha.ne_nil _

/-- A range ascends inside its field. -/
theorem Spans.bounds (h : Spans f stepped cs a b) :
    f.least ≤ a ∧ a ≤ b ∧ b ≤ f.greatest := by
  cases h with
  | all => exact ⟨le_rfl, by cases f <;> decide, le_rfl⟩
  | one h => exact ⟨h.least_le, le_rfl, h.le_greatest⟩
  | onward h => exact ⟨h.least_le, h.le_greatest, le_rfl⟩
  | between ha hb hab => exact ⟨ha.least_le, hab, hb.le_greatest⟩

theorem Spans.readRange_eq (h : Spans f stepped cs a b) :
    readRange f stepped cs = .ok (a, b) := by
  have hvalue {cs : List Char} {v : Nat} (h : IsValue f cs v) :
      cs ≠ ['*'] ∧ Text.cut '-' cs = none := by
    have hstar : '*' ∉ cs := h.not_mem (by decide)
    refine ⟨fun hcs => hstar ?_, Text.cut_eq_none_iff.mpr (h.not_mem (by decide))⟩
    rw [hcs]
    exact List.mem_singleton_self _
  cases h with
  | all => rfl
  | one h =>
    obtain ⟨hne, hcut⟩ := hvalue h
    rw [readRange, if_neg hne, hcut]
    exact bind_eq_ok_iff.mpr ⟨_, readValue_eq_ok_iff.mpr h, rfl⟩
  | onward h =>
    obtain ⟨hne, hcut⟩ := hvalue h
    rw [readRange, if_neg hne, hcut]
    exact bind_eq_ok_iff.mpr ⟨_, readValue_eq_ok_iff.mpr h, rfl⟩
  | @between _ as bs _ _ ha hb hab =>
    have hne : as ++ '-' :: bs ≠ ['*'] := by
      intro h
      have hm : '-' ∈ as ++ '-' :: bs := List.mem_append_right _ List.mem_cons_self
      rw [h] at hm
      exact absurd hm (by decide)
    rw [readRange, if_neg hne, Text.cut_append_cons (ha.not_mem (by decide))]
    exact bind_eq_ok_iff.mpr ⟨_, readValue_eq_ok_iff.mpr ha,
      bind_eq_ok_iff.mpr ⟨_, readValue_eq_ok_iff.mpr hb, rfl⟩⟩

/-- The ranges of a field are read, and reversed ones besides. -/
theorem readRange_eq_ok_iff :
    readRange f stepped cs = .ok (a, b) ∧ a ≤ b ↔ Spans f stepped cs a b := by
  refine ⟨fun ⟨h, hab⟩ => ?_, fun h => ⟨h.readRange_eq, h.bounds.2.1⟩⟩
  rw [readRange] at h
  split at h
  · next hcs =>
    cases h
    rw [hcs]
    exact .all
  · split at h
    · next as bs hcut =>
      obtain ⟨first, hfirst, h⟩ := bind_eq_ok_iff.mp h
      obtain ⟨last, hlast, h⟩ := bind_eq_ok_iff.mp h
      cases h
      rw [(Text.cut_eq_some_iff.mp hcut).1]
      exact .between (readValue_eq_ok_iff.mp hfirst) (readValue_eq_ok_iff.mp hlast) hab
    · obtain ⟨v, hv, h⟩ := bind_eq_ok_iff.mp h
      cases h
      cases stepped with
      | false => exact .one (readValue_eq_ok_iff.mp hv)
      | true => exact .onward (readValue_eq_ok_iff.mp hv)

/-! ### Entries are read -/

/-- The steps that are read are the positive numbers. -/
theorem readStep_eq_ok_iff : readStep f cs = .ok s ↔ IsNumber cs s ∧ 0 < s := by
  rw [← readUnsigned?_eq_some_iff, readStep]
  split
  · next h => simp [h]; omega
  · next h => simp [h]
  · next n hn h =>
    rw [h, Option.some_inj, Except.ok.injEq]
    exact ⟨fun hs => ⟨hs, by grind⟩, And.left⟩

/-- The entry of a range and a step, unless the range is reversed. -/
def entryOfRange (f : Field) (step : Nat) (range : Nat × Nat) : Except Fault Entry :=
  if range.2 < range.1 then .error (.reversedRange f range.1 range.2)
  else .ok ⟨range.1, range.2, step⟩

theorem bind_entryOfRange_eq_ok_iff : readRange f stepped cs >>= entryOfRange f s = .ok e ↔
    Spans f stepped cs e.first e.last ∧ e.step = s := by
  rw [bind_eq_ok_iff, ← readRange_eq_ok_iff]
  constructor
  · rintro ⟨⟨a, b⟩, hr, h⟩
    rw [entryOfRange] at h
    split at h
    · cases h
    · next hab =>
      cases h
      exact ⟨⟨hr, Nat.not_lt.mp hab⟩, rfl⟩
  · rintro ⟨⟨hr, hab⟩, rfl⟩
    exact ⟨_, hr, if_neg (Nat.not_lt.mpr hab)⟩

theorem readEntry_of_cut_none (hne : cs ≠ []) (hc : Text.cut '/' cs = none) :
    readEntry f cs = readRange f false cs >>= entryOfRange f 1 := by
  have hempty : ¬ cs.isEmpty := by simpa using hne
  simp only [readEntry, hc]
  rw [if_neg hempty]
  rfl

theorem readEntry_of_cut_some {range ds : List Char} (hc : Text.cut '/' cs = some (range, ds)) :
    readEntry f cs =
      readStep f ds >>= fun step => readRange f true range >>= entryOfRange f step := by
  have hempty : ¬ cs.isEmpty := by
    rw [(Text.cut_eq_some_iff.mp hc).1]
    simp
  simp only [readEntry, hc]
  rw [if_neg hempty]
  rfl

/-- The entries of a field are read as what they denote. -/
theorem readEntry_eq_ok_iff : readEntry f cs = .ok e ↔ IsEntry f cs e := by
  constructor
  · intro h
    cases hc : Text.cut '/' cs with
    | none =>
      by_cases hne : cs = []
      · rw [hne] at h
        cases h
      · rw [readEntry_of_cut_none hne hc] at h
        obtain ⟨hspans, hstep⟩ := bind_entryOfRange_eq_ok_iff.mp h
        obtain ⟨first, last, step⟩ := e
        obtain rfl : step = 1 := hstep
        exact .plain hspans
    | some parts =>
      obtain ⟨range, ds⟩ := parts
      rw [readEntry_of_cut_some hc] at h
      obtain ⟨s, hs, h⟩ := bind_eq_ok_iff.mp h
      obtain ⟨hspans, rfl⟩ := bind_entryOfRange_eq_ok_iff.mp h
      obtain ⟨hnumber, hpos⟩ := readStep_eq_ok_iff.mp hs
      rw [(Text.cut_eq_some_iff.mp hc).1]
      exact .stepped hspans hnumber hpos
  · intro h
    cases h with
    | plain h =>
      rw [readEntry_of_cut_none h.ne_nil (Text.cut_eq_none_iff.mpr (h.not_mem (by decide)))]
      exact bind_entryOfRange_eq_ok_iff.mpr ⟨h, rfl⟩
    | stepped h hs hpos =>
      rw [readEntry_of_cut_some (Text.cut_append_cons (h.not_mem (by decide)))]
      exact bind_eq_ok_iff.mpr ⟨_, readStep_eq_ok_iff.mpr ⟨hs, hpos⟩,
        bind_entryOfRange_eq_ok_iff.mpr ⟨h, rfl⟩⟩

/-- An entry has a positive step, and its values are values of the field. -/
theorem IsEntry.bounds (h : IsEntry f cs e) :
    0 < e.step ∧ f.least ≤ e.first ∧ e.first ≤ e.last ∧ e.last ≤ f.greatest := by
  cases h with
  | plain h => exact ⟨Nat.one_pos, h.bounds⟩
  | stepped h _ hpos => exact ⟨hpos, h.bounds⟩

theorem IsEntry.not_mem_comma (h : IsEntry f cs e) : ',' ∉ cs := by
  cases h with
  | plain h => exact h.not_mem (by decide)
  | stepped h hs _ =>
    refine List.not_mem_append (h.not_mem (by decide))
      (List.not_mem_cons_of_ne_of_not_mem (by decide) fun hm => ?_)
    exact (hs.isDigit hm).elim (by decide) (by decide)

/-! ### Fields are read -/

theorem beq_comma_of_not_mem (h : ',' ∉ cs) : ∀ c ∈ cs, (c == ',') = false :=
  fun _ hc => beq_eq_false_iff_ne.mpr (ne_of_mem_of_not_mem hc h)

theorem readField_of_not_mem (h : ',' ∉ cs) :
    readField f cs = readEntry f cs >>= fun e => .ok [e] := by
  rw [readField, Text.pieces_eq_singleton (beq_comma_of_not_mem h)]
  rfl

theorem readField_append_comma {rest : List Char} (h : ',' ∉ cs) :
    readField f (cs ++ ',' :: rest) =
      readEntry f cs >>= fun e => readField f rest >>= fun es => .ok (e :: es) := by
  rw [readField, Text.pieces_append_cons (beq_comma_of_not_mem h) (beq_self_eq_true _),
    List.mapM_cons]
  rfl

/-- The fields are read as what they denote. -/
theorem readField_eq_ok_iff : readField f cs = .ok es ↔ IsField f cs es := by
  constructor
  · intro h
    induction hl : cs.length using Nat.strongRecOn generalizing cs es with
    | ind n ih =>
      cases hc : Text.cut ',' cs with
      | none =>
        rw [readField_of_not_mem (Text.cut_eq_none_iff.mp hc)] at h
        obtain ⟨e, he, h⟩ := bind_eq_ok_iff.mp h
        cases h
        exact .single (readEntry_eq_ok_iff.mp he)
      | some parts =>
        obtain ⟨entry, rest⟩ := parts
        obtain ⟨rfl, hcomma⟩ := Text.cut_eq_some_iff.mp hc
        rw [readField_append_comma hcomma] at h
        obtain ⟨e, he, h⟩ := bind_eq_ok_iff.mp h
        obtain ⟨es', hes, h⟩ := bind_eq_ok_iff.mp h
        cases h
        have hlt : rest.length < n := by
          rw [← hl, List.length_append, List.length_cons]
          omega
        exact .cons (readEntry_eq_ok_iff.mp he) (ih _ hlt hes rfl)
  · intro h
    induction h with
    | single h =>
      rw [readField_of_not_mem h.not_mem_comma]
      exact bind_eq_ok_iff.mpr ⟨_, readEntry_eq_ok_iff.mpr h, rfl⟩
    | cons h _ ih =>
      rw [readField_append_comma h.not_mem_comma]
      exact bind_eq_ok_iff.mpr ⟨_, readEntry_eq_ok_iff.mpr h, bind_eq_ok_iff.mpr ⟨_, ih, rfl⟩⟩

/-! ### Macros -/

theorem isBlank_toLower_of_isBlank {c : Char} (h : Text.isBlank c) : Text.isBlank c.toLower := by
  rcases toLower_eq_self_or c with hc | ⟨hge, hle, -⟩
  · rw [hc]
    exact h
  · simp [Text.isBlank] at h
    omega

/-- A macro starts with an at sign and has no white space. -/
theorem isMacroName {name : List Char} {m : String × (Field → List Char)} (hm : m ∈ macros)
    (h : Text.asciiLower name = m.1.toList) :
    name.head? = some '@' ∧ ∀ c ∈ name, Text.isBlank c = false := by
  have hall : ∀ m ∈ macros, m.1.toList.head? = some '@' ∧
      m.1.toList.any Text.isBlank = false := by
    decide
  obtain ⟨hhead, hblank⟩ := hall m hm
  rw [← h] at hhead hblank
  constructor
  · rw [Text.asciiLower, List.head?_map, Option.map_eq_some_iff] at hhead
    obtain ⟨c, hc, hat⟩ := hhead
    rcases toLower_eq_self_or c with hself | ⟨hge, -, hadd⟩
    · rw [hc, ← hself, hat]
    · rw [hat] at hadd
      have : '@'.toNat = 64 := rfl
      omega
  · intro c hc
    by_contra hb
    rw [Bool.not_eq_false] at hb
    exact List.any_eq_false.mp hblank _ (List.mem_map_of_mem hc) (isBlank_toLower_of_isBlank hb)

/-- The macros are found, and stand for their fields. -/
theorem macroFields?_of_mem {name : List Char} {m : String × (Field → List Char)}
    (hm : m ∈ macros) (h : Text.asciiLower name = m.1.toList) :
    ∃ text, macroFields? name = some text ∧ Text.words text.toList = wordsOf m.2 := by
  have hall : ∀ m ∈ macros, Text.asciiLower m.1.toList = m.1.toList ∧
      (macroFields? m.1.toList).map (fun text => Text.words text.toList) = some (wordsOf m.2) := by
    decide +kernel
  obtain ⟨hlower, hwords⟩ := hall m hm
  have hname : macroFields? name = macroFields? m.1.toList := by
    rw [macroFields?, macroFields?, h, hlower]
  rw [hname]
  exact Option.map_eq_some_iff.mp hwords

theorem mem_macros_of_macroFields? {name : List Char} {text : String}
    (h : macroFields? name = some text) : ∃ m ∈ macros, Text.asciiLower name = m.1.toList := by
  have hmem : String.ofList (Text.asciiLower name) ∈ macros.map (·.1) := by
    rw [macroFields?] at h
    split at h
    case h_8 => cases h
    all_goals
      next hname =>
        rw [hname]
        decide
  obtain ⟨m, hm, hname⟩ := List.mem_map.mp hmem
  exact ⟨m, hm, by rw [hname, String.toList_ofList]⟩

/-- The fields of a macro are fields by the grammar. -/
theorem isField_of_mem_macros {m : String × (Field → List Char)} (hm : m ∈ macros) (f : Field) :
    ∃ es, IsField f (m.2 f) es := by
  have hall : ∀ f : Field, ∀ m ∈ macros, (readField f (m.2 f)).toOption.isSome := by
    intro f
    cases f <;> decide +kernel
  obtain ⟨es, hes⟩ := Option.isSome_iff_exists.mp (hall f m hm)
  cases h : readField f (m.2 f) with
  | error _ =>
    rw [h] at hes
    cases hes
  | ok es => exact ⟨es, readField_eq_ok_iff.mp h⟩

end Cron

namespace CronExpression

open Cron

variable {text : String} {c : CronExpression} {t : Field → List Char}

/-! ### Expressions are read -/

/-- The expression of the entries of five fields. -/
def ofEntries (source : String) (t : Field → List Char) (es : Field → List Entry) :
    CronExpression where
  source
  minutes := valuesOf .minute (es .minute)
  hours := valuesOf .hour (es .hour)
  daysOfMonth := valuesOf .dayOfMonth (es .dayOfMonth)
  months := valuesOf .month (es .month)
  daysOfWeek := weekdaysOf (es .dayOfWeek)
  daysOfMonthRestricted := (t .dayOfMonth).head? != some '*'
  daysOfWeekRestricted := (t .dayOfWeek).head? != some '*'

/-- Five texts make an expression if they are fields by the grammar. -/
theorem ofFields_eq_ok_iff {source : String} :
    ofFields source (t .minute) (t .hour) (t .dayOfMonth) (t .month) (t .dayOfWeek) = .ok c ↔
      ∃ es : Field → List Entry, (∀ f, IsField f (t f) (es f)) ∧ c = ofEntries source t es := by
  constructor
  · intro h
    obtain ⟨weekdays, hweekdays, h⟩ := bind_eq_ok_iff.mp h
    obtain ⟨minutes, hminutes, h⟩ := bind_eq_ok_iff.mp h
    obtain ⟨hours, hhours, h⟩ := bind_eq_ok_iff.mp h
    obtain ⟨days, hdays, h⟩ := bind_eq_ok_iff.mp h
    obtain ⟨months, hmonths, h⟩ := bind_eq_ok_iff.mp h
    cases h
    refine ⟨fun
      | .minute => minutes
      | .hour => hours
      | .dayOfMonth => days
      | .month => months
      | .dayOfWeek => weekdays, fun f => ?_, rfl⟩
    rw [← readField_eq_ok_iff]
    cases f <;> assumption
  · rintro ⟨es, hes, rfl⟩
    have hread (f : Field) : readField f (t f) = .ok (es f) := readField_eq_ok_iff.mpr (hes f)
    rw [ofFields, hread, hread, hread, hread, hread]
    rfl

/-- The expression of the words of a text, of which there must be five. -/
def ofWords (source : String) : List (List Char) → Except Fault CronExpression
  | [minute, hour, dayOfMonth, month, dayOfWeek] =>
    ofFields source minute hour dayOfMonth month dayOfWeek
  | fields => .error (.fieldCount fields.length)

theorem exists_wordsOf_of_ofWords {source : String} {ws : List (List Char)}
    (h : ofWords source ws = .ok c) : ∃ t, ws = wordsOf t := by
  rw [ofWords.eq_def] at h
  split at h
  · next minute hour dayOfMonth month dayOfWeek =>
    exact ⟨fun
      | .minute => minute
      | .hour => hour
      | .dayOfMonth => dayOfMonth
      | .month => month
      | .dayOfWeek => dayOfWeek, rfl⟩
  · cases h

theorem parse_of_head?_ne (h : (Text.trim text.toList).head? ≠ some '@') :
    parse text = ofWords (String.ofList (Text.trim text.toList)) (Text.words text.toList) := by
  rw [← Text.words_trim]
  simp only [parse, if_neg h]
  rfl

theorem parse_of_head?_eq {fields : String} (h : (Text.trim text.toList).head? = some '@')
    (hm : macroFields? (Text.trim text.toList) = some fields) :
    parse text = ofWords (String.ofList (Text.trim text.toList)) (Text.words fields.toList) := by
  simp only [parse, if_pos h, hm]
  rfl

/-- A text that comes to five fields is read from them. -/
theorem parse_of_spells (h : Spells text.toList t) :
    parse text = ofFields (String.ofList (Text.trim text.toList)) (t .minute) (t .hour)
      (t .dayOfMonth) (t .month) (t .dayOfWeek) := by
  rcases h with ⟨before, after, name, m, htext, hbefore, hafter, hm, hname⟩ | ⟨hspaced, hat⟩
  · obtain ⟨hhead, hblank⟩ := isMacroName hm hname
    obtain ⟨fields, hfields, hwords⟩ := macroFields?_of_mem hm hname
    have htrim : Text.trim text.toList = name := by
      rw [htext]
      exact Text.trim_append hbefore hafter hblank
    rw [← htrim] at hhead hfields
    rw [parse_of_head?_eq hhead hfields, hwords]
    rfl
  · have hwords : Text.words text.toList = wordsOf t := Text.spaced_iff.mp hspaced
    have hhead := Text.head?_of_words_trim ((Text.words_trim _).trans hwords)
    rw [parse_of_head?_ne (hhead ▸ hat), hwords]
    rfl

/-- An expression is read from a text that comes to five fields. -/
theorem exists_spells_of_parse (h : parse text = .ok c) : ∃ t, Spells text.toList t := by
  by_cases hhead : (Text.trim text.toList).head? = some '@'
  · cases hm : macroFields? (Text.trim text.toList) with
    | none =>
      simp only [parse, if_pos hhead, hm] at h
      cases h
    | some fields =>
      obtain ⟨m, hmem, hname⟩ := mem_macros_of_macroFields? hm
      obtain ⟨before, after, hbefore, hafter, htext⟩ := Text.exists_trim text.toList
      exact ⟨m.2, .inl ⟨before, after, _, m.1, htext, hbefore, hafter, hmem, hname⟩⟩
  · rw [parse_of_head?_ne hhead] at h
    obtain ⟨t, ht⟩ := exists_wordsOf_of_ofWords h
    have hfirst := Text.head?_of_words_trim ((Text.words_trim _).trans ht)
    exact ⟨t, .inr ⟨Text.spaced_iff.mpr ht, hfirst ▸ hhead⟩⟩

/-- The expressions are read from the texts of the grammar. -/
theorem exists_parse_iff : (∃ c, parse text = .ok c) ↔ IsExpression text.toList := by
  constructor
  · rintro ⟨c, h⟩
    obtain ⟨t, ht⟩ := exists_spells_of_parse h
    rw [parse_of_spells ht] at h
    obtain ⟨es, hes, -⟩ := ofFields_eq_ok_iff.mp h
    exact ht.imp (fun hm => ⟨t, hm⟩) fun hf => ⟨t, hf, fun f => ⟨es f, hes f⟩⟩
  · intro h
    obtain ⟨t, ht, hfields⟩ : ∃ t, Spells text.toList t ∧ ∀ f, ∃ es, IsField f (t f) es := by
      rcases h with ⟨t, hm⟩ | ⟨t, hf, hfields⟩
      · obtain ⟨-, -, -, m, -, -, -, hmem, -⟩ := id hm
        exact ⟨t, .inl hm, isField_of_mem_macros hmem⟩
      · exact ⟨t, .inr hf, hfields⟩
    obtain ⟨es, hes⟩ := Classical.axiomOfChoice hfields
    exact ⟨_, (parse_of_spells ht).trans (ofFields_eq_ok_iff.mpr ⟨es, hes, rfl⟩)⟩

/-- A text is read if and only if it is an expression by the grammar, and every other text is
refused with a fault. Every entry that is read has a positive step and selects values of its field
only, all of them below 64. -/
theorem parse_isExpression :
    (∀ text : String, ((∃ c, parse text = .ok c) ↔ IsExpression text.toList) ∧
      ((∃ fault, parse text = .error fault) ↔ ¬ IsExpression text.toList)) ∧
    ∀ (f : Field) (cs : List Char) (e : Entry), readEntry f cs = .ok e →
      0 < e.step ∧ e.first ≤ e.last ∧
        ∀ v, e.covers v → f.least ≤ v ∧ v ≤ f.greatest ∧ v < 64 := by
  refine ⟨fun text => ⟨exists_parse_iff, ?_⟩, fun f cs e h => ?_⟩
  · rw [← exists_parse_iff]
    cases h : parse text <;> simp
  · obtain ⟨hstep, hleast, hascends, hgreatest⟩ := (readEntry_eq_ok_iff.mp h).bounds
    refine ⟨hstep, hascends, fun v hv => ?_⟩
    have hlt : f.greatest < 64 := by
      cases f <;> decide
    simp only [Entry.covers, Bool.and_eq_true, decide_eq_true_eq] at hv
    omega

end CronExpression

end RuleEngine
