import RuleEngine.Value

/-!
# Equal values

Equality of values compares numbers as numbers, so that it is coarser than sameness of data: the two
zeros are equal. Every value has a plain form, in which all zeros are positive, and values are equal
if and only if their plain forms are the same. So equality is an equivalence, and since the sign of
a zero is not rendered, equal values have the same text.

## Main definitions

* `Value.plain`: the value with positive zeros only.

## Main results

* `Value.equal_iff`: values are equal if and only if they have the same plain form.
* `Value.render_of_equal`: equal values have the same text.
-/

namespace RuleEngine

namespace Number

/-- The number with a positive zero instead of a negative one. -/
def plain (x : Number) : Number :=
  if x.magnitude = 0 then zero false else x

theorem equal_iff_plain {x y : Number} : x.equal y = true ↔ x.plain = y.plain := by
  constructor
  · intro h
    rcases eq_or_zero_of_equal h with rfl | ⟨hx, hy⟩
    · rfl
    · rw [plain, plain, if_pos hx, if_pos hy]
  · have hkey (z : Number) : z.plain.key = z.key := by
      unfold plain
      split
      · next hz => simp [key, zero, hz]
      · rfl
    intro h
    rw [equal_iff, ← hkey x, ← hkey y, h]

/-- The sign of a zero is not written. -/
theorem write_plain (x : Number) :
    NumberLayout.plain.write x.plain = NumberLayout.plain.write x := by
  unfold plain
  split
  · next hx => simp [NumberLayout.write, NumberLayout.plain, zero, hx]
  · rfl

end Number

namespace Value

mutual

/-- The value with positive zeros only. -/
def plain : Value → Value
  | .null => .null
  | .boolean b => .boolean b
  | .number x => .number x.plain
  | .string s => .string s
  | .list items => .list (plainItems items)

/-- The values of a list with positive zeros only. -/
def plainItems : List Value → List Value
  | [] => []
  | v :: rest => plain v :: plainItems rest

end

mutual

/-- Values are equal if and only if they have the same plain form. -/
theorem equal_iff : (v w : Value) → (v.equal w = true ↔ v.plain = w.plain)
  | .null, w => by cases w <;> simp [equal, plain]
  | .boolean a, w => by cases w <;> simp [equal, plain]
  | .number x, w => by cases w <;> simp [equal, plain, Number.equal_iff_plain]
  | .string s, w => by cases w <;> simp [equal, plain]
  | .list as, w => by
    cases w with
    | list bs => simp [equal, plain, equalItems_iff as bs]
    | _ => simp [equal, plain]

theorem equalItems_iff :
    (vs ws : List Value) → (equalItems vs ws = true ↔ plainItems vs = plainItems ws)
  | [], ws => by cases ws <;> simp [equalItems, plainItems]
  | v :: vs, ws => by
    cases ws with
    | nil => simp [equalItems, plainItems]
    | cons w ws => simp [equalItems, plainItems, equal_iff v w, equalItems_iff vs ws]

end

variable {u v w : Value}

theorem equal_refl (v : Value) : v.equal v = true :=
  (equal_iff v v).mpr rfl

theorem equal_comm (v w : Value) : v.equal w = w.equal v := by
  rw [Bool.eq_iff_iff, equal_iff, equal_iff, eq_comm]

theorem equal_trans (h : u.equal v = true) (h' : v.equal w = true) : u.equal w = true :=
  (equal_iff u w).mpr (((equal_iff u v).mp h).trans ((equal_iff v w).mp h'))

/-- Equal values are equal to the same values. -/
theorem equal_congr (h : u.equal v = true) (w : Value) : u.equal w = v.equal w := by
  rw [Bool.eq_iff_iff, equal_iff, equal_iff, (equal_iff u v).mp h]

theorem renderItems_cons_cons (v w : Value) (rest : List Value) :
    renderItems (v :: w :: rest) = v.render ++ ',' :: ' ' :: renderItems (w :: rest) := by
  rw [renderItems]
  simp

mutual

/-- A value and its plain form have the same text. -/
theorem render_plain : (v : Value) → v.plain.render = v.render
  | .null => rfl
  | .boolean _ => rfl
  | .number x => by rw [plain, render, render, x.write_plain]
  | .string _ => rfl
  | .list items => by rw [plain, render, render, renderItems_plain items]

theorem renderItems_plain :
    (items : List Value) → renderItems (plainItems items) = renderItems items
  | [] => rfl
  | [v] => by rw [plainItems, plainItems, renderItems, renderItems, render_plain v]
  | v :: w :: rest => by
    have hrest : renderItems (w.plain :: plainItems rest) = renderItems (w :: rest) :=
      renderItems_plain (w :: rest)
    rw [plainItems, plainItems, renderItems_cons_cons, renderItems_cons_cons, render_plain v, hrest]

end

/-- Equal values have the same text. -/
theorem render_of_equal (h : v.equal w = true) : v.render = w.render := by
  rw [← render_plain v, ← render_plain w, (equal_iff v w).mp h]

theorem text_of_equal (h : v.equal w = true) : v.text = w.text :=
  congrArg String.ofList (render_of_equal h)

end Value

end RuleEngine
