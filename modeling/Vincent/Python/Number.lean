-- SUMMARY: Numbers as Python converts and compares them.
import Vincent.General.Check
import Vincent.Python.Value

/-!
# Numbers

`float(v)` and `int(v)` with the exception each of them raises, the `try` blocks
that the economy code puts around them, and the order of floats. A NaN is below
and above nothing.
-/

namespace Vincent.Python

/-! ## Exceptions -/

/-- `try: x except exns: dflt`. -/
def catching {α : Type} (exns : List String) (x : Except String α) (dflt : α) :
    Except String α :=
  match x with
  | .ok a => .ok a
  | .error exn => if exn ∈ exns then .ok dflt else .error exn

/-! ## Conversions -/

/-- `float(v)`. -/
def pyFloat (rt : Runtime) : PyVal → Except String PyFloat
  | .bool b => .ok (.finite (if b then 1 else 0))
  | .int n => match rt.floatOfInt n with
    | some q => .ok (.finite q)
    | none => .error "OverflowError"
  | .float x => .ok x
  | .str s => match rt.floatOfStr s with
    | some x => .ok x
    | none => .error "ValueError"
  | _ => .error "TypeError"

/-- `int(v)`. -/
def pyInt (rt : Runtime) : PyVal → Except String Int
  | .bool b => .ok (if b then 1 else 0)
  | .int n => .ok n
  | .float (.finite q) => .ok (q.num.tdiv q.den)
  | .float .negZero => .ok 0
  | .float .nan => .error "ValueError"
  | .float _ => .error "OverflowError"
  | .str s => match rt.intOfStr s with
    | some n => .ok n
    | none => .error "ValueError"
  | _ => .error "TypeError"

/-- `math.isfinite(x)`, with the rational it stands for. -/
def PyFloat.rat? : PyFloat → Option ℚ
  | .finite q => some q
  | .negZero => some 0
  | _ => none

/-! ## Order -/

/-- `x < y`. -/
def PyFloat.lt (x y : PyFloat) : Bool :=
  match x, y with
  | .nan, _ | _, .nan => false
  | .negInf, .negInf => false
  | .negInf, _ => true
  | _, .negInf => false
  | .inf, _ => false
  | _, .inf => true
  | x, y => (x.rat?.getD 0) < (y.rat?.getD 0)

/-- `x <= y`. -/
def PyFloat.le (x y : PyFloat) : Bool := x != .nan && y != .nan && !y.lt x

theorem PyFloat.finite_le {a b : ℚ} : (PyFloat.finite a).le (.finite b) = true ↔ a ≤ b := by
  have hlt : (PyFloat.finite a).le (.finite b) = !decide (b < a) := rfl
  simp [hlt]

/-- Finite floats are ordered as the rationals they stand for. -/
theorem PyFloat.lt_rat {x y : PyFloat} {a b : ℚ} (hx : x.rat? = some a) (hy : y.rat? = some b) :
    x.lt y = true ↔ a < b := by
  cases x <;> cases y <;> simp_all [PyFloat.lt, PyFloat.rat?]

/-- The place of a float that is not NaN in the order. -/
def PyFloat.place : PyFloat → WithBot (WithTop ℚ)
  | .finite q => ((q : WithTop ℚ) : WithBot (WithTop ℚ))
  | .negZero => (((0 : ℚ) : WithTop ℚ) : WithBot (WithTop ℚ))
  | .inf => ((⊤ : WithTop ℚ) : WithBot (WithTop ℚ))
  | .negInf | .nan => ⊥

theorem PyFloat.lt_place {x y : PyFloat} (hx : x ≠ .nan) (hy : y ≠ .nan) :
    x.lt y = true ↔ x.place < y.place := by
  cases x <;> cases y <;> simp_all only [PyFloat.lt, PyFloat.rat?, PyFloat.place,
    Option.getD_some, WithBot.coe_lt_coe, WithTop.coe_lt_coe, ne_eq,
    reduceCtorEq, not_false_eq_true, not_true_eq_false, lt_self_iff_false, Bool.false_eq_true,
    WithBot.bot_lt_coe, WithTop.coe_lt_top, not_lt_bot, not_top_lt]
  all_goals exact decide_eq_true_iff

theorem PyFloat.le_place {x y : PyFloat} (hx : x ≠ .nan) (hy : y ≠ .nan) :
    x.le y = true ↔ x.place ≤ y.place := by
  unfold PyFloat.le
  rw [← not_lt, ← PyFloat.lt_place hy hx]
  simp [hx, hy]

/-- `x + q` for a rational `q`. -/
def PyFloat.addRat (x : PyFloat) (q : ℚ) : PyFloat :=
  match x.rat? with
  | some r => .finite (r + q)
  | none => x

end Vincent.Python
