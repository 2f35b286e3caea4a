-- SUMMARY: Arithmetic of Python floats, with infinities and NaN.
import Vincent.Python.Number

/-!
# Arithmetic of floats

Finite results are exact: nothing is rounded and nothing overflows. Infinities
and NaN follow IEEE 754. No function here tells a negative zero from zero, so a
zero result is plain zero.
-/

namespace Vincent.Python.PyFloat

/-- `-x`. -/
def neg : PyFloat → PyFloat
  | .finite q => .finite (-q)
  | .negZero => .finite 0
  | .inf => .negInf
  | .negInf => .inf
  | .nan => .nan

/-- `x + y`. -/
def add (x y : PyFloat) : PyFloat :=
  match x, y with
  | .nan, _ | _, .nan => .nan
  | .inf, .negInf | .negInf, .inf => .nan
  | .inf, _ | _, .inf => .inf
  | .negInf, _ | _, .negInf => .negInf
  | x, y => .finite ((x.rat?.getD 0) + (y.rat?.getD 0))

theorem add_ne_negZero (x y : PyFloat) : x.add y ≠ .negZero := by
  cases x <;> cases y <;> simp [add]

theorem add_zero {x : PyFloat} (hx : x ≠ .negZero) : x.add (.finite 0) = x := by
  cases x <;> simp_all [add, PyFloat.rat?]

theorem add_right_comm (x y z : PyFloat) : (x.add y).add z = (x.add z).add y := by
  cases x <;> cases y <;> cases z <;> first
    | rfl
    | simp only [add, PyFloat.rat?, Option.getD_some, Rat.add_assoc]
      exact congrArg (fun q => PyFloat.finite (_ + q)) (Rat.add_comm _ _)

instance : RightCommutative add := ⟨add_right_comm⟩

/-- `x - y`. -/
def sub (x y : PyFloat) : PyFloat := x.add y.neg

/-- The infinity of a sign. -/
def signedInf (positive : Bool) : PyFloat := if positive then .inf else .negInf

/-- An infinity, positive or not, times `y`. -/
def infMul (positive : Bool) (y : PyFloat) : PyFloat :=
  if (PyFloat.finite 0).lt y then signedInf positive
  else if y.lt (.finite 0) then signedInf !positive
  else .nan

/-- `x * y`. -/
def mul (x y : PyFloat) : PyFloat :=
  match x, y with
  | .nan, _ | _, .nan => .nan
  | .inf, y | y, .inf => infMul true y
  | .negInf, y | y, .negInf => infMul false y
  | x, y => .finite ((x.rat?.getD 0) * (y.rat?.getD 0))

/-- `1 / y` for a `y` that is not zero. -/
def inv (y : PyFloat) : PyFloat :=
  match y with
  | .nan => .nan
  | .inf | .negInf => .finite 0
  | y => .finite (y.rat?.getD 0)⁻¹

/-- `x / y` for a `y` that is not zero. -/
def div (x y : PyFloat) : PyFloat :=
  match x, y with
  | .inf, .inf | .inf, .negInf | .negInf, .inf | .negInf, .negInf => .nan
  | x, y => x.mul y.inv

/-- `max(x, y)`, which keeps the first where the second is not greater. -/
def max (x y : PyFloat) : PyFloat := if x.lt y then y else x

/-- `x == 0.0`. -/
def isZero (x : PyFloat) : Bool := x.rat? = some 0

end Vincent.Python.PyFloat
