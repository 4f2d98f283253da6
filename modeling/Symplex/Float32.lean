import Mathlib.Algebra.Group.Nat.Basic
import Mathlib.Data.Nat.Log
import Symplex.Basic

namespace Symplex

/-- A Go `float32`, kept as its IEEE-754 binary32 bit pattern (`math.Float32bits`). -/
structure Float32 where
  bits : BitVec 32
  deriving DecidableEq, Repr

namespace Float32

def zero : Float32 := ⟨0⟩
def negZero : Float32 := ⟨0x80000000⟩
def one : Float32 := ⟨0x3F800000⟩
def defaultNaN : Float32 := ⟨0xFFC00000⟩

def negative (x : Float32) : Bool := 2 ^ 31 ≤ x.bits.toNat

def magnitude (x : Float32) : Nat := x.bits.toNat % 2 ^ 31

def isNaN (x : Float32) : Bool := 0x7F800000 < x.magnitude
def isInf (x : Float32) : Bool := x.magnitude = 0x7F800000

def key (x : Float32) : Int := if x.negative then -(x.magnitude : Int) else x.magnitude

/-- Go's `x < y`: false whenever either side is NaN. -/
def lt (x y : Float32) : Bool := !x.isNaN && !y.isNaN && decide (x.key < y.key)
/-- Go's `x <= y`. -/
def le (x y : Float32) : Bool := !x.isNaN && !y.isNaN && decide (x.key ≤ y.key)
/-- Go's `x == y`, so `-0 == 0` and `NaN != NaN`. -/
def beq (x y : Float32) : Bool := !x.isNaN && !y.isNaN && decide (x.key = y.key)

def units (x : Float32) : Nat :=
  if x.magnitude / 2 ^ 23 = 0 then x.magnitude
  else (2 ^ 23 + x.magnitude % 2 ^ 23) * 2 ^ (x.magnitude / 2 ^ 23 - 1)

def signedUnits (x : Float32) : Int := if x.negative then -(x.units : Int) else x.units

def roundNearestEven (n d : Nat) : Nat :=
  if 2 * (n % d) < d then n / d
  else if d < 2 * (n % d) then n / d + 1
  else n / d + n / d % 2

def roundedBits (n : Nat) : Nat :=
  if n < 2 ^ 24 then n
  else (n.log2 - 23) * 2 ^ 23 + roundNearestEven n (2 ^ (n.log2 - 23))

def ofUnits (negative : Bool) (n : Nat) : Float32 :=
  ⟨BitVec.ofNat 32 ((if negative then 2 ^ 31 else 0) + min (roundedBits n) 0x7F800000)⟩

/-- `-x` on `float32`: the sign bit flipped. -/
def neg (x : Float32) : Float32 := ⟨x.bits ^^^ 0x80000000⟩

def quiet (x : Float32) : Float32 :=
  if x.bits.toNat / 2 ^ 22 % 2 = 1 then x else ⟨x.bits + 0x400000⟩

/-- Go's `x + y` on `float32` as x86 `ADDSS` computes it: a NaN operand propagates quietly,
`∞ + -∞` is the default NaN, and finite sums round to nearest, ties to even. -/
def add (x y : Float32) : Float32 :=
  if x.isNaN then x.quiet
  else if y.isNaN then y.quiet
  else if x.isInf then (if y.isInf && x.negative != y.negative then defaultNaN else x)
  else if y.isInf then y
  else if x.signedUnits + y.signedUnits = 0 then
    (if x.negative && y.negative then negZero else zero)
  else ofUnits (decide (x.signedUnits + y.signedUnits < 0)) (x.signedUnits + y.signedUnits).natAbs

instance : Add Float32 := ⟨add⟩

theorem add_def (x y : Float32) : x + y = add x y := rfl

theorem magnitude_lt (x : Float32) : x.magnitude < 2 ^ 31 := Nat.mod_lt _ (by decide)

theorem isNaN_iff (x : Float32) : x.isNaN ↔ 0x7F800000 < x.magnitude := by simp [isNaN]

theorem isNaN_quiet {x : Float32} (nan : x.isNaN) : x.quiet.isNaN := by
  unfold quiet
  split
  · exact nan
  · rename_i clear
    have bound := x.bits.isLt
    simp only [isNaN, magnitude, decide_eq_true_eq, BitVec.toNat_add] at nan ⊢
    change 2139095040 < (x.bits.toNat + 4194304) % 2 ^ 32 % 2 ^ 31
    omega

theorem add_isNaN_left {x : Float32} (nan : x.isNaN) (y : Float32) : (x + y).isNaN := by
  simp only [add_def, add, nan, if_true]
  exact isNaN_quiet nan

theorem add_isNaN_right (x : Float32) {y : Float32} (nan : y.isNaN) : (x + y).isNaN := by
  by_cases left : x.isNaN
  · exact add_isNaN_left left y
  · simp only [add_def, add, left, nan, if_true, if_false, Bool.false_eq_true]
    exact isNaN_quiet nan

theorem ofUnits_not_isNaN (negative : Bool) (n : Nat) : ¬ (ofUnits negative n).isNaN := by
  have capped := Nat.min_le_right (roundedBits n) 0x7F800000
  cases negative <;>
    simp only [ofUnits, isNaN, magnitude, BitVec.toNat_ofNat, decide_eq_true_eq, if_true,
      if_false, Bool.false_eq_true] <;> omega

theorem add_not_isNaN {x y : Float32} (left : ¬ x.isNaN) (right : ¬ y.isNaN)
    (infinities : ¬ (x.isInf ∧ y.isInf ∧ x.negative ≠ y.negative)) : ¬ (x + y).isNaN := by
  simp only [add_def, add, left, right, if_false, Bool.false_eq_true]
  split
  · split
    · rename_i xInf both
      simp only [Bool.and_eq_true, bne_iff_ne, ne_eq] at both
      exact absurd ⟨xInf, both⟩ infinities
    · exact left
  split
  · exact right
  split
  · split <;> decide
  · exact ofUnits_not_isNaN _ _

end Float32

end Symplex
