import Symplex.Float32

namespace Symplex

/-- A Go `float64`, kept as its IEEE-754 binary64 bit pattern (`math.Float64bits`). -/
structure Float64 where
  bits : BitVec 64
  deriving DecidableEq, Repr

namespace Float64

def zero : Float64 := ⟨0⟩
def negZero : Float64 := ⟨0x8000000000000000⟩
def defaultNaN : Float64 := ⟨0xFFF8000000000000⟩

def negative (x : Float64) : Bool := 2 ^ 63 ≤ x.bits.toNat

def magnitude (x : Float64) : Nat := x.bits.toNat % 2 ^ 63

def isNaN (x : Float64) : Bool := 0x7FF0000000000000 < x.magnitude
def isInf (x : Float64) : Bool := x.magnitude = 0x7FF0000000000000
def isZero (x : Float64) : Bool := x.magnitude = 0

def key (x : Float64) : Int := if x.negative then -(x.magnitude : Int) else x.magnitude

/-- Go's `x < y`: false whenever either side is NaN. -/
def lt (x y : Float64) : Bool := !x.isNaN && !y.isNaN && decide (x.key < y.key)
/-- Go's `x == y`, so `-0 == 0` and `NaN != NaN`. -/
def beq (x y : Float64) : Bool := !x.isNaN && !y.isNaN && decide (x.key = y.key)

theorem lt_irrefl (x : Float64) : x.lt x = false := by
  simp [Float64.lt]

theorem lt_asymm {x y : Float64} (lt : x.lt y = true) : y.lt x = false := by
  simp only [Float64.lt, Bool.and_eq_true, Bool.not_eq_true', decide_eq_true_eq] at lt
  simp only [Float64.lt, decide_eq_false (Int.not_lt.mpr lt.2.le), Bool.and_false]

theorem lt_eq_false_trans {x y z : Float64} (number : y.isNaN = false) (xy : x.lt y = false)
    (yz : y.lt z = false) : x.lt z = false := by
  unfold Float64.lt at *
  cases hx : x.isNaN
  · cases hz : z.isNaN
    · simp only [hx, hz, number, Bool.not_false, Bool.true_and, decide_eq_false_iff_not, Int.not_lt] at xy yz ⊢
      omega
    · simp
  · simp

def doublingFrom (n : Nat) : Nat → Nat → Nat
  | 0, j => j
  | f + 1, j => if n < 1 <<< (1 <<< j) then j else doublingFrom n f (j + 1)

def log2Search (n : Nat) : Nat → Nat → Nat
  | 0, lo => lo
  | j + 1, lo => if 1 <<< (lo + 1 <<< j) ≤ n then log2Search n j (lo + 1 <<< j) else log2Search n j lo

def log2 (n : Nat) : Nat := log2Search n (doublingFrom n n 0) 0

theorem doublingFrom_bound (n : Nat) : ∀ (f j : Nat), n < 2 ^ 2 ^ (j + f) → n < 2 ^ 2 ^ doublingFrom n f j
  | 0, j, below => below
  | f + 1, j, below => by
    unfold doublingFrom
    rw [Nat.one_shiftLeft, Nat.one_shiftLeft]
    split
    · assumption
    · exact doublingFrom_bound n f (j + 1) (by rwa [show j + 1 + f = j + (f + 1) by omega])

theorem log2Search_eq (n : Nat) : ∀ (j lo : Nat), 2 ^ lo ≤ n → n < 2 ^ (lo + 2 ^ j) → log2Search n j lo = n.log2
  | 0, lo, low, high => by
    have nonzero : n ≠ 0 := by have := Nat.one_le_two_pow (n := lo); omega
    have := (Nat.le_log2 nonzero).mpr low
    have := (Nat.log2_lt nonzero).mpr high
    simp only [log2Search]
    omega
  | j + 1, lo, low, high => by
    unfold log2Search
    rw [Nat.one_shiftLeft, Nat.one_shiftLeft]
    have halves : lo + 2 ^ (j + 1) = lo + 2 ^ j + 2 ^ j := by rw [Nat.pow_succ]; omega
    split
    · exact log2Search_eq n j _ ‹_› (by rwa [halves] at high)
    · exact log2Search_eq n j lo low (by omega)

theorem log2Search_zero : ∀ j : Nat, log2Search 0 j 0 = 0
  | 0 => rfl
  | j + 1 => by
    rw [log2Search, if_neg (by rw [Nat.one_shiftLeft]; exact Nat.not_le.mpr (Nat.two_pow_pos _))]
    exact log2Search_zero j

theorem log2_eq (n : Nat) : log2 n = n.log2 := by
  rcases Nat.eq_zero_or_pos n with rfl | positive
  · exact (log2Search_zero _).trans Nat.log2_zero.symm
  · refine log2Search_eq n _ 0 positive ?_
    refine Nat.zero_add _ ▸ doublingFrom_bound n n 0 ?_
    calc n < 2 ^ n := Nat.lt_two_pow n
      _ ≤ 2 ^ 2 ^ (0 + n) := Nat.pow_le_pow_right (by decide) (by rw [Nat.zero_add]; exact (Nat.lt_two_pow n).le)

def units (x : Float64) : Nat :=
  if x.magnitude / 2 ^ 52 = 0 then x.magnitude
  else (2 ^ 52 + x.magnitude % 2 ^ 52) <<< (x.magnitude / 2 ^ 52 - 1)

def signedUnits (x : Float64) : Int := if x.negative then -(x.units : Int) else x.units

def ratioBits (num den : Nat) : Nat :=
  if num / den < 2 ^ 53 then Float32.roundNearestEven num den
  else (log2 (num / den) - 52) * 2 ^ 52 + Float32.roundNearestEven num (den <<< (log2 (num / den) - 52))

def ofRatio (negative : Bool) (num den : Nat) : Float64 :=
  ⟨BitVec.ofNat 64 ((if negative then 2 ^ 63 else 0) + min (ratioBits num den) 0x7FF0000000000000)⟩

def sqrtFrom (n : Nat) : Nat → Nat → Nat
  | 0, r => r
  | k + 1, r => sqrtFrom n k (if (r + 1 <<< k) * (r + 1 <<< k) ≤ n then r + 1 <<< k else r)

def isqrt (n : Nat) : Nat := sqrtFrom n (log2 n / 2 + 1) 0

def sqrtBits (n : Nat) : Nat :=
  let s := if log2 n / 2 < 53 then 0 else log2 n / 2 - 52
  let r := isqrt (n >>> (2 * s))
  let twice := (2 * r + 1) * (2 * r + 1) <<< (2 * s)
  s * 2 ^ 52 + (if twice < 4 * n ∨ (twice = 4 * n ∧ r % 2 = 1) then r + 1 else r)

def quiet (x : Float64) : Float64 :=
  if x.bits.toNat / 2 ^ 51 % 2 = 1 then x else ⟨x.bits + 0x8000000000000⟩

/-- `float64(x)` of a `float32` (x86 `CVTSS2SD`): exact; a NaN keeps its payload, quieted. -/
def ofFloat32 (x : Float32) : Float64 :=
  if x.isNaN then
    quiet ⟨BitVec.ofNat 64 ((if x.negative then 2 ^ 63 else 0) + 0x7FF0000000000000 +
      x.magnitude % 2 ^ 23 * 2 ^ 29)⟩
  else if x.isInf then (if x.negative then ⟨0xFFF0000000000000⟩ else ⟨0x7FF0000000000000⟩)
  else ofRatio x.negative (x.units <<< 925) 1

/-- Go's `x + y` as x86 `ADDSD` computes it: a NaN operand propagates quietly, `∞ + -∞` is the
default NaN, and finite sums round to nearest, ties to even. -/
def add (x y : Float64) : Float64 :=
  if x.isNaN then x.quiet
  else if y.isNaN then y.quiet
  else if x.isInf then (if y.isInf && x.negative != y.negative then defaultNaN else x)
  else if y.isInf then y
  else if x.signedUnits + y.signedUnits = 0 then
    (if x.negative && y.negative then negZero else zero)
  else ofRatio (decide (x.signedUnits + y.signedUnits < 0)) (x.signedUnits + y.signedUnits).natAbs 1

example : add ⟨0x3FB999999999999A⟩ ⟨0x3FC999999999999A⟩ = ⟨0x3FD3333333333334⟩ := by decide

/-- Go's `x * y` as x86 `MULSD` computes it. -/
def mul (x y : Float64) : Float64 :=
  if x.isNaN then x.quiet
  else if y.isNaN then y.quiet
  else if (x.isInf && y.isZero) || (x.isZero && y.isInf) then defaultNaN
  else if x.isInf || y.isInf then
    (if x.negative != y.negative then ⟨0xFFF0000000000000⟩ else ⟨0x7FF0000000000000⟩)
  else ofRatio (x.negative != y.negative) (x.units * y.units) (1 <<< 1074)

/-- Go's `x / y` as x86 `DIVSD` computes it. -/
def div (x y : Float64) : Float64 :=
  if x.isNaN then x.quiet
  else if y.isNaN then y.quiet
  else if (x.isInf && y.isInf) || (x.isZero && y.isZero) then defaultNaN
  else if x.isInf || y.isZero then
    (if x.negative != y.negative then ⟨0xFFF0000000000000⟩ else ⟨0x7FF0000000000000⟩)
  else if y.isInf then (if x.negative != y.negative then negZero else zero)
  else ofRatio (x.negative != y.negative) (x.units <<< 1074) y.units

/-- `math.Sqrt` (x86 `SQRTSD`): `±0` and `+∞` are their own roots, a negative operand gives
the default NaN, and finite roots round to nearest. -/
def sqrt (x : Float64) : Float64 :=
  if x.isNaN then x.quiet
  else if x.isZero then x
  else if x.negative then defaultNaN
  else if x.isInf then x
  else ⟨BitVec.ofNat 64 (sqrtBits (x.units <<< 1074))⟩

theorem sqrtFrom_spec (n : Nat) : ∀ (k r : Nat), r * r ≤ n → n < (r + 2 ^ k) * (r + 2 ^ k) →
    sqrtFrom n k r * sqrtFrom n k r ≤ n ∧ n < (sqrtFrom n k r + 1) * (sqrtFrom n k r + 1)
  | 0, r, low, high => by simpa [sqrtFrom] using And.intro low high
  | k + 1, r, low, high => by
    unfold sqrtFrom
    have half : r + 2 ^ (k + 1) = r + 2 ^ k + 2 ^ k := by rw [Nat.pow_succ]; omega
    rw [Nat.one_shiftLeft]
    split
    · exact sqrtFrom_spec n k _ ‹_› (by rw [half] at high; exact high)
    · exact sqrtFrom_spec n k r low (by omega)

theorem isqrt_spec (n : Nat) : isqrt n * isqrt n ≤ n ∧ n < (isqrt n + 1) * (isqrt n + 1) := by
  refine sqrtFrom_spec n _ 0 (by simp) ?_
  rw [Nat.zero_add, ← Nat.pow_add, ← Nat.two_mul, log2_eq]
  calc n < 2 ^ (n.log2 + 1) := Nat.lt_log2_self
    _ ≤ 2 ^ (2 * (n.log2 / 2 + 1)) := Nat.pow_le_pow_right (by decide) (by omega)

end Float64

end Symplex
