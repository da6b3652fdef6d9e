/-!
# The fewest digits that read back

A finite binary value stands for the interval of reals that round to it. Of the decimals in that
interval `shortest` takes one with the fewest digits, and of those the nearest. All comparisons are
exact, in natural numbers.
-/

namespace FederatedMetrics.Decimal

/-- A finite value `significand * 2 ^ exponent` that is not negative. `narrowBelow` says that the
gap to the value below is half the gap to the value above. -/
structure Binary where
  significand : Nat
  exponent : Int
  narrowBelow : Bool
deriving DecidableEq, Repr

/-- The magnitude of a finite value, from its bits. -/
def Binary.ofBits (bits : UInt64) : Binary :=
  let e := ((bits >>> 52) &&& 0x7FF).toNat
  let f := (bits &&& 0xFFFFFFFFFFFFF).toNat
  if e = 0 then ⟨f, -1074, false⟩
  else ⟨Nat.pow 2 52 + f, (e : Int) - 1075, f == 0 && decide (1 < e)⟩

/-- The decimal `digits * 10 ^ exponent`. -/
structure Digits where
  digits : Nat
  exponent : Int
deriving DecidableEq, Repr

/-- Compare `a * 10 ^ i` with `b * 2 ^ j`. -/
def compareScaled (a : Nat) (i : Int) (b : Nat) (j : Int) : Ordering :=
  compare (a * Nat.pow 10 i.toNat * Nat.pow 2 (-j).toNat)
    (b * Nat.pow 2 j.toNat * Nat.pow 10 (-i).toNat)

/-- Whether a decimal lies among the reals that round to a value. The ends of the interval belong to
it exactly when the significand is even. -/
def Binary.readsBack (x : Binary) (d : Digits) : Bool :=
  let low := if x.narrowBelow then 4 * x.significand - 1 else 4 * x.significand - 2
  let high := 4 * x.significand + 2
  let even := x.significand % 2 == 0
  let toLow := compareScaled d.digits d.exponent low (x.exponent - 2)
  let toHigh := compareScaled d.digits d.exponent high (x.exponent - 2)
  (toLow == .gt || (even && toLow == .eq)) && (toHigh == .lt || (even && toHigh == .eq))

/-- The least `k ≥ guess` with `x < 10 ^ k`, looked for in at most `steps` steps. -/
def Binary.scaleFrom (x : Binary) : Nat → Int → Int
  | 0, guess => guess
  | steps + 1, guess =>
      if compareScaled 1 guess x.significand x.exponent == .gt then guess
      else x.scaleFrom steps (guess + 1)

/-- The least `k` with `x < 10 ^ k`. The binary logarithm gives a guess that is too small by at most
two. -/
def Binary.scale (x : Binary) : Int :=
  let log := (Nat.log2 x.significand : Int) + x.exponent
  x.scaleFrom 4 (Int.fdiv (log * 30103) 100000 - 1)

/-- The largest multiple of `10 ^ grid` that is not above the value, in units of the grid. -/
def Binary.floorAt (x : Binary) (grid : Int) : Nat :=
  (x.significand * Nat.pow 2 x.exponent.toNat * Nat.pow 10 (-grid).toNat) /
    (Nat.pow 2 (-x.exponent).toNat * Nat.pow 10 grid.toNat)

/-- Of the two neighbours of the value on a grid, the one that reads back; if both do, the nearer,
and from the middle the even one. -/
def Binary.onGrid? (x : Binary) (grid : Int) : Option Digits :=
  let n := x.floorAt grid
  let below : Digits := ⟨n, grid⟩
  let above : Digits := ⟨n + 1, grid⟩
  match x.readsBack below, x.readsBack above with
  | true, true =>
      match compareScaled (2 * n + 1) grid (2 * x.significand) x.exponent with
      | .gt => some below
      | .lt => some above
      | .eq => if n % 2 = 0 then some below else some above
  | true, false => some below
  | false, true => some above
  | false, false => none

/-- Move trailing zeros of the digits into the exponent, at most `steps` of them. -/
def Digits.strip : Nat → Digits → Digits
  | 0, d => d
  | steps + 1, d =>
      if d.digits ≠ 0 ∧ d.digits % 10 = 0 then strip steps ⟨d.digits / 10, d.exponent + 1⟩ else d

/-- The exact decimal value. -/
def Binary.exact (x : Binary) : Digits :=
  if 0 ≤ x.exponent then ⟨x.significand * Nat.pow 2 x.exponent.toNat, 0⟩
  else ⟨x.significand * Nat.pow 5 (-x.exponent).toNat, x.exponent⟩

/-- The shortest decimal that reads back, on the first grid of one to seventeen digits that has
one. -/
def Binary.shortest (x : Binary) : Digits :=
  let k := x.scale
  let found := (List.range 17).findSome? fun (n : Nat) => x.onGrid? (k - 1 - Int.ofNat n)
  Digits.strip 20 (found.getD x.exact)

example : (Binary.ofBits 0x3FB999999999999A).shortest = ⟨1, -1⟩ := by decide +kernel

example : (Binary.ofBits 1).shortest = ⟨5, -324⟩ := by decide +kernel

example : (Binary.ofBits 0x44B52D02C7E14AF6).shortest = ⟨1, 23⟩ := by decide +kernel

end FederatedMetrics.Decimal
