/-!
The shortest decimal that reads back as a given floating-point number. The reals that round to the
number form an interval around it. The digits are looked for on ever finer decimal grids: the first
grid with a point in the interval wins, of two points the nearer one, and an exact tie goes to the
even point.
-/

namespace LivePreview.Decimal

structure Binary where
  mantissa : Nat
  exponent : Int
  deriving DecidableEq, Repr

structure Scaled where
  digits : Nat
  exponent : Int
  deriving DecidableEq, Repr

def powerOfTwo (n : Nat) : Nat :=
  Nat.pow 2 n

def powerOfTen (n : Nat) : Nat :=
  Nat.pow 10 n

def fractionBits : Nat := 52

def leastExponent : Int := -1074

def Binary.ofBits (bits : UInt64) : Binary :=
  let fraction : Nat := bits.toNat % powerOfTwo fractionBits
  let biased : Nat := bits.toNat / powerOfTwo fractionBits % powerOfTwo 11
  if biased = 0 then ⟨fraction, leastExponent⟩
  else ⟨powerOfTwo fractionBits + fraction, leastExponent + ((biased - 1 : Nat) : Int)⟩

/-- The gap to the next smaller number is half as wide at a power of two. -/
def Binary.narrowBelow (x : Binary) : Bool :=
  x.mantissa == powerOfTwo fractionBits && leastExponent < x.exponent

def scaleTwo (n : Nat) (e : Int) : Nat × Nat :=
  if 0 ≤ e then (n * powerOfTwo e.toNat, 1) else (n, powerOfTwo (-e).toNat)

/-- The largest `k` with `10 ^ k ≤ num / den`, for positive `num` and `den`. -/
def magnitude (num den : Nat) : Int :=
  if den ≤ num then ((Nat.toDigits 10 (num / den)).length - 1 : Nat)
  else
    let places := (Nat.toDigits 10 (den / num)).length
    if den ≤ num * powerOfTen (places - 1) then -((places - 1 : Nat) : Int) else -(places : Int)

/-- A positive number in quarters of the last mantissa bit, with the interval that rounds to it. -/
structure Interval where
  lower : Nat
  middle : Nat
  upper : Nat
  den : Nat
  closed : Bool
  deriving Repr

def Binary.interval (x : Binary) : Interval :=
  let scale := scaleTwo 1 (x.exponent - 2)
  let quarters := 4 * x.mantissa
  { lower := (quarters - (if x.narrowBelow then 1 else 2)) * scale.1
    middle := quarters * scale.1
    upper := (quarters + 2) * scale.1
    den := scale.2
    closed := x.mantissa % 2 == 0 }

def Interval.rescale (i : Interval) (k : Int) : Interval :=
  if 0 ≤ k then { i with den := i.den * powerOfTen k.toNat }
  else
    let factor := powerOfTen (-k).toNat
    { i with lower := i.lower * factor, middle := i.middle * factor, upper := i.upper * factor }

def Interval.contains (i : Interval) (n : Nat) : Bool :=
  let v := n * i.den
  if i.closed then i.lower ≤ v && v ≤ i.upper else i.lower < v && v < i.upper

def Interval.nearest? (i : Interval) : Option Nat :=
  let below := i.middle / i.den
  let above := below + 1
  match i.contains below, i.contains above with
  | true, true =>
      let down := i.middle - below * i.den
      let up := above * i.den - i.middle
      if down < up then some below
      else if up < down then some above
      else if below % 2 = 0 then some below else some above
  | true, false => some below
  | false, true => some above
  | false, false => none

def shortestFrom (i : Interval) (top : Int) : Nat → Nat → Scaled
  | 0, places => ⟨i.middle / i.den, top - places⟩
  | fuel + 1, places =>
      let k := top - places
      match (i.rescale k).nearest? with
      | some n => ⟨n, k⟩
      | none => shortestFrom i top fuel (places + 1)

def dropZeros : Nat → Scaled → Scaled
  | 0, d => d
  | fuel + 1, d =>
      if d.digits ≠ 0 ∧ d.digits % 10 = 0 then dropZeros fuel ⟨d.digits / 10, d.exponent + 1⟩ else d

def Binary.shortest (x : Binary) : Scaled :=
  let i := x.interval
  dropZeros 20 (shortestFrom i (magnitude i.middle i.den) 17 0)

end LivePreview.Decimal
