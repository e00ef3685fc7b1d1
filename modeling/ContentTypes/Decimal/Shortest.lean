namespace ContentTypes.Decimal

-- Which of two equally near points of a grid is taken.
inductive Tie where
  | even
  | up
  deriving DecidableEq, Repr

-- A finite positive fraction, `mantissa * 2 ^ exponent`. `narrow` holds where the neighbour below
-- is only half as far away as the one above.
structure Binary where
  mantissa : Nat
  exponent : Int
  narrow : Bool
  deriving DecidableEq, Repr

-- The magnitude that 64 bits stand for, where they stand for a finite number.
def Binary.ofBits? (bits : UInt64) : Option Binary :=
  let fraction := bits.toNat % Nat.pow 2 52
  let scale : Nat := bits.toNat / Nat.pow 2 52 % 2048
  if scale = 2047 then none
  else if scale = 0 then some ⟨fraction, -1074, false⟩
  else some ⟨fraction + Nat.pow 2 52, Int.ofNat scale - 1075, fraction = 0 && 1 < scale⟩

def isNegative (bits : UInt64) : Bool := Nat.pow 2 63 ≤ bits.toNat

-- `count * 10 ^ scale`
structure Digits where
  count : Nat
  scale : Int
  deriving DecidableEq, Repr

namespace Binary

-- The fraction and the ends of its space, all in quarters of its last binary place,
-- beside one step of the decimal grid `10 ^ scale` in the same unit.
structure Ruler where
  centre : Nat
  low : Nat
  high : Nat
  step : Nat

def ruler (x : Binary) (scale : Int) : Ruler :=
  let shift := x.exponent - 2
  let unit := Nat.pow 2 shift.toNat * Nat.pow 10 (-scale).toNat
  { centre := 4 * x.mantissa * unit
    low := (4 * x.mantissa - if x.narrow then 1 else 2) * unit
    high := (4 * x.mantissa + 2) * unit
    step := Nat.pow 10 scale.toNat * Nat.pow 2 (-shift).toNat }

def covers (x : Binary) (r : Ruler) (count : Nat) : Bool :=
  if x.mantissa % 2 = 0 then r.low ≤ count * r.step && count * r.step ≤ r.high
  else r.low < count * r.step && count * r.step < r.high

-- The point of a grid that reads back, if there is one: the nearer of the two around the fraction.
def onGrid (x : Binary) (tie : Tie) (scale : Int) : Option Nat :=
  let r := x.ruler scale
  let below := r.centre / r.step
  let above := below + 1
  let rest := r.centre % r.step
  let upward := r.step < 2 * rest ||
    (2 * rest = r.step && (tie = .up || below % 2 = 1))
  let near := if upward then above else below
  let far := if upward then below else above
  if x.covers r near then some near else if x.covers r far then some far else none

-- The power of ten that lies just above the fraction.
-- A binary logarithm gives it but for one, which the comparison settles.
def magnitude (x : Binary) : Int :=
  let guess := ((Nat.log2 x.mantissa : Int) + x.exponent) * 30103 / 100000
  let r := x.ruler guess
  if r.step ≤ r.centre then
    if 10 * r.step ≤ r.centre then guess + 2 else guess + 1
  else guess

-- `places` more digits are tried after the first `used`.
-- Seventeen digits always read back, so the last branch only closes the recursion.
def search (x : Binary) (tie : Tie) (top : Int) (used : Nat) : Nat → Digits
  | 0 => ⟨0, 0⟩
  | places + 1 =>
      match x.onGrid tie (top - (used + 1)) with
      | some count => ⟨count, top - (used + 1)⟩
      | none => search x tie top (used + 1) places

-- The fewest digits that read back as the fraction. The numbers that round to it fill the space
-- halfway to its two neighbours, the ends included when the mantissa is even. Grids of one, two,
-- three and more digits are tried, and the first grid with a point in that space is taken.
def shortest (x : Binary) (tie : Tie) : Digits :=
  if x.mantissa = 0 then ⟨0, 0⟩ else x.search tie x.magnitude 0 17

end Binary

end ContentTypes.Decimal
