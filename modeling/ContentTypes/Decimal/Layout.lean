import ContentTypes.Decimal.Shortest

namespace ContentTypes.Decimal

-- The decisions of a format. Exponents are those of the leading digit; between the two bounds, both
-- included, a number is written positionally, and without bounds always.
structure Layout where
  tie : Tie
  lowest : Option Int
  highest : Option Int
  deriving DecidableEq, Repr

namespace Layout

-- Fractions in the text of a value and in the faults of reading one.
def json : Layout := ⟨.even, some (-5), some 15⟩

-- Fractions in the faults of reading settings.
def plain : Layout := ⟨.up, none, none⟩

end Layout

def zeros (n : Nat) : List Char := List.replicate n '0'

-- `point` digits stand before the decimal point. One zero at least follows the point.
def positional (digits : List Char) (point : Int) : List Char :=
  if point ≤ 0 then '0' :: '.' :: zeros (-point).toNat ++ digits
  else
    let whole := digits.take point.toNat ++ zeros (point.toNat - digits.length)
    let rest := digits.drop point.toNat
    whole ++ '.' :: (if rest.isEmpty then ['0'] else rest)

def scientific (digits : List Char) (exponent : Int) : List Char :=
  let power := 'e' :: (if exponent < 0 then '-' else '+') :: Nat.toDigits 10 exponent.natAbs
  match digits with
  | [] => power
  | [d] => d :: power
  | d :: rest => d :: '.' :: rest ++ power

def dropZeros (digits : List Char) : List Char :=
  (digits.reverse.dropWhile (· == '0')).reverse

def Layout.magnitudeText (layout : Layout) (x : Binary) : List Char :=
  if x.mantissa = 0 then ['0', '.', '0']
  else
    let found := x.shortest layout.tie
    let written := Nat.toDigits 10 found.count
    let point := (written.length : Int) + found.scale
    let digits := dropZeros written
    if layout.lowest.all (· ≤ point - 1) && layout.highest.all (point - 1 ≤ ·) then
      positional digits point
    else scientific digits (point - 1)

def Layout.text (layout : Layout) (bits : UInt64) : String :=
  let sign := if isNegative bits then ['-'] else []
  match Binary.ofBits? bits with
  | some x => String.ofList (sign ++ layout.magnitudeText x)
  | none => if bits.toNat % Nat.pow 2 52 = 0 then String.ofList (sign ++ ['i', 'n', 'f']) else "NaN"

end ContentTypes.Decimal
